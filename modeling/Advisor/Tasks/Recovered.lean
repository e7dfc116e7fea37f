import Mathlib.Data.List.TakeWhile
import Advisor.Tasks.Outputs

/-! Results that are printed between the delimiters of the task type, with other text before and after them:
when they are what the job has in the end. -/

namespace Advisor.Tasks

open Python Procedure Django Relational

/-- What is after the results: a playbook's are followed by the brace of what they are in. -/
def closing (type : TaskType) (space after : List Char) : List Char :=
  match type with
  | .ansible => '\x7d' :: (space ++ ("PLAY RECAP *".toList ++ after))
  | .script => scriptSuffix.toList ++ after

def printed (type : TaskType) (before text space after : List Char) : List Char :=
  before ++ (type.jsonPrefix.toList ++ (text ++ closing type space after))

/-- Results that have no end delimiter in them, with no prefix before them. -/
structure Printable (lib : TaskLibrary) (type : TaskType) (before space : List Char) (text : String)
    (items : List (String × Json)) : Prop where
  results : lib.loads text = .ok (.dict items)
  noPrefix : ¬type.jsonPrefix.toList <:+: before
  noEnd : ∀ n ≤ text.length, type.endsAt (text.toList.drop n) = false
  space : space ≠ [] ∧ ∀ c ∈ space, isSpace c = true

/-- What precedes the results does not make a prefix with the beginning of theirs, and that of a playbook has no
end of results in it. -/
structure Undisturbed (type : TaskType) (before : List Char) : Prop where
  prefixed : ¬type.jsonPrefix.toList <:+: before ++ type.jsonPrefix.toList.dropLast
  recap : type = .ansible → ∀ n ≤ before.length, recapAt (before.drop n) = false

variable {lib : TaskLibrary} {type : TaskType} {job : Job} {s : State}
variable {before space after : List Char} {text : String} {items : List (String × Json)}

theorem recapAt_cons_of_ne {c : Char} {l : List Char} (h : c ≠ '\x7d') : recapAt (c :: l) = false := by
  unfold recapAt
  split
  · rename_i heq
    exact absurd (List.cons.inj heq).1 h
  · rfl

theorem recapAt_append_cons {a : Char} (hspace : isSpace a = false) (hwords : a ∉ "PLAY RECAP *".toList)
    {l rest : List Char} (hl : l ≠ []) : recapAt (l ++ a :: rest) = recapAt l := by
  obtain ⟨c, cs, rfl⟩ := List.exists_cons_of_ne_nil hl
  by_cases hc : c = '\x7d'
  · subst hc
    cases cs with
    | nil => simp [recapAt, hspace]
    | cons d ds =>
      simp only [List.cons_append, recapAt]
      congr 1
      rw [List.dropWhile_append]
      by_cases hall : (ds.dropWhile isSpace).isEmpty = true
      · have hnil : ds.dropWhile isSpace = [] := by simpa using hall
        have hne : 'P' ≠ a := fun he => hwords (by rw [← he]; decide)
        rw [if_pos hall, hnil, List.dropWhile_cons, hspace, if_neg Bool.false_ne_true]
        simp [List.isPrefixOf_cons_cons, hne]
      · rw [if_neg hall]
        exact isPrefixOf_append_cons hwords
  · rw [List.cons_append, recapAt_cons_of_ne hc, recapAt_cons_of_ne hc]

theorem recapAt_closing (hspace : space ≠ [] ∧ ∀ c ∈ space, isSpace c = true) :
    recapAt (closing .ansible space after) = true := by
  obtain ⟨c, cs, rfl⟩ := List.exists_cons_of_ne_nil hspace.1
  have hwords : ("PLAY RECAP *".toList ++ after).dropWhile isSpace = "PLAY RECAP *".toList ++ after := rfl
  simp only [closing, List.cons_append, recapAt, hspace.2 c (by simp), Bool.true_and]
  rw [List.dropWhile_append_of_pos (fun d hd => hspace.2 d (by simp [hd])), hwords, List.isPrefixOf_iff_prefix]
  exact List.prefix_append _ _

theorem recapStart_printed (h : Printable lib .ansible before space text items)
    (hrecap : ∀ n ≤ before.length, recapAt (before.drop n) = false) :
    recapStart (printed .ansible before text.toList space after) =
      some (before.length + TaskType.ansible.jsonPrefix.length + text.length) := by
  have hquote : TaskType.ansible.jsonPrefix.toList = '"' :: "task_results\": ".toList := by decide
  have hnoBrace : ∀ c ∈ TaskType.ansible.jsonPrefix.toList, c ≠ '\x7d' := by
    have hall : TaskType.ansible.jsonPrefix.toList.all (· ≠ '\x7d') = true := by decide
    exact fun c hc => of_decide_eq_true (List.all_eq_true.mp hall c hc)
  rw [recapStart_eq, searchFirst_eq_some]
  refine ⟨?_, ?_, fun m hm => ?_⟩
  · simp only [printed, List.length_append, String.length_toList]
    omega
  · have hlength : (before ++ TaskType.ansible.jsonPrefix.toList ++ text.toList).length =
        before.length + TaskType.ansible.jsonPrefix.length + text.length := by
      simp only [List.length_append, String.length_toList]
    rw [printed, ← List.append_assoc, ← List.append_assoc, List.drop_left' hlength]
    exact recapAt_closing h.space
  · rcases Nat.lt_or_ge m before.length with hbefore | hge
    · have hne : before.drop m ≠ [] := by simpa using hbefore
      rw [printed, List.drop_append_of_le_length hbefore.le, hquote, List.cons_append,
        recapAt_append_cons (by decide) (by decide) hne]
      exact hrecap m hbefore.le
    · obtain ⟨k, rfl⟩ := Nat.exists_eq_add_of_le hge
      rw [printed, ← List.drop_drop, List.drop_left]
      rcases Nat.lt_or_ge k TaskType.ansible.jsonPrefix.toList.length with hbegins | hge
      · rw [List.drop_append_of_le_length hbegins.le, List.drop_eq_getElem_cons hbegins, List.cons_append]
        exact recapAt_cons_of_ne (hnoBrace _ (List.getElem_mem hbegins))
      · obtain ⟨j, rfl⟩ := Nat.exists_eq_add_of_le hge
        rw [String.length_toList] at hm
        have hj : j < text.toList.length := by
          rw [String.length_toList]
          omega
        have hne : text.toList.drop j ≠ [] := by simpa using hj
        rw [← List.drop_drop, List.drop_left, List.drop_append_of_le_length hj.le, closing,
          recapAt_append_cons (by decide) (by decide) hne]
        rw [String.length_toList] at hj
        exact h.noEnd j hj.le

variable (text space after) in
theorem recapStart_le (h : ∃ n ≤ before.length, recapAt (before.drop n) = true) :
    ∃ finish ≤ before.length, recapStart (printed .ansible before text.toList space after) = some finish := by
  obtain ⟨n, hn, hrecap⟩ := h
  have hquote : TaskType.ansible.jsonPrefix.toList = '"' :: "task_results\": ".toList := by decide
  have hne : before.drop n ≠ [] := by
    intro hnil
    rw [hnil] at hrecap
    cases hrecap
  have hprinted : recapAt ((printed .ansible before text.toList space after).drop n) = true := by
    rw [printed, List.drop_append_of_le_length hn, hquote, List.cons_append, recapAt_append_cons (by decide) (by decide) hne]
    exact hrecap
  rw [recapStart_eq]
  obtain ⟨finish, hle, hfinish⟩ := searchFirst_le (by simp only [printed, List.length_append]; omega) hprinted
  exact ⟨finish, hle.trans hn, hfinish⟩

/-- Only a script's prefix overlaps itself, by one to three of its hashes. -/
theorem jsonPrefix_overlap :
    ∀ i < type.jsonPrefix.length, 0 < i → type.jsonPrefix.toList.drop i <+: type.jsonPrefix.toList →
      type = .script ∧ 15 ≤ i := by
  cases type <;> decide

theorem indexOf_prefix (h : ¬type.jsonPrefix.toList <:+: before ++ type.jsonPrefix.toList.dropLast) :
    indexOf type.jsonPrefix.toList (printed type before text.toList space after) = some before.length := by
  rw [indexOf_eq, searchFirst_eq_some]
  refine ⟨by simp [printed], ?_, fun m hm => ?_⟩
  · rw [printed, List.drop_left, List.isPrefixOf_iff_prefix]
    exact List.prefix_append _ _
  · rw [Bool.eq_false_iff, Ne, List.isPrefixOf_iff_prefix, printed, prefix_drop_of_lt hm]
    intro hbegins
    exact h (hbegins.isInfix.trans (List.drop_suffix m _).isInfix)

variable (text space after) in
theorem indexOf_early (hnone : ¬type.jsonPrefix.toList <:+: before)
    (h : type.jsonPrefix.toList <:+: before ++ type.jsonPrefix.toList.dropLast) :
    type = .script ∧ ∃ found j, indexOf type.jsonPrefix.toList (printed type before text.toList space after) = some found ∧
      0 < j ∧ j ≤ 3 ∧ (printed type before text.toList space after).drop (found + type.jsonPrefix.length) =
        type.jsonPrefix.toList.drop j ++ (text.toList ++ closing type space after) := by
  obtain ⟨n, -, hn⟩ := infix_iff_drop.mp h
  have hlt : n < before.length := by
    have hle := hn.length_le
    have hpos : 0 < type.jsonPrefix.toList.length := by cases type <;> decide
    simp only [List.length_drop, List.length_append, List.length_dropLast] at hle
    omega
  obtain ⟨m, hm, hfound⟩ := searchFirst_le (p := type.jsonPrefix.toList.isPrefixOf)
    (l := printed type before text.toList space after) (n := n) (by simp only [printed, List.length_append]; omega)
    (List.isPrefixOf_iff_prefix.mpr ((prefix_drop_of_lt hlt).mpr hn))
  have hmlt : m < before.length := by omega
  obtain ⟨-, hbegins, -⟩ := searchFirst_eq_some.mp hfound
  rw [List.isPrefixOf_iff_prefix, printed, prefix_drop_of_lt hmlt] at hbegins
  rcases overlap_of_prefix_drop hmlt hbegins with hinfix | ⟨hlong, -, hoverlap⟩
  · exact absurd hinfix hnone
  · rw [String.length_toList] at hlong
    obtain ⟨rfl, hi⟩ := jsonPrefix_overlap _ (by omega) (by omega) hoverlap
    have hscript : TaskType.script.jsonPrefix.length = 18 := by decide
    rw [hscript] at hlong
    refine ⟨rfl, m, m + 18 - before.length, by rw [indexOf_eq, hfound], by omega, by omega, ?_⟩
    have hplace : m + TaskType.script.jsonPrefix.length = before.length + (m + 18 - before.length) := by
      rw [hscript]
      omega
    rw [hplace, printed, ← List.drop_drop, List.drop_left, List.drop_append_of_le_length]
    rw [String.length_toList, hscript]
    omega

theorem scriptSuffix_overlap :
    ∀ i < scriptSuffix.length, 0 < i → scriptSuffix.toList.drop i <+: scriptSuffix.toList → 13 ≤ i := by
  decide

/-- An object does not end as the end delimiter begins. -/
theorem closes_ne_suffix (hlib : ReadsJson lib) (hresults : lib.loads text = .ok (.dict items)) {l : List Char} {i : Nat}
    (hi : 13 ≤ i) (hlt : i < scriptSuffix.length) (h : text.toList = l ++ scriptSuffix.toList.take i) : False := by
  have hclose := hlib.closes text items hresults
  have hlength : scriptSuffix.length = 16 := by decide
  rw [h, List.reverse_append] at hclose
  obtain rfl | rfl | rfl : i = 13 ∨ i = 14 ∨ i = 15 := by omega
  · have hend : (scriptSuffix.toList.take 13).reverse = ' ' :: 'D' :: "NE NOSJ ###".toList := by decide
    rw [hend] at hclose
    cases hclose
  · have hend : (scriptSuffix.toList.take 14).reverse = '#' :: " DNE NOSJ ###".toList := by decide
    rw [hend] at hclose
    cases hclose
  · have hend : (scriptSuffix.toList.take 15).reverse = '#' :: "# DNE NOSJ ###".toList := by decide
    rw [hend] at hclose
    cases hclose

theorem indexOf_suffix (hlib : ReadsJson lib) (h : Printable lib .script before space text items) :
    indexOf scriptSuffix.toList (text.toList ++ (scriptSuffix.toList ++ after)) = some text.length := by
  have htext : text.toList.length = text.length := String.length_toList
  have hsuffix : scriptSuffix.toList.length = scriptSuffix.length := String.length_toList
  rw [indexOf_eq, searchFirst_eq_some, ← htext]
  refine ⟨by simp, ?_, fun m hm => ?_⟩
  · rw [List.drop_left, List.isPrefixOf_iff_prefix]
    exact List.prefix_append _ _
  · rw [Bool.eq_false_iff, Ne, List.isPrefixOf_iff_prefix, prefix_drop_of_lt hm]
    intro hbegins
    rcases overlap_of_prefix_drop hm hbegins with hinfix | ⟨hlong, htake, hoverlap⟩
    · obtain ⟨n, hn, hat⟩ := infix_iff_drop.mp hinfix
      have hmiss := h.noEnd n (htext ▸ hn)
      rw [TaskType.endsAt, Bool.eq_false_iff, Ne, List.isPrefixOf_iff_prefix] at hmiss
      exact hmiss hat
    · have hi : text.toList.length - m < scriptSuffix.length := by omega
      refine closes_ne_suffix hlib h.results (scriptSuffix_overlap _ hi (by omega) hoverlap) hi ?_ (l := text.toList.take m)
      rw [← htake, List.take_append_drop]

theorem slice_printed (hlib : ReadsJson lib) (h : Printable lib type before space text items)
    (hundisturbed : Undisturbed type before) :
    slice type (printed type before text.toList space after) = some text := by
  have hdrop : (printed type before text.toList space after).drop (before.length + type.jsonPrefix.length) =
      text.toList ++ closing type space after := by
    rw [printed, ← List.drop_drop, List.drop_left, ← String.length_toList, List.drop_left]
  rw [slice, indexOf_prefix hundisturbed.prefixed, Option.bind_some]
  simp only [hdrop]
  cases type with
  | ansible =>
    rw [recapStart_printed h (hundisturbed.recap rfl), Option.map_some, Nat.add_sub_cancel_left, ← String.length_toList,
      List.take_left, String.ofList_toList]
  | script =>
    simp only [closing]
    rw [indexOf_suffix hlib h, Option.map_some, Nat.add_sub_cancel_left, ← String.length_toList, List.take_left,
      String.ofList_toList]

theorem starts_ne_prefix (hlib : ReadsJson lib) {j length : Nat} {rest : List Char} {v : Json} (hpos : 0 < j) (hj : j ≤ 3) :
    lib.loads (String.ofList ((TaskType.script.jsonPrefix.toList.drop j ++ rest).take length)) ≠ .ok v := by
  intro hv
  obtain ⟨c, l, hskip, hc⟩ := hlib.starts _ v hv
  rw [String.toList_ofList] at hskip
  have hhead : c = '#' ∨ c = 'J' := by
    obtain rfl | rfl | rfl : j = 1 ∨ j = 2 ∨ j = 3 := by omega
    · cases length with
      | zero => cases hskip
      | succ length => exact Or.inl (List.cons.inj hskip).1.symm
    · cases length with
      | zero => cases hskip
      | succ length => exact Or.inl (List.cons.inj hskip).1.symm
    · obtain _ | _ | length := length
      · cases hskip
      · cases hskip
      · exact Or.inr (List.cons.inj hskip).1.symm
  rcases hhead with rfl | rfl
  · exact absurd hc (by decide)
  · exact absurd hc (by decide)

theorem slice_disturbed (hlib : ReadsJson lib) (h : Printable lib type before space text items)
    (hdisturbed : ¬Undisturbed type before) {found : String} {v : Json}
    (hslice : slice type (printed type before text.toList space after) = some found) : lib.loads found ≠ .ok v := by
  by_cases hbegins : type.jsonPrefix.toList <:+: before ++ type.jsonPrefix.toList.dropLast
  · obtain ⟨rfl, n, j, hn, hpos, hj, hdrop⟩ := indexOf_early space after text h.noPrefix hbegins
    rw [slice, hn, Option.bind_some] at hslice
    simp only [hdrop] at hslice
    obtain ⟨length, -, rfl⟩ := Option.map_eq_some_iff.mp hslice
    exact starts_ne_prefix hlib hpos hj
  · cases type with
    | script => exact absurd ⟨hbegins, fun hscript => nomatch hscript⟩ hdisturbed
    | ansible =>
      have hrecap : ∃ n ≤ before.length, recapAt (before.drop n) = true := by
        by_contra hnone
        refine hdisturbed ⟨hbegins, fun _ n hn => ?_⟩
        rw [Bool.eq_false_iff]
        exact fun hat => hnone ⟨n, hn, hat⟩
      obtain ⟨finish, hle, hfinish⟩ := recapStart_le space after text hrecap
      rw [slice, indexOf_prefix hbegins, Option.bind_some] at hslice
      simp only [hfinish, Option.map_some, Option.some.injEq] at hslice
      have hzero : finish - (before.length + TaskType.ansible.jsonPrefix.length) = 0 := by omega
      rw [hzero, List.take_zero] at hslice
      rw [← hslice]
      exact hlib.empty v

theorem stores_printed_iff (hlib : ReadsJson lib) (hjob : job ∈ s.jobs) (h : Printable lib type before space text items) :
    Stores lib type (String.ofList (printed type before text.toList space after)) job s .success (.dict (withAlert items)) ↔
      Undisturbed type before ∧ '\x00' ∉ printed type before text.toList space after ∧
        jsonStorable (.dict (withAlert items)) = true := by
  rw [stores_iff hjob, String.toList_ofList]
  constructor
  · rintro ⟨hnul, -, hout, hstorable⟩
    refine ⟨?_, hnul, hstorable⟩
    by_contra hdisturbed
    cases hslice : slice type (printed type before text.toList space after) with
    | none =>
      obtain ⟨line, hline, -⟩ := parsedText_of_none lib hslice
      rw [hline] at hout
      cases hout
    | some found =>
      rw [parsedText_of_slice hslice] at hout
      cases hloads : lib.loads found with
      | error message =>
        rw [parsedJson_error hloads] at hout
        cases hout
      | ok v => exact slice_disturbed hlib h hdisturbed hslice hloads
  · rintro ⟨hundisturbed, hnul, hstorable⟩
    rw [parsedText_of_slice (slice_printed hlib h hundisturbed), parsedJson_dict h.results]
    exact ⟨hnul, successLine_length, rfl, hstorable⟩

theorem bracketLibrary_printable {type : TaskType} {before : List Char} (hnone : ¬type.jsonPrefix.toList <:+: before) :
    Printable bracketLibrary type before [' '] "\x7b\x7d" [] := by
  constructor
  · simp [bracketLibrary]
  · exact hnone
  · cases type <;> decide
  · exact ⟨List.cons_ne_nil _ _, List.forall_mem_singleton.mpr rfl⟩

theorem stores_printed_object :
    Stores bracketLibrary .script (String.ofList (printed .script [] "\x7b\x7d".toList [' '] [])) (sampleJob 1 .running)
        sampleState .success (.dict (withAlert [])) ↔
      Undisturbed .script [] ∧ '\x00' ∉ printed .script [] "\x7b\x7d".toList [' '] [] ∧
        jsonStorable (.dict (withAlert [])) = true :=
  stores_printed_iff bracketLibrary_readsJson (Table.mem_single.mpr rfl) (bracketLibrary_printable (by decide))

/-- With the recap of another play before them, results are not found. -/
theorem results_lost :
    Printable bracketLibrary .ansible "\x7d\nPLAY RECAP *\n\x7b".toList [' '] "\x7b\x7d" [] ∧
      ¬Stores bracketLibrary .ansible
        (String.ofList (printed .ansible "\x7d\nPLAY RECAP *\n\x7b".toList "\x7b\x7d".toList [' '] []))
        (sampleJob 1 .running) sampleState .success (.dict (withAlert [])) := by
  have hjob : sampleJob 1 .running ∈ sampleState.jobs := Table.mem_single.mpr rfl
  have hout : ((parsedText bracketLibrary .ansible
      (printed .ansible "\x7d\nPLAY RECAP *\n\x7b".toList "\x7b\x7d".toList [' '] [])).outcome.map Prod.fst).toOption =
        some .failure := by decide +kernel
  refine ⟨bracketLibrary_printable (by decide), ?_⟩
  rw [stores_iff hjob, String.toList_ofList]
  rintro ⟨-, -, hok, -⟩
  rw [hok] at hout
  cases hout

end Advisor.Tasks
