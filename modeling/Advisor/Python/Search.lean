import Mathlib.Data.List.Infix

/-! Searching a text from its start: the first place from which what follows has a property. -/

namespace Python

variable {α : Type}

def searchFirst (p : List α → Bool) : List α → Option Nat
  | [] => if p [] then some 0 else none
  | a :: as => if p (a :: as) then some 0 else (searchFirst p as).map (· + 1)

variable {p : List α → Bool} {l : List α} {n : Nat}

theorem searchFirst_eq_some :
    searchFirst p l = some n ↔ n ≤ l.length ∧ p (l.drop n) = true ∧ ∀ m < n, p (l.drop m) = false := by
  induction l generalizing n with
  | nil =>
    rw [searchFirst]
    constructor
    · intro h
      split at h
      · obtain rfl := Option.some.inj h
        exact ⟨Nat.le_refl _, by simpa, fun m hm => absurd hm (Nat.not_lt_zero m)⟩
      · cases h
    · rintro ⟨hle, hp, -⟩
      obtain rfl : n = 0 := by simpa using hle
      rw [if_pos (by simpa using hp)]
  | cons a as ih =>
    rw [searchFirst]
    by_cases hhere : p (a :: as) = true
    · rw [if_pos hhere, Option.some.injEq]
      constructor
      · rintro rfl
        exact ⟨Nat.zero_le _, hhere, fun m hm => absurd hm (Nat.not_lt_zero m)⟩
      · rintro ⟨-, -, hbefore⟩
        by_contra hn
        have hmiss := hbefore 0 (by omega)
        rw [List.drop_zero, hhere] at hmiss
        cases hmiss
    · rw [if_neg hhere, Option.map_eq_some_iff]
      constructor
      · rintro ⟨m, hm, rfl⟩
        obtain ⟨hle, hp, hbefore⟩ := ih.mp hm
        refine ⟨by simpa using hle, by simpa using hp, fun k hk => ?_⟩
        cases k with
        | zero => simpa using hhere
        | succ k => simpa using hbefore k (by omega)
      · rintro ⟨hle, hp, hbefore⟩
        cases n with
        | zero => exact absurd hp hhere
        | succ n =>
          refine ⟨n, ih.mpr ⟨by simpa using hle, by simpa using hp, fun m hm => ?_⟩, rfl⟩
          simpa using hbefore (m + 1) (by omega)

theorem searchFirst_eq_none : searchFirst p l = none ↔ ∀ m ≤ l.length, p (l.drop m) = false := by
  induction l with
  | nil =>
    rw [searchFirst]
    simp
  | cons a as ih =>
    rw [searchFirst]
    by_cases hhere : p (a :: as) = true
    · rw [if_pos hhere]
      refine iff_of_false (by simp) fun h => ?_
      have hmiss := h 0 (Nat.zero_le _)
      rw [List.drop_zero, hhere] at hmiss
      cases hmiss
    · rw [if_neg hhere, Option.map_eq_none_iff, ih]
      constructor
      · intro h m hm
        cases m with
        | zero => simpa using hhere
        | succ m => simpa using h m (by simpa using hm)
      · intro h m hm
        simpa using h (m + 1) (by simpa using hm)

theorem searchFirst_le (hn : n ≤ l.length) (h : p (l.drop n) = true) : ∃ m ≤ n, searchFirst p l = some m := by
  cases hfound : searchFirst p l with
  | none =>
    have hmiss := searchFirst_eq_none.mp hfound n hn
    rw [h] at hmiss
    cases hmiss
  | some m =>
    obtain ⟨-, -, hbefore⟩ := searchFirst_eq_some.mp hfound
    refine ⟨m, ?_, rfl⟩
    by_contra hlt
    have hmiss := hbefore n (by omega)
    rw [h] at hmiss
    cases hmiss

theorem infix_iff_drop {part : List α} : part <:+: l ↔ ∃ n ≤ l.length, part <+: l.drop n := by
  constructor
  · rintro ⟨before, after, rfl⟩
    refine ⟨before.length, by simp, ?_⟩
    rw [List.append_assoc, List.drop_left]
    exact List.prefix_append _ _
  · rintro ⟨n, -, after, h⟩
    refine ⟨l.take n, after, ?_⟩
    rw [List.append_assoc, h, List.take_append_drop]

theorem prefix_drop_of_lt {part before after : List α} (hn : n < before.length) :
    part <+: (before ++ (part ++ after)).drop n ↔ part <+: (before ++ part.dropLast).drop n := by
  rw [List.drop_append_of_le_length hn.le, List.drop_append_of_le_length hn.le]
  have hlong : part.length ≤ (before.drop n ++ part.dropLast).length := by
    simp only [List.length_append, List.length_drop, List.length_dropLast]
    omega
  have hsplit : before.drop n ++ (part ++ after) = (before.drop n ++ part.dropLast) ++ (part.drop (part.length - 1) ++ after) := by
    conv_lhs => rw [← List.take_append_drop (part.length - 1) part, ← List.dropLast_eq_take]
    simp only [List.append_assoc]
  rw [hsplit]
  constructor
  · intro h
    exact List.prefix_of_prefix_length_le h (List.prefix_append _ _) hlong
  · intro h
    exact h.trans (List.prefix_append _ _)

/-- A part that begins before its place, and not within what precedes it, overlaps itself. -/
theorem overlap_of_prefix_drop {part before : List α} (hn : n < before.length)
    (h : part <+: (before ++ part.dropLast).drop n) :
    part <:+: before ∨ before.length < n + part.length ∧ before.drop n = part.take (before.length - n) ∧
      part.drop (before.length - n) <+: part := by
  rw [List.drop_append_of_le_length hn.le] at h
  rcases Nat.lt_or_ge before.length (n + part.length) with hlong | hshort
  · right
    have htake : before.drop n = part.take (before.length - n) := by
      have hbegins : before.drop n <+: part :=
        List.prefix_of_prefix_length_le (List.prefix_append _ _) h (by rw [List.length_drop]; omega)
      rw [List.prefix_iff_eq_take.mp hbegins, List.length_drop]
    refine ⟨hlong, htake, ?_⟩
    rw [htake] at h
    nth_rewrite 1 [← List.take_append_drop (before.length - n) part] at h
    exact ((List.prefix_append_right_inj _).mp h).trans (List.dropLast_prefix part)
  · left
    have hbegins : part <+: before.drop n :=
      List.prefix_of_prefix_length_le h (List.prefix_append _ _) (by rw [List.length_drop]; omega)
    exact hbegins.isInfix.trans (List.drop_suffix n before).isInfix

variable [DecidableEq α]

/-- A part that goes without an element ends before it. -/
theorem isPrefixOf_append_cons {part before after : List α} {a : α} (h : a ∉ part) :
    part.isPrefixOf (before ++ a :: after) = part.isPrefixOf before := by
  induction part generalizing before with
  | nil => rfl
  | cons b part ih =>
    have hb : b ≠ a := fun he => h (by simp [he])
    cases before with
    | nil => simp [List.isPrefixOf_cons_cons, hb]
    | cons c before =>
      rw [List.cons_append, List.isPrefixOf_cons_cons, List.isPrefixOf_cons_cons, ih fun hm => h (by simp [hm])]

theorem not_mem_of_mem_splitOn {a : α} {text part : List α} (h : part ∈ text.splitOn a) :
    a ∉ part := by
  induction text generalizing part with
  | nil =>
    rw [List.splitOn_nil, List.mem_singleton] at h
    rw [h]
    exact List.not_mem_nil
  | cons x text ih =>
    rw [List.splitOn_cons_eq_if_modifyHead] at h
    obtain ⟨first, rest, hsplit⟩ := List.exists_cons_of_ne_nil (List.splitOn_ne_nil a text)
    by_cases hx : x = a
    · rw [if_pos (by simpa using hx)] at h
      rcases List.mem_cons.mp h with rfl | h
      · exact List.not_mem_nil
      · exact ih h
    · rw [if_neg (by simpa using hx), hsplit, List.modifyHead_cons] at h
      rcases List.mem_cons.mp h with rfl | h
      · have hfirst := @ih first (by simp [hsplit])
        simp [Ne.symm hx, hfirst]
      · exact ih (by simp [hsplit, h])

end Python
