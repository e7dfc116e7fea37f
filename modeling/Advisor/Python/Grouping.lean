import Mathlib.Data.List.Induction
import Mathlib.Data.List.Nodup

/-! A dict of lists that a loop fills, in the order its keys are first seen. -/

namespace Python

variable {κ α : Type*} [DecidableEq κ]

/-- `grouped.setdefault(k, []).append(a)`. -/
def appendTo (k : κ) (a : α) : List (κ × List α) → List (κ × List α)
  | [] => [(k, [a])]
  | group :: rest => if group.1 = k then (k, group.2 ++ [a]) :: rest else group :: appendTo k a rest

def groupBy (key : α → κ) (l : List α) : List (κ × List α) :=
  l.foldl (fun grouped a => appendTo (key a) a grouped) []

theorem groupBy_concat (key : α → κ) (l : List α) (a : α) :
    groupBy key (l ++ [a]) = appendTo (key a) a (groupBy key l) := by
  simp [groupBy, List.foldl_append]

theorem keys_appendTo (k : κ) (a : α) (grouped : List (κ × List α)) :
    (appendTo k a grouped).map Prod.fst =
      if k ∈ grouped.map Prod.fst then grouped.map Prod.fst else grouped.map Prod.fst ++ [k] := by
  induction grouped with
  | nil => rfl
  | cons group rest ih =>
    by_cases hk : group.1 = k
    · simp [appendTo, hk]
    · have hne : k ≠ group.1 := fun h => hk h.symm
      by_cases hm : k ∈ rest.map Prod.fst
      · simp only [appendTo, hk, if_false, List.map_cons, ih, hm, if_true, List.mem_cons_of_mem]
      · simp only [appendTo, hk, if_false, List.map_cons, ih, hm, List.mem_cons, hne, or_self,
          List.cons_append]

theorem nodup_groupBy (key : α → κ) (l : List α) : ((groupBy key l).map Prod.fst).Nodup := by
  induction l using List.reverseRecOn with
  | nil => simp [groupBy]
  | append_singleton l a ih =>
    rw [groupBy_concat, keys_appendTo]
    split
    · exact ih
    · rename_i hn
      exact ih.append (List.nodup_singleton _) (by simpa using hn)

theorem find?_groupBy (key : α → κ) (l : List α) (k : κ) :
    ((groupBy key l).find? fun group => group.1 = k) =
      if (l.filter fun a => key a = k).isEmpty then none else some (k, l.filter fun a => key a = k) := by
  have happend (k' : κ) (a : α) (grouped : List (κ × List α)) :
      ((appendTo k' a grouped).find? fun group => group.1 = k) =
        if k' = k then some (k, ((grouped.find? fun group => group.1 = k).map Prod.snd).getD [] ++ [a])
        else grouped.find? fun group => group.1 = k := by
    induction grouped with
    | nil => by_cases h : k' = k <;> simp [appendTo, h]
    | cons group rest ih =>
      by_cases hg : group.1 = k'
      · by_cases h : k' = k
        · simp [appendTo, hg, h]
        · have hgk : group.1 ≠ k := fun hc => h (hg.symm.trans hc)
          simp [appendTo, hg, h]
      · by_cases hgk : group.1 = k
        · have hne : k' ≠ k := fun hc => hg (hgk.trans hc.symm)
          rw [appendTo, if_neg hg, if_neg hne]
          simp [hgk]
        · simpa [appendTo, hg, hgk] using ih
  induction l using List.reverseRecOn with
  | nil => simp [groupBy]
  | append_singleton l a ih =>
    rw [groupBy_concat, happend, ih, List.filter_append]
    by_cases h : key a = k
    · by_cases hempty : (l.filter fun a => key a = k).isEmpty = true
      · simp [h, List.isEmpty_iff.mp hempty]
      · simp [h, hempty]
    · simp [h]

theorem mem_groupBy (key : α → κ) {l : List α} {a : α} (h : a ∈ l) :
    (key a, l.filter fun b => key b = key a) ∈ groupBy key l := by
  have hne : (l.filter fun b => key b = key a).isEmpty = false := by
    rw [List.isEmpty_eq_false_iff]
    exact List.ne_nil_of_mem (List.mem_filter.mpr ⟨h, by simp⟩)
  have hfind := find?_groupBy key l (key a)
  rw [hne] at hfind
  exact List.mem_of_find?_eq_some hfind

theorem filter_eq_toList_find? {β : Type*} {key : β → κ} {l : List β} (h : (l.map key).Nodup) (k : κ) :
    (l.filter fun b => key b = k) = (l.find? fun b => key b = k).toList := by
  induction l with
  | nil => rfl
  | cons b l ih =>
    obtain ⟨hnew, hnodup⟩ := List.nodup_cons.mp h
    by_cases hk : key b = k
    · have hnil : (l.filter fun c => key c = k) = [] := by
        rw [List.filter_eq_nil_iff]
        intro c hc hck
        apply hnew
        rw [hk, ← (by simpa using hck : key c = k)]
        exact List.mem_map_of_mem hc
      rw [List.filter_cons, if_pos (by simp [hk]), hnil, List.find?_cons_of_pos (by simp [hk])]
      rfl
    · rw [List.filter_cons, if_neg (by simp [hk]), ih hnodup, List.find?_cons_of_neg (by simp [hk])]

theorem find?_of_mem_groupBy {key : α → κ} {l : List α} {group : κ × List α} (h : group ∈ groupBy key l) :
    ((groupBy key l).find? fun other => other.1 = group.1) = some group := by
  have hmem : group ∈ (groupBy key l).filter fun other => other.1 = group.1 := List.mem_filter.mpr ⟨h, by simp⟩
  rw [filter_eq_toList_find? (nodup_groupBy key l)] at hmem
  simpa [eq_comm] using hmem

theorem group_eq {key : α → κ} {l : List α} {group : κ × List α} (h : group ∈ groupBy key l) :
    group.2 = l.filter fun a => key a = group.1 := by
  have hfind := find?_groupBy key l group.1
  rw [find?_of_mem_groupBy h] at hfind
  split at hfind
  · cases hfind
  · exact congrArg Prod.snd (Option.some.inj hfind)

theorem group_ne_nil {key : α → κ} {l : List α} {group : κ × List α} (h : group ∈ groupBy key l) : group.2 ≠ [] := by
  have hfind := find?_groupBy key l group.1
  rw [find?_of_mem_groupBy h, ← group_eq h] at hfind
  intro hnil
  rw [if_pos (by rw [hnil]; rfl)] at hfind
  cases hfind

theorem filter_groupBy {key : α → κ} {l : List α} {p : κ → Bool}
    (h : ∀ a ∈ l, ∀ b ∈ l, p (key a) → p (key b) → key a = key b) :
    ((groupBy key l).filter fun group => p group.1).map Prod.snd =
      if (l.filter fun a => p (key a)).isEmpty then [] else [l.filter fun a => p (key a)] := by
  have hsome : ∀ group ∈ groupBy key l, ∃ a ∈ l, key a = group.1 := by
    intro group hgroup
    obtain ⟨a, ha⟩ := List.exists_mem_of_ne_nil _ (group_ne_nil hgroup)
    rw [group_eq hgroup, List.mem_filter] at ha
    exact ⟨a, ha.1, by simpa using ha.2⟩
  cases hl : l.filter fun a => p (key a) with
  | nil =>
    have hnil : (groupBy key l).filter (fun group => p group.1) = [] := by
      rw [List.filter_eq_nil_iff]
      intro group hgroup hp
      obtain ⟨a, ha, hkey⟩ := hsome group hgroup
      exact List.filter_eq_nil_iff.mp hl a ha (by rw [hkey]; exact hp)
    rw [hnil]
    rfl
  | cons first rest =>
    have hfirst : first ∈ l.filter fun a => p (key a) := by simp [hl]
    obtain ⟨hmem, hp⟩ := List.mem_filter.mp hfirst
    have hgroups : (groupBy key l).filter (fun group => p group.1) = (groupBy key l).filter fun group => group.1 = key first := by
      refine List.filter_congr fun group hgroup => ?_
      obtain ⟨a, ha, hkey⟩ := hsome group hgroup
      by_cases hk : group.1 = key first
      · rw [hk, hp, decide_eq_true rfl]
      · rw [decide_eq_false hk, Bool.eq_false_iff]
        exact fun hg => hk (hkey.symm.trans (h a ha first hmem (by rw [hkey]; exact hg) hp))
    have hentries : (l.filter fun a => key a = key first) = first :: rest := by
      rw [← hl]
      refine List.filter_congr fun a ha => ?_
      by_cases hk : key a = key first
      · rw [hk, hp, decide_eq_true rfl]
      · rw [decide_eq_false hk, eq_comm, Bool.eq_false_iff]
        exact fun ha' => hk (h a ha first hmem ha' hp)
    rw [hgroups, filter_eq_toList_find? (nodup_groupBy key l), find?_groupBy, hentries]
    rfl

/-- Going through the groups keeps the order of the entries of each key. -/
theorem filter_flatMap_groupBy (key : α → κ) (l : List α) (k : κ) :
    ((groupBy key l).flatMap Prod.snd).filter (fun a => key a = k) = l.filter fun a => key a = k := by
  have hselect : ∀ grouped : List (κ × List α), (grouped.map Prod.fst).Nodup →
      (∀ group ∈ grouped, ∀ a ∈ group.2, key a = group.1) →
      (grouped.flatMap Prod.snd).filter (fun a => key a = k) =
        ((grouped.find? fun group => group.1 = k).map Prod.snd).getD [] := by
    intro grouped
    induction grouped with
    | nil => simp
    | cons group rest ih =>
      intro hnodup hkeys
      obtain ⟨hnew, hnodup⟩ := List.nodup_cons.mp hnodup
      have hgroup := hkeys group (by simp)
      have hrest := ih hnodup fun g hg => hkeys g (by simp [hg])
      rw [List.flatMap_cons, List.filter_append, hrest]
      by_cases hk : group.1 = k
      · have hall : group.2.filter (fun a => key a = k) = group.2 :=
          List.filter_eq_self.mpr fun a ha => by simp [hgroup a ha, hk]
        have hnone : (rest.find? fun g => g.1 = k) = none :=
          List.find?_eq_none.mpr fun g hg hgk => hnew (by
            rw [hk, ← (by simpa using hgk : g.1 = k)]
            exact List.mem_map_of_mem hg)
        simp [hall, hnone, hk]
      · have hempty : group.2.filter (fun a => key a = k) = [] :=
          List.filter_eq_nil_iff.mpr fun a ha => by simp [hgroup a ha, hk]
        simp [hempty, hk]
  rw [hselect _ (nodup_groupBy key l) fun group hg a ha => by
    rw [group_eq hg] at ha
    simpa using (List.mem_filter.mp ha).2, find?_groupBy]
  by_cases hempty : (l.filter fun a => key a = k).isEmpty = true
  · simp [List.isEmpty_iff.mp hempty]
  · simp [hempty]

section Fill

variable {β : Type*}

/-- `data.setdefault(key(a), empty)`, and what `a` adds to it. -/
def fill (key : α → κ) (empty : β) (add : β → α → β) : List (κ × β) → α → List (κ × β)
  | [], a => [(key a, add empty a)]
  | entry :: rest, a =>
    if entry.1 = key a then (entry.1, add entry.2 a) :: rest else entry :: fill key empty add rest a

theorem foldl_fill (key : α → κ) (empty : β) (add : β → α → β) (l : List α) :
    l.foldl (fill key empty add) [] = (groupBy key l).map fun group => (group.1, group.2.foldl add empty) := by
  have happend (a : α) (grouped : List (κ × List α)) :
      fill key empty add (grouped.map fun group => (group.1, group.2.foldl add empty)) a =
        (appendTo (key a) a grouped).map fun group => (group.1, group.2.foldl add empty) := by
    induction grouped with
    | nil => rfl
    | cons group rest ih =>
      by_cases hk : group.1 = key a
      · simp [fill, appendTo, hk, List.foldl_append]
      · simp [fill, appendTo, hk, ih]
  induction l using List.reverseRecOn with
  | nil => rfl
  | append_singleton l a ih => rw [List.foldl_concat, ih, happend, groupBy_concat]

end Fill

end Python
