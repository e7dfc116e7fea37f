import Mathlib.Data.List.Induction
import Mathlib.Data.List.Nodup
import Mathlib.Order.Lattice

/-! The newest entry of a list under a rank, the first one where several share it, and
the list that keeps the newest entry of each key. -/

namespace Relational

variable {α κ τ : Type*} [LinearOrder τ] [DecidableEq κ]

def newer (rank : α → τ) (kept : Option α) (a : α) : Option α :=
  match kept with
  | none => some a
  | some k => if rank k < rank a then some a else some k

def newest (rank : α → τ) (l : List α) : Option α := l.foldl (newer rank) none

def later (rank : α → τ) (stored arrived : Option α) : Option α :=
  match arrived with
  | none => stored
  | some a => newer rank stored a

@[simp] theorem newest_nil {rank : α → τ} : newest rank [] = none := rfl

@[simp] theorem newest_singleton {rank : α → τ} (a : α) : newest rank [a] = some a := rfl

theorem newest_concat {rank : α → τ} (l : List α) (a : α) :
    newest rank (l ++ [a]) = newer rank (newest rank l) a := by
  simp [newest, List.foldl_append]

theorem newer_isSome (rank : α → τ) (kept : Option α) (a : α) : (newer rank kept a).isSome := by
  cases kept with
  | none => rfl
  | some k =>
    simp only [newer]
    split <;> rfl

theorem newest_eq_none {rank : α → τ} {l : List α} : newest rank l = none ↔ l = [] := by
  induction l using List.reverseRecOn with
  | nil => simp
  | append_singleton l a ih =>
    have h := newer_isSome rank (newest rank l) a
    rw [newest_concat]
    constructor
    · intro hn
      rw [hn] at h
      simp at h
    · intro hl
      simp at hl

theorem newest_mem {rank : α → τ} {l : List α} {a : α} (h : newest rank l = some a) : a ∈ l := by
  induction l using List.reverseRecOn generalizing a with
  | nil => simp at h
  | append_singleton l b ih =>
    rw [newest_concat] at h
    cases hn : newest rank l with
    | none =>
      simp only [hn, newer, Option.some.injEq] at h
      simp [h]
    | some k =>
      simp only [hn, newer] at h
      split at h
      · simp only [Option.some.injEq] at h
        simp [h]
      · simp only [Option.some.injEq] at h
        exact List.mem_append_left _ (ih (h ▸ hn))

theorem le_newest {rank : α → τ} {l : List α} {a b : α} (h : newest rank l = some a) (hb : b ∈ l) :
    rank b ≤ rank a := by
  induction l using List.reverseRecOn generalizing a with
  | nil => simp at h
  | append_singleton l c ih =>
    rw [newest_concat] at h
    rcases List.mem_append.mp hb with hm | hm
    · cases hn : newest rank l with
      | none => simp [newest_eq_none.mp hn] at hm
      | some k =>
        have hk := ih hn hm
        simp only [hn, newer] at h
        split at h
        · rename_i hlt
          simp only [Option.some.injEq] at h
          exact h ▸ hk.trans hlt.le
        · simp only [Option.some.injEq] at h
          exact h ▸ hk
    · rw [List.mem_singleton.mp hm]
      cases hn : newest rank l with
      | none =>
        simp only [hn, newer, Option.some.injEq] at h
        rw [h]
      | some k =>
        simp only [hn, newer] at h
        split at h
        · simp only [Option.some.injEq] at h
          rw [h]
        · rename_i hlt
          simp only [Option.some.injEq] at h
          exact h ▸ not_lt.mp hlt

/-- The newest entry stays the newest among any entries that include it. -/
theorem newest_filter {rank : α → τ} {q : α → Bool} {l : List α} {a : α} (h : newest rank l = some a)
    (ha : q a = true) : newest rank (l.filter q) = some a := by
  induction l using List.reverseRecOn generalizing a with
  | nil => simp at h
  | append_singleton l b ih =>
    rw [newest_concat] at h
    rw [List.filter_append]
    cases hn : newest rank l with
    | none =>
      simp only [hn, newer, Option.some.injEq] at h
      simp [newest_eq_none.mp hn, h, ha]
    | some k =>
      simp only [hn, newer] at h
      split at h
      · rename_i hlt
        simp only [Option.some.injEq] at h
        subst h
        rw [List.filter_cons_of_pos ha, List.filter_nil, newest_concat]
        cases hf : newest rank (l.filter q) with
        | none => rfl
        | some x =>
          have hx := le_newest hn (List.mem_of_mem_filter (newest_mem hf))
          simp [newer, hx.trans_lt hlt]
      · rename_i hle
        simp only [Option.some.injEq] at h
        subst h
        by_cases hb : q b = true
        · rw [List.filter_cons_of_pos hb, List.filter_nil, newest_concat, ih hn ha]
          simp [newer, hle]
        · simpa [hb] using ih hn ha

/-- `kept[key a] = a`, unless an entry at least as new is already there. -/
def keepNewest (key : α → κ) (rank : α → τ) (a : α) : List α → List α
  | [] => [a]
  | k :: rest =>
    if key k = key a then (if rank k < rank a then a :: rest else k :: rest)
    else k :: keepNewest key rank a rest

def newestPerKey (key : α → κ) (rank : α → τ) (l : List α) : List α :=
  l.foldl (fun kept a => keepNewest key rank a kept) []

theorem newestPerKey_concat {key : α → κ} {rank : α → τ} (l : List α) (a : α) :
    newestPerKey key rank (l ++ [a]) = keepNewest key rank a (newestPerKey key rank l) := by
  simp [newestPerKey, List.foldl_append]

theorem find?_keepNewest {key : α → κ} {rank : α → τ} (a : α) (l : List α) (k : κ) :
    (keepNewest key rank a l).find? (fun x => key x = k) =
      if key a = k then newer rank (l.find? fun x => key x = k) a
      else l.find? fun x => key x = k := by
  induction l with
  | nil => by_cases h : key a = k <;> simp [keepNewest, newer, h]
  | cons x rest ih =>
    by_cases hx : key x = key a
    · by_cases hk : key a = k
      · by_cases hr : rank x < rank a <;> simp [keepNewest, newer, hx, hk, hr]
      · by_cases hr : rank x < rank a <;> simp [keepNewest, hx, hk, hr]
    · by_cases hxk : key x = k
      · have hk : key a ≠ k := fun h => hx (hxk.trans h.symm)
        rw [keepNewest, if_neg hx, if_neg hk]
        simp [hxk]
      · simpa [keepNewest, hx, hxk] using ih

theorem map_keepNewest {key : α → κ} {rank : α → τ} (a : α) (l : List α) :
    (keepNewest key rank a l).map key =
      if key a ∈ l.map key then l.map key else l.map key ++ [key a] := by
  induction l with
  | nil => rfl
  | cons x rest ih =>
    by_cases hx : key x = key a
    · by_cases hr : rank x < rank a <;> simp [keepNewest, hx, hr]
    · have hne : key a ≠ key x := fun h => hx h.symm
      by_cases hm : key a ∈ rest.map key
      · simp only [keepNewest, hx, if_false, List.map_cons, ih, hm, if_true,
          List.mem_cons_of_mem]
      · simp only [keepNewest, hx, if_false, List.map_cons, ih, hm, List.mem_cons, hne, or_self,
          List.cons_append]

theorem nodup_newestPerKey {key : α → κ} {rank : α → τ} (l : List α) :
    ((newestPerKey key rank l).map key).Nodup := by
  induction l using List.reverseRecOn with
  | nil => simp [newestPerKey]
  | append_singleton l a ih =>
    rw [newestPerKey_concat, map_keepNewest]
    split
    · exact ih
    · rename_i hn
      exact ih.append (List.nodup_singleton _) (by simpa using hn)

theorem find?_newestPerKey {key : α → κ} {rank : α → τ} (l : List α) (k : κ) :
    (newestPerKey key rank l).find? (fun x => key x = k) =
      newest rank (l.filter fun x => key x = k) := by
  induction l using List.reverseRecOn with
  | nil => rfl
  | append_singleton l a ih =>
    rw [newestPerKey_concat, find?_keepNewest, ih, List.filter_append]
    by_cases hk : key a = k
    · simp [hk, newest_concat]
    · simp [hk]

theorem mem_newestPerKey {key : α → κ} {rank : α → τ} {l : List α} {a : α} :
    a ∈ newestPerKey key rank l ↔ newest rank (l.filter fun x => key x = key a) = some a := by
  rw [← find?_newestPerKey]
  constructor
  · intro hm
    cases hf : (newestPerKey key rank l).find? fun x => key x = key a with
    | none =>
      have hn := List.find?_eq_none.mp hf a hm
      simp at hn
    | some b =>
      have hb := List.mem_of_find?_eq_some hf
      have hk : key b = key a := by simpa using List.find?_some hf
      rw [List.inj_on_of_nodup_map (nodup_newestPerKey l) hb hm hk]
  · exact List.mem_of_find?_eq_some

theorem newestPerKey_subset {key : α → κ} {rank : α → τ} {l : List α} {a : α}
    (h : a ∈ newestPerKey key rank l) : a ∈ l :=
  List.mem_of_mem_filter (newest_mem (mem_newestPerKey.mp h))

theorem newestPerKey_of_oneKey {key : α → κ} {rank : α → τ} {l : List α}
    (h : ∀ a ∈ l, ∀ b ∈ l, key a = key b) : newestPerKey key rank l = (newest rank l).toList := by
  induction l using List.reverseRecOn with
  | nil => rfl
  | append_singleton l a ih =>
    rw [newestPerKey_concat, newest_concat, ih fun x hx y hy => h x (by simp [hx]) y (by simp [hy])]
    cases hn : newest rank l with
    | none => rfl
    | some b =>
      have hk := h b (List.mem_append_left _ (newest_mem hn)) a (by simp)
      by_cases hr : rank b < rank a <;> simp [keepNewest, newer, hk, hr]

theorem filter_keepNewest {key : α → κ} {rank : α → τ} {p : α → Bool}
    (hp : ∀ a b, key a = key b → p a = p b) (a : α) (l : List α) :
    (keepNewest key rank a l).filter p =
      if p a then keepNewest key rank a (l.filter p) else l.filter p := by
  induction l with
  | nil => by_cases ha : p a = true <;> simp [keepNewest, ha]
  | cons x rest ih =>
    by_cases hx : key x = key a
    · have hpx := hp x a hx
      by_cases hr : rank x < rank a <;> by_cases ha : p a = true <;>
        simp [keepNewest, hx, hr, ha, hpx]
    · by_cases hpx : p x = true <;> by_cases ha : p a = true <;>
        simp [keepNewest, hx, hpx, ha, ih]

theorem filter_newestPerKey {key : α → κ} {rank : α → τ} {p : α → Bool}
    (hp : ∀ a b, key a = key b → p a = p b) (l : List α) :
    (newestPerKey key rank l).filter p = newestPerKey key rank (l.filter p) := by
  induction l using List.reverseRecOn with
  | nil => rfl
  | append_singleton l a ih =>
    rw [newestPerKey_concat, filter_keepNewest hp, ih, List.filter_append]
    by_cases ha : p a = true
    · simp [ha, newestPerKey_concat]
    · simp [ha]

end Relational
