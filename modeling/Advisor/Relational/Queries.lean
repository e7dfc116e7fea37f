import Mathlib.Algebra.BigOperators.Group.List.Basic
import Mathlib.Algebra.GroupWithZero.Nat
import Mathlib.Data.Finset.Card
import Mathlib.Data.List.Flatten
import Mathlib.Data.List.Perm.Basic
import Mathlib.Order.Basic

/-! What queries make of rows: counts of the values of a column, also for each value of a key, and the windows of an
order. Rows that the order leaves undecided come either way round, and not the same way each time; where it decides,
the windows fit together. -/

namespace Relational

section Counts

variable {ρ κ γ : Type} [DecidableEq κ] [DecidableEq γ] {rows : List ρ} {p q : ρ → Bool} {field : ρ → κ}

def distinct (rows : List ρ) (p : ρ → Bool) (field : ρ → κ) : Finset κ := ((rows.filter p).map field).toFinset

def countDistinct (rows : List ρ) (p : ρ → Bool) (field : ρ → κ) : Nat := (distinct rows p field).card

theorem mem_distinct {value : κ} : value ∈ distinct rows p field ↔ ∃ row ∈ rows, p row = true ∧ field row = value := by
  simp [distinct, and_assoc]

theorem countDistinct_le (h : ∀ row ∈ rows, p row = true → q row = true) :
    countDistinct rows p field ≤ countDistinct rows q field := by
  refine Finset.card_le_card fun value hvalue => ?_
  obtain ⟨row, hrow, hp, hfield⟩ := mem_distinct.mp hvalue
  exact mem_distinct.mpr ⟨row, hrow, h row hrow hp, hfield⟩

section Buckets

variable {keyOf : ρ → γ} {keys : List γ}

theorem distinct_cons (key : γ) (keys : List γ) :
    distinct rows (fun row => (key :: keys).contains (keyOf row)) field =
      distinct rows (fun row => keyOf row = key) field ∪ distinct rows (fun row => keys.contains (keyOf row)) field := by
  ext value
  rw [Finset.mem_union, mem_distinct, mem_distinct, mem_distinct]
  constructor
  · rintro ⟨row, hrow, hkey, hfield⟩
    rw [List.contains_iff_mem, List.mem_cons] at hkey
    rcases hkey with heq | hin
    · exact Or.inl ⟨row, hrow, by simpa using heq, hfield⟩
    · exact Or.inr ⟨row, hrow, by simpa using hin, hfield⟩
  · rintro (⟨row, hrow, hkey, hfield⟩ | ⟨row, hrow, hkey, hfield⟩)
    · exact ⟨row, hrow, by simp_all, hfield⟩
    · exact ⟨row, hrow, by simp_all, hfield⟩

theorem countDistinct_contains_le :
    countDistinct rows (fun row => keys.contains (keyOf row)) field ≤
      (keys.map fun key => countDistinct rows (fun row => keyOf row = key) field).sum := by
  induction keys with
  | nil => simp [countDistinct, distinct]
  | cons key keys ih =>
    rw [List.map_cons, List.sum_cons, countDistinct, distinct_cons]
    exact (Finset.card_union_le _ _).trans (Nat.add_le_add_left ih _)

/-- Where the value of the column determines the key, no value is in two buckets. -/
theorem countDistinct_contains_eq (hkeys : keys.Nodup)
    (h : ∀ a ∈ rows, ∀ b ∈ rows, field a = field b → keyOf a = keyOf b) :
    countDistinct rows (fun row => keys.contains (keyOf row)) field =
      (keys.map fun key => countDistinct rows (fun row => keyOf row = key) field).sum := by
  induction keys with
  | nil => simp [countDistinct, distinct]
  | cons key keys ih =>
    obtain ⟨hkey, hrest⟩ := List.nodup_cons.mp hkeys
    have hdisjoint : Disjoint (distinct rows (fun row => keyOf row = key) field)
        (distinct rows (fun row => keys.contains (keyOf row)) field) := by
      rw [Finset.disjoint_left]
      intro value hleft hright
      obtain ⟨a, ha, hakey, rfl⟩ := mem_distinct.mp hleft
      obtain ⟨b, hb, hbkey, hfield⟩ := mem_distinct.mp hright
      have hsame := h a ha b hb hfield.symm
      simp_all
    rw [List.map_cons, List.sum_cons, ← ih hrest, countDistinct, distinct_cons, Finset.card_union_of_disjoint hdisjoint]
    rfl

theorem countDistinct_all (hall : ∀ row ∈ rows, keyOf row ∈ keys) :
    countDistinct rows (fun row => keys.contains (keyOf row)) field = countDistinct rows (fun _ => true) field := by
  refine le_antisymm (countDistinct_le fun _ _ _ => rfl) (countDistinct_le fun row hrow _ => ?_)
  exact List.contains_iff_mem.mpr (hall row hrow)

theorem countDistinct_le_sum (hall : ∀ row ∈ rows, keyOf row ∈ keys) :
    countDistinct rows (fun _ => true) field ≤
      (keys.map fun key => countDistinct rows (fun row => keyOf row = key) field).sum := by
  rw [← countDistinct_all hall]
  exact countDistinct_contains_le

/-- The buckets are a partition. -/
theorem countDistinct_eq_sum (hkeys : keys.Nodup) (hall : ∀ row ∈ rows, keyOf row ∈ keys)
    (h : ∀ a ∈ rows, ∀ b ∈ rows, field a = field b → keyOf a = keyOf b) :
    countDistinct rows (fun _ => true) field =
      (keys.map fun key => countDistinct rows (fun row => keyOf row = key) field).sum := by
  rw [← countDistinct_all hall]
  exact countDistinct_contains_eq hkeys h

end Buckets

end Counts

section Windows

variable {α : Type*}

/-- One of the answers to a query for the rows in this order. -/
structure Answers (cmp : α → α → Ordering) (rows answer : List α) : Prop where
  perm : answer.Perm rows
  ordered : answer.Pairwise fun a b => (cmp a b).isLE

def Decides (cmp : α → α → Ordering) (rows : List α) : Prop := ∀ a ∈ rows, ∀ b ∈ rows, cmp a b = .eq → a = b

theorem Answers.unique {cmp : α → α → Ordering} [Std.OrientedCmp cmp] {rows answer answer' : List α}
    (hdecides : Decides cmp rows) (h : Answers cmp rows answer) (h' : Answers cmp rows answer') : answer = answer' := by
  apply List.Perm.eq_of_pairwise _ h.ordered h'.ordered (h.perm.trans h'.perm.symm)
  intro a b ha hb hab hba
  apply hdecides a (h.perm.mem_iff.mp ha) b (h'.perm.mem_iff.mp hb)
  have hswap : cmp b a = (cmp a b).swap := Std.OrientedCmp.eq_swap
  rw [hswap] at hba
  cases hcmp : cmp a b with
  | lt =>
    rw [hcmp] at hba
    cases hba
  | eq => rfl
  | gt =>
    rw [hcmp] at hab
    cases hab

end Windows

end Relational
