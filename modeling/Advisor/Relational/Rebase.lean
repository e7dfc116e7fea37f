import Advisor.Relational.Table

/-! What an open transaction sees of a table: the rows that it has written, and of the others what has been committed
since. -/

namespace Relational

variable {κ ρ : Type*} {key : ρ → κ}

theorem map_filterMap_sublist {see : ρ → Option ρ} (h : ∀ row seen, see row = some seen → key seen = key row)
    (rows : List ρ) : List.Sublist ((rows.filterMap see).map key) (rows.map key) := by
  induction rows with
  | nil => exact List.Sublist.slnil
  | cons row rows ih =>
    cases hrow : see row with
    | none =>
      rw [List.filterMap_cons_none hrow]
      exact ih.cons _
    | some seen =>
      rw [List.filterMap_cons_some hrow, List.map_cons, List.map_cons, h row seen hrow]
      exact ih.cons_cons _

namespace Table

variable [DecidableEq κ] [DecidableEq ρ]

/-- A row of the transaction, when the committed table goes from `old` to `new`. -/
def see (old new : Table key) (row : ρ) : Option ρ :=
  if old.get? (key row) = some row then new.get? (key row) else some row

theorem key_see {old new : Table key} {row seen : ρ} (h : see old new row = some seen) : key seen = key row := by
  unfold see at h
  by_cases hold : old.get? (key row) = some row
  · rw [if_pos hold] at h
    exact get?_key h
  · rw [if_neg hold] at h
    rw [Option.some.inj h]

theorem see_self (t : Table key) : see t t = some := by
  funext row
  unfold see
  by_cases hrow : t.get? (key row) = some row
  · rw [if_pos hrow, hrow]
  · rw [if_neg hrow]

def rebase (own old new : Table key) : Table key where
  rows :=
    own.rows.filterMap (see old new) ++
      new.rows.filter fun row => (old.get? (key row)).isNone && (own.get? (key row)).isNone
  unique := by
    have hkey : ∀ row seen, see old new row = some seen → key seen = key row := fun _ _ => key_see
    have hsub := map_filterMap_sublist hkey own.rows
    rw [List.map_append]
    refine (own.unique.sublist hsub).append (new.unique.sublist (List.filter_sublist.map key)) ?_
    intro k hown hnew
    obtain ⟨row, hrow, rfl⟩ := List.mem_map.mp (hsub.subset hown)
    obtain ⟨other, hother, hsame⟩ := List.mem_map.mp hnew
    have hfree : own.get? (key other) = none := by
      have hfilter := (List.mem_filter.mp hother).2
      rw [Bool.and_eq_true] at hfilter
      simpa using hfilter.2
    exact get?_eq_none.mp hfree row hrow hsame.symm

theorem rebase_self (own t : Table key) : own.rebase t t = own := by
  have hnone : (t.rows.filter fun row => (t.get? (key row)).isNone && (own.get? (key row)).isNone) = [] := by
    rw [List.filter_eq_nil_iff]
    intro row hrow
    rw [mem_iff_get?.mp hrow]
    simp
  cases own
  simp only [rebase, see_self, List.filterMap_some, hnone, List.append_nil]

/-- The transaction has written none of the committed rows that `p` selects. -/
def Unwritten (own t : Table key) (p : ρ → Bool) : Prop :=
  ∀ row ∈ t.rows, p row → own.get? (key row) = some row

instance (own t : Table key) (p : ρ → Bool) : Decidable (own.Unwritten t p) := by
  unfold Unwritten
  infer_instance

end Table

end Relational
