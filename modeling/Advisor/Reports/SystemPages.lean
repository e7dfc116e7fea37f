import Advisor.Python.Raise
import Advisor.Reports.SystemList

/-! The order of the list of systems, and what somebody reads who goes through its pages. -/

namespace Advisor.Reports

open Python Django Relational

/-- `F(field).desc(nulls_last=…)` or `F(field).asc(nulls_first=…)`. -/
structure OrderBy where
  field : String
  isDesc : Bool
  deriving DecidableEq

def SystemRow.column (system : SystemRow) : String → Option Value
  | "hits" => some (.int system.hits)
  | "last_seen" => system.lastSeen.map .instant
  | "critical_hits" => some (.int system.criticalHits)
  | "important_hits" => some (.int system.importantHits)
  | "moderate_hits" => some (.int system.moderateHits)
  | "low_hits" => some (.int system.lowHits)
  | name => system.row.cell name

abbrev ValueOrder := Value → Value → Ordering

variable (cmp : ValueOrder)

def nullsFirst : Option Value → Option Value → Ordering
  | none, none => .eq
  | none, some _ => .lt
  | some _, none => .gt
  | some a, some b => cmp a b

/-- Nulls are first in ascending order and last in descending order. -/
def OrderBy.compare (orderBy : OrderBy) (a b : SystemRow) : Ordering :=
  if orderBy.isDesc then nullsFirst cmp (b.column orderBy.field) (a.column orderBy.field)
  else nullsFirst cmp (a.column orderBy.field) (b.column orderBy.field)

def compareId (a b : SystemRow) : Ordering :=
  if a.row.inventoryId.val < b.row.inventoryId.val then .lt
  else if b.row.inventoryId.val < a.row.inventoryId.val then .gt
  else .eq

def orderOf (fields : List OrderBy) : SystemRow → SystemRow → Ordering :=
  match fields with
  | [] => compareId
  | orderBy :: rest => compareLex (orderBy.compare cmp) (orderOf rest)

instance oriented_compareId : Std.OrientedCmp compareId where
  eq_swap {a b} := by
    unfold compareId
    by_cases hab : a.row.inventoryId.val < b.row.inventoryId.val
    · rw [if_pos hab, if_neg (by omega), if_pos hab]
      rfl
    · rw [if_neg hab]
      by_cases hba : b.row.inventoryId.val < a.row.inventoryId.val
      · rw [if_pos hba, if_pos hba]
        rfl
      · rw [if_neg hba, if_neg hba, if_neg hab]
        rfl

instance oriented_compare [Std.OrientedCmp cmp] (orderBy : OrderBy) : Std.OrientedCmp (orderBy.compare cmp) where
  eq_swap {a b} := by
    have hswap : ∀ x y : Option Value, nullsFirst cmp x y = (nullsFirst cmp y x).swap := by
      intro x y
      cases x with
      | none =>
        cases y with
        | none => rfl
        | some y => rfl
      | some x =>
        cases y with
        | none => rfl
        | some y =>
          show cmp x y = (cmp y x).swap
          exact Std.OrientedCmp.eq_swap
    unfold OrderBy.compare
    split_ifs with hdesc
    · exact hswap _ _
    · exact hswap _ _

instance oriented_orderOf [Std.OrientedCmp cmp] (fields : List OrderBy) : Std.OrientedCmp (orderOf cmp fields) := by
  induction fields with
  | nil => exact oriented_compareId
  | cons orderBy rest ih =>
    show Std.OrientedCmp (compareLex (orderBy.compare cmp) (orderOf cmp rest))
    infer_instance

variable {cmp}

variable {castTime : CastTime} {icontains : Contains} {tables : SystemTables} {filters : HostFilters} {orgId : String}
  {now : Instant} {params : ListParams}

section TwoSystems

def seenRow (id : Uuid) : AdvisorInventoryHost where
  orgId := "1234567"
  inventoryId := id
  updated := 0
  columns := ("per_reporter_staleness", some (.json (.dict [("puptoo", .dict [("stale_warning_timestamp", .str "")])]))) ::
    requiredColumns.map fun name => (name, some (.text ""))

def twoSystems : SystemTables where
  rules := .empty
  categoryOf _ := 1
  reports := .empty
  acks := .empty
  hostAcks := .empty
  hosts :=
    { rows := [{ inventoryId := 1, account := none, orgId := "1234567" },
        { inventoryId := 2, account := none, orgId := "1234567" }]
      unique := by decide }
  inventory := { rows := [seenRow 2, seenRow 1], unique := by decide }
  reportRules report h := by cases h
  reportHosts report h := by cases h
  complete row h := by
    rw [complete_iff]
    have hrow : row = seenRow 2 ∨ row = seenRow 1 := by simpa using Table.mem_def.mp h
    rcases hrow with rfl | rfl
    · decide +kernel
    · decide +kernel
  uploads := .empty
  clientSource := "insights-client"
  pathwayOf _ := none
  tagsOnce rule h := by cases h

/-- Numbers by their size; the columns of these systems have no other values that differ. -/
def numbersFirst : ValueOrder
  | .int i, .int j => if i < j then .lt else if j < i then .gt else .eq
  | _, _ => .eq

instance oriented_numbersFirst : Std.OrientedCmp numbersFirst where
  eq_swap {a b} := by
    cases a with
    | int i =>
      cases b with
      | int j =>
        simp only [numbersFirst]
        by_cases hij : i < j
        · rw [if_pos hij, if_neg (by omega), if_pos hij]
          rfl
        · rw [if_neg hij]
          by_cases hji : j < i
          · rw [if_pos hji, if_pos hji]
            rfl
          · rw [if_neg hji, if_neg hji, if_neg hij]
            rfl
      | _ => rfl
    | _ => cases b <;> rfl

end TwoSystems

end Advisor.Reports
