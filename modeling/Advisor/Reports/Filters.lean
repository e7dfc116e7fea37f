import Advisor.Inventory.Store
import Advisor.Relational.Truth

/-! The filters of a request on hosts, as conditions over the columns of an inventory row. The same condition is put
on the row itself or, through a join that may find no row, on the row a report is about. -/

namespace Advisor

open Python Django Relational

def AdvisorInventoryHost.cell (row : AdvisorInventoryHost) (name : String) : Option Value :=
  if name = "inventory_id" then some (.uuid row.inventoryId)
  else if name = "org_id" then some (.text row.orgId)
  else if name = "updated" then some (.instant row.updated)
  else (row.columns.lookup name).join

namespace Reports

def nullable (name : String) : Bool :=
  !(["inventory_id", "org_id", "updated"].contains name ||
    Inventory.inventoryColumns.any fun column => column.name = name && !column.null)

def Complete (row : AdvisorInventoryHost) : Prop := ∀ name, nullable name = false → (row.cell name).isSome = true

def requiredColumns : List String :=
  ["inventory_id", "org_id", "updated"] ++
    (Inventory.inventoryColumns.filter fun column => !column.null).map (·.name)

theorem complete_iff {row : AdvisorInventoryHost} :
    Complete row ↔ ∀ name ∈ requiredColumns, (row.cell name).isSome = true := by
  refine forall_congr' fun name => imp_congr_left ?_
  simp only [nullable, requiredColumns, Bool.not_eq_false', Bool.or_eq_true, List.contains_eq_mem, decide_eq_true_eq,
    List.any_eq_true, Bool.and_eq_true, List.mem_append, List.mem_map, List.mem_filter]
  refine or_congr Iff.rfl (exists_congr fun column => ?_)
  rw [and_assoc, and_congr_right_iff]
  exact fun _ => and_comm

/-- A lookup of one column, with what SQL makes of it for each value of the column. -/
structure Lookup where
  column : String
  test : Option Value → Truth
  isNullTest : Bool := false

inductive Condition where
  | always
  | lookup (negated : Bool) (lookup : Lookup)
  | both (a b : Condition)
  | either (a b : Condition)

/-- Django asks of a negated lookup that its column is not NULL, if it can be. -/
def Lookup.eval (cell : String → Option Value) (guarded : String → Bool) (negated : Bool) (lookup : Lookup) : Truth :=
  let value := cell lookup.column
  if negated then
    if guarded lookup.column && !lookup.isNullTest then
      Truth.not (Truth.and (lookup.test value) (Truth.isNotNull value))
    else Truth.not (lookup.test value)
  else lookup.test value

namespace Condition

def eval (cell : String → Option Value) (guarded : String → Bool) : Condition → Truth
  | always => .yes
  | lookup negated l => l.eval cell guarded negated
  | both a b => Truth.and (eval cell guarded a) (eval cell guarded b)
  | either a b => Truth.or (eval cell guarded a) (eval cell guarded b)

def onRow (condition : Condition) (row : AdvisorInventoryHost) : Truth := condition.eval row.cell nullable

/-- The condition through a relation: every column of a missing row is NULL. -/
def onJoined (condition : Condition) (row : Option AdvisorInventoryHost) : Truth :=
  condition.eval (fun name => row.bind (·.cell name)) fun _ => true

theorem onJoined_some (condition : Condition) {row : AdvisorInventoryHost} (h : Complete row) :
    condition.onJoined (some row) = condition.onRow row := by
  unfold onJoined onRow
  induction condition with
  | always => rfl
  | lookup negated l =>
    simp only [eval, Lookup.eval, Option.bind_some, Bool.true_and]
    by_cases hnull : nullable l.column = true
    · simp [hnull]
    · have hsome := h l.column (by simpa using hnull)
      simp [hnull, Truth.isNotNull, hsome, Truth.ofBool]
  | both a b iha ihb => simp only [eval, iha, ihb]
  | either a b iha ihb => simp only [eval, iha, ihb]

/-- `Q() | a | b`: an empty `Q` is left out. -/
def anyOf : List Condition → Condition
  | [] => always
  | [a] => a
  | a :: rest => either a (anyOf rest)

def allOf (conditions : List Condition) : Condition := conditions.foldr both always

def equals (column : String) (value : Value) : Condition :=
  lookup false { column, test := fun x => Truth.eq x (some value) }

def isIn (column : String) (values : List Value) : Condition :=
  lookup false { column, test := fun x => Truth.isIn x (values.map some) }

def isNull (column : String) (null : Bool) : Condition :=
  lookup false { column, test := fun x => if null then Truth.isNull x else Truth.isNotNull x, isNullTest := true }

end Condition

open Condition

inductive SystemType where
  | all
  | edge
  | conventional
  | bootc
  deriving DecidableEq

inductive UpdateMethod where
  | ostree
  | dnfyum
  deriving DecidableEq

inductive Workload where
  | sap
  | ansible
  | mssql
  | crowdstrike
  | ibmDb2
  | intersystems
  | oracleDb
  | rhelAi
  | satellite
  deriving DecidableEq

def Workload.name : Workload → String
  | sap => "sap"
  | ansible => "ansible"
  | mssql => "mssql"
  | crowdstrike => "crowdstrike"
  | ibmDb2 => "ibm_db2"
  | intersystems => "intersystems"
  | oracleDb => "oracle_db"
  | rhelAi => "rhel_ai"
  | satellite => "satellite"

structure HostTag where
  tagNamespace : String
  key : String
  value : Option String
  deriving DecidableEq

/-- The filters on hosts that every view reads from a request. A lookup of the system profile stands with whether it is
negated. -/
structure HostFilters where
  tags : List String := []
  systemType : Option SystemType := none
  systemProfile : List (Bool × Lookup) := []
  updateMethods : List UpdateMethod := []
  workloads : List Workload := []
  hostGroups : List (Option Uuid) := []
  groupNames : List String := []
  authSystem : Option Uuid := none

variable (filters : HostFilters)

def jsonAt (path : List String) : Option Value → Option Json
  | some (.json value) => path.foldl (fun found key => found.bind (·.field? key)) (some value)
  | _ => none

def filterOnSystemType : Condition :=
  match filters.systemType with
  | none | some .all => always
  | some .edge => equals "host_type" (.text "edge")
  | some .bootc => isNull "bootc_booted_image" false
  | some .conventional => isNull "host_type" true

/-- `filter_multi_param` for the system profile: the lookups, one and all. -/
def filterOnSystemProfile : Condition := allOf (filters.systemProfile.map fun term => lookup term.1 term.2)

def certAuthQ : Condition :=
  match filters.authSystem with
  | none => always
  | some owner => equals "owner_id" (.uuid owner)

def filterOnUpdateMethod : Condition :=
  let methods := filters.updateMethods
  if methods = [] then always
  else if methods.contains .ostree && methods.contains .dnfyum then always
  else anyOf
    ((if methods.contains .ostree then [equals "system_update_method" (.text "rpm-ostree")] else []) ++
      if methods.contains .dnfyum then [isIn "system_update_method" [.text "dnf", .text "yum"]] else [])

def filterOnWorkload : Condition :=
  anyOf (filters.workloads.map fun workload =>
    if workload = .sap then
      lookup false
        { column := "workloads", test := fun x => Truth.eq (jsonAt ["sap", "sap_system"] x) (some (.bool true)) }
    else
      lookup false
        { column := "workloads", test := fun x => Truth.isNotNull (jsonAt [workload.name] x), isNullTest := true })

def getHostGroupFilter : Condition :=
  if filters.hostGroups = [] ∧ filters.groupNames = [] then always
  else both
    (anyOf (filters.hostGroups.map fun group =>
      match group with
      | none => isNull "workspace_id" true
      | some id => equals "workspace_id" (.uuid id)))
    (anyOf (filters.groupNames.map fun name =>
      if name = "" then equals "workspace_ungrouped" (.bool true) else equals "workspace_name" (.text name)))

def HostFilters.condition : Condition :=
  allOf [filterOnSystemType filters, filterOnSystemProfile filters, certAuthQ filters, filterOnUpdateMethod filters,
    filterOnWorkload filters, getHostGroupFilter filters]

section Tags

def unescape (token : List Char) : String :=
  ((String.ofList token).replace "%2F" "/").replace "%3D" "="

/-- `namespace/key=value` or `namespace/key`. -/
def parseTag (tag : String) : HostTag :=
  let keyAndValue := (tag.toList.dropWhile (· ≠ '/')).drop 1
  let value := (keyAndValue.dropWhile (· ≠ '=')).drop 1
  { tagNamespace := unescape (tag.toList.takeWhile (· ≠ '/'))
    key := unescape (keyAndValue.takeWhile (· ≠ '='))
    value := if value.isEmpty then none else some (unescape value) }

def carries (tag : HostTag) : Option Value → Truth
  | none => .unknown
  | some (.json (.list tags)) => Truth.ofBool (tags.any fun t =>
      t.field? "namespace" = some (.str tag.tagNamespace) && t.field? "key" = some (.str tag.key) &&
        t.field? "value" = some (match tag.value with | none => .null | some value => .str value))
  | some _ => .no

def taggedHosts (inventory : Table AdvisorInventoryHost.key) (orgId : String) : List Uuid :=
  (inventory.rows.filter fun row =>
    (filters.tags.all fun tag => (carries (parseTag tag) (row.cell "tags")).holds) && row.orgId = orgId).map
      (·.inventoryId)

def filterOnHostTags (inventory : Table AdvisorInventoryHost.key) (orgId : String) (host : Uuid) : Truth :=
  if filters.tags = [] then .yes
  else Truth.isIn (some host) ((taggedHosts filters inventory orgId).map some)

end Tags

end Reports

end Advisor
