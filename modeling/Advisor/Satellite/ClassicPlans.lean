import Advisor.Python.Grouping
import Advisor.Python.Procedure
import Advisor.Satellite.Maintenance

/-! The import of the plans of Insights Classic from its dumps. Each plan is written with its actions in a transaction
of its own; what was written before the import fails stays written. -/

namespace Advisor.Satellite

open Python Procedure Django Relational

abbrev DumpRow := List (String × Option String)

def parseValue (value : String) : Option String := if value = "NULL" then none else some value

def readDumpFileToStruct (csvData : List (List String)) : List DumpRow :=
  match csvData.dropWhile (·.isEmpty) with
  | [] => []
  | header :: data => data.map fun row => (header.zip row).map fun field => (field.1, parseValue field.2)

/-- `row[name]`; of two fields with a name the later is kept. -/
def DumpRow.item (row : DumpRow) (name : String) : Except Exception (Option String) :=
  match row.reverse.lookup name with
  | some value => .ok value
  | none => .error (.keyError name)

structure ClassicAction where
  id : Option String
  systemId : Option String
  ruleId : Option String

/-- A plan with its actions; its times are in UTC and its branch is cut to a UUID. -/
structure ClassicPlan where
  row : DumpRow
  maintenanceId : Option String
  start : Option String
  ending : Option String
  remoteBranch : Option String
  actions : List ClassicAction

def classicAction (action : DumpRow) : Except Exception (Option String × ClassicAction) := do
  let planId ← action.item "maintenance_id"
  let id ← action.item "id"
  let systemId ← action.item "system_id"
  let ruleId ← action.item "rule_id"
  return (planId, { id, systemId, ruleId })

def remoteBranchOf (branch : String) : Option String :=
  if branch = "NULL" then none
  else if 36 < branch.length then some (String.ofList (branch.toList.take 36))
  else some branch

def classicPlan (actions : List (Option String × ClassicAction)) (plan : DumpRow) : Except Exception ClassicPlan := do
  let maintenanceId ← plan.item "maintenance_id"
  let start ← plan.item "start"
  let ending ← plan.item "end"
  let remoteBranch ← plan.item "remote_branch"
  return {
    row := plan
    maintenanceId
    start := start.map (· ++ "+00:00")
    ending := ending.map (· ++ "+00:00")
    remoteBranch := remoteBranch.bind remoteBranchOf
    actions := (actions.filter fun action => action.1 = maintenanceId).map (·.2) }

def mergePlanAndActionData (planData actionData : List DumpRow) : Except Exception (List ClassicPlan) := do
  let actions ← actionData.mapM classicAction
  planData.mapM (classicPlan actions)

/-- The plans and their actions, and what the sequences of their ids give next. -/
structure Plans where
  plans : Table SatMaintenance.id
  actions : Table SatMaintenanceAction.id
  nextPlan : Int := 1
  nextAction : Int := 1

variable (lib : Library) (tables : Reports.Tables)

def jsonOf : Option String → Json
  | none => .null
  | some text => .str text

/-- An `AutoField`, which takes any integer; for NULL the sequence gives one. -/
def pkOf (id : Option String) : Except Exception (Option Int) := do
  match ← nullable (integerOf lib) (jsonOf id) with
  | none => return none
  | some i => if -2 ^ 31 ≤ i ∧ i < 2 ^ 31 then return some i else .error .dataError

def flagOf (flag : Option String) : Except Exception Bool := do
  match ← required booleanOf (jsonOf flag) with
  | some value => return value
  | none => .error .validationError

/-- The columns that the import writes; the organisation is not one of them. -/
def planColumns (account : Option String) (pk : Int) (plan : ClassicPlan) : Except Exception SatMaintenance := do
  let account ← required (charOf lib 10) (jsonOf account)
  let name ← nullable (charOf lib 255) (jsonOf (← plan.row.item "name"))
  let branchId ← required uuidOf (jsonOf plan.remoteBranch)
  let description ← nullable (charOf lib 255) (jsonOf (← plan.row.item "description"))
  let start ← nullable (instantOf lib) (jsonOf plan.start)
  let ending ← nullable (instantOf lib) (jsonOf plan.ending)
  let createdBy ← nullable (charOf lib 80) (jsonOf (← plan.row.item "created_by"))
  let silenced ← flagOf (← plan.row.item "silenced")
  let hidden ← flagOf (← plan.row.item "hidden")
  let _ ← nullable (charOf lib 1) (jsonOf (← plan.row.item "suggestion"))
  let _ ← flagOf (← plan.row.item "allow_reboot")
  return { id := pk, account, orgId := "", branchId, name, description, start, ending, createdBy, silenced, hidden }

def overwritePlan (columns : SatMaintenance) : Update SatMaintenance.id :=
  ⟨fun plan => { columns with id := plan.id, orgId := plan.orgId }, fun _ => rfl⟩

def ruleObjectFor (ruleId : String) : Option Nat :=
  (tables.rules.rows.find? fun rule => rule.active && rule.ruleId = ruleId).map (·.id)

def insightsIdText (row : AdvisorInventoryHost) : String :=
  match insightsId row with
  | some id => id.toText
  | none => "None"

def hostObjectFor (account : Option String) (systemId : String) : Option Uuid :=
  ((tables.inventory.rows.filter fun row =>
    (accountIs account row).holds && insightsIdText row = systemId).getLast?).map (·.inventoryId)

def actionRow (account : Option String) (action : ClassicAction) : Except Exception (Option (Option Int × Nat × Uuid)) :=
  match action.ruleId.bind (ruleObjectFor tables), action.systemId.bind (hostObjectFor tables account) with
  | some rule, some host => do
    let id ← pkOf lib action.id
    return some (id, rule, host)
  | _, _ => .ok none

/-- The rows of actions; those without an id take theirs from the sequence. -/
def actionRows (plan : Int) : Int → List (Option Int × Nat × Uuid) → List SatMaintenanceAction
  | _, [] => []
  | next, (some id, rule, host) :: rest => { id, plan, rule, host } :: actionRows plan next rest
  | next, (none, rule, host) :: rest => { id := next, plan, rule, host } :: actionRows plan (next + 1) rest

/-- `update_or_create`, and the actions of a plan that is new. No plan has the id NULL. -/
def importPlan (account : Option String) (plan : ClassicPlan) (s : Plans) : Except Exception Plans := do
  let pk ← pkOf lib plan.maintenanceId
  let columns ← planColumns lib account (pk.getD s.nextPlan) plan
  match pk.bind s.plans.get? with
  | some _ => return { s with plans := s.plans.updateWhere (fun row => row.id = columns.id) (overwritePlan columns) }
  | none => do
    let plans ← (s.plans.insert? columns).elim (.error .integrityError) .ok
    let rows ← plan.actions.mapM (actionRow lib tables account)
    let new := rows.reduceOption
    if new.all fun action => (tables.hosts.get? action.2.2).isSome then do
      let actions ← (s.actions.insertMany? (actionRows columns.id s.nextAction new)).elim (.error .integrityError) .ok
      return {
        plans
        actions
        nextPlan := pk.elim (s.nextPlan + 1) fun _ => s.nextPlan
        nextAction := s.nextAction + new.countP fun action => action.1.isNone }
    else .error .integrityError

/-- A plan without a branch is left out. -/
def takesPlan (plan : ClassicPlan) : Bool :=
  match plan.remoteBranch with
  | none => false
  | some branch => branch ≠ ""

def importTurn (entry : Option String × ClassicPlan) : Procedure Exception Plans Unit := fun s =>
  if takesPlan entry.2 then
    match importPlan lib tables entry.1 entry.2 s with
    | .ok s' => (.ok (), s')
    | .error e => (.error e, s)
  else (.ok (), s)

def classicPlansByAccount (classicPlans : List ClassicPlan) : Except Exception (List (Option String × ClassicPlan)) := do
  let entries ← classicPlans.mapM fun plan => return ((← plan.row.item "account_number"), plan)
  return (groupBy Prod.fst entries).flatMap (·.2)

def importTurns (planFile actionFile : List (List String)) : Except Exception (List (Option String × ClassicPlan)) := do
  let classicPlans ← mergePlanAndActionData (readDumpFileToStruct planFile) (readDumpFileToStruct actionFile)
  classicPlansByAccount classicPlans

/-- `setval` of a sequence to one more than the greatest id there is; with no id it does nothing. -/
def setval (ids : List Int) (next : Int) : Except Exception Int :=
  match ids.max? with
  | none => .ok next
  | some last => if 1 ≤ last + 1 ∧ last + 1 < 2 ^ 31 then .ok (last + 2) else .error .dataError

def setSequences : Procedure Exception Plans Unit := fun s =>
  match setval (s.plans.rows.map (·.id)) s.nextPlan with
  | .error e => (.error e, s)
  | .ok nextPlan =>
    match setval (s.actions.rows.map (·.id)) s.nextAction with
    | .error e => (.error e, { s with nextPlan })
    | .ok nextAction => (.ok (), { s with nextPlan, nextAction })

def importClassicPlans (planFile actionFile : List (List String)) : Procedure Exception Plans Unit := do
  let turns ← lift (importTurns planFile actionFile)
  each turns (importTurn lib tables)
  setSequences

end Advisor.Satellite
