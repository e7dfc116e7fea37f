import Advisor.Python.Raise
import Advisor.Reports.Subquery

/-! The maintenance plans of a Satellite: their rows and actions, and the requests that create, update and destroy
them. A request is no transaction (`ATOMIC_REQUESTS` stands outside `DATABASES`): what it wrote before it failed
stays written. -/

namespace Advisor

open Python Django Relational

structure SatMaintenanceAction where
  id : Int
  plan : Int
  rule : Nat
  host : Uuid
  playbook : Option Nat := none
  done : Bool := false
  deriving DecidableEq

structure SatMaintenance where
  id : Int
  account : String
  orgId : String
  branchId : Uuid
  name : Option String
  description : Option String
  start : Option Instant
  ending : Option Instant
  createdBy : Option String
  silenced : Bool := false
  hidden : Bool := false
  deriving DecidableEq

namespace Satellite

inductive Failure where
  | validation (field message : String)
  | notFound
  | doesNotExist
  | dataError
  | indexError
  deriving DecidableEq

/-- `SatMaintenanceAddActionSerializer`: a rule for one system, known by its Insights id, or for all of them. -/
structure AddAction where
  ruleId : String
  systemId : Option Uuid := none
  deriving DecidableEq

structure AddData where
  name : String
  description : Option String := none
  start : Option Instant := none
  ending : Option Instant := none
  hidden : Bool := false
  add : List AddAction

/-- What `SatMaintenanceEditSerializer` accepts; a field that is not given is `none`. -/
structure EditData where
  name : Option (Option String) := none
  description : Option (Option String) := none
  start : Option (Option Instant) := none
  ending : Option (Option Instant) := none
  silenced : Option Bool := none
  hidden : Option Bool := none
  delete : Option (List Int) := none
  actions : Option (List Int) := none
  add : Option (List AddAction) := none

/-- A request: who sends it, the values of `branch_id` in its query and what reading its filters on reports gives,
the categories with them. -/
structure Request where
  orgId : String
  account : Option String
  username : Option String
  branchId : List String
  now : Instant
  filters : Except Failure (Reports.HostFilters × List Nat)

structure Surroundings where
  tables : Reports.Tables
  deletedAt : Nat → Option Instant
  ruleIds : (tables.rules.rows.map (·.ruleId)).Nodup

/-- The plans and their actions, with the sequences their ids come from. -/
structure World extends Surroundings where
  plans : Table SatMaintenance.id
  actions : Table SatMaintenanceAction.id
  nextPlan : Nat
  nextAction : Nat
  planIds : ∀ plan ∈ plans, plan.id < nextPlan
  actionIds : ∀ action ∈ actions, action.id < nextAction
  actionPlans : ∀ action ∈ actions, action.plan < nextPlan

section Rows

variable (tables : Reports.Tables)

def ruleNamed (ruleId : String) : Option Rule := tables.rules.rows.find? (·.ruleId = ruleId)

def inventoryRow (host : Host) : Option AdvisorInventoryHost := tables.inventory.get? (host.orgId, host.inventoryId)

def insightsId (row : AdvisorInventoryHost) : Option Uuid :=
  match row.cell "insights_id" with
  | some (.uuid id) => some id
  | _ => none

/-- `account=account`, which asks for NULL where there is none. -/
def accountIs (account : Option String) (row : AdvisorInventoryHost) : Truth :=
  match account with
  | some account => Truth.eq (row.cell "account") (some (.text account))
  | none => Truth.isNull (row.cell "account")

/-- The hosts with one of the Insights ids and the account of the request, but for those with a listed id. -/
def selects (account : Option String) (ids : List (Option Uuid)) (listed : List Uuid) (host : Host) : Bool :=
  match inventoryRow tables host with
  | none => false
  | some row =>
    (Truth.and (Truth.isIn (insightsId row) ids) (accountIs account row)).holds &&
      !(insightsId row).any listed.contains

/-- An action on a rule and a host is one the views show: the host is in the inventory of the org, and the rule is
active and not acked. -/
def visible (orgId : String) (rule : Nat) (host : Uuid) : Bool :=
  (tables.inventory.rows.any fun row => row.orgId = orgId && row.inventoryId = host) &&
    (tables.rules.get? rule).any (·.active) && !Reports.acked tables orgId rule

end Rows

section Parameters

def uuidParam (value : String) : Except Failure Uuid :=
  match Uuid.ofText value with
  | some id => .ok id
  | none => .error (.validation "branch_id" "The value must be a UUID")

def requiredBranchId : List String → Except Failure Uuid
  | [] => .error (.validation "branch_id" "Required parameter")
  | [value] => uuidParam value
  | _ => .error (.validation "branch_id" "Parameter must only be given a single value")

def optionalBranchId (values : List String) : Except Failure (Option Uuid) :=
  if values = [] then .ok none else (requiredBranchId values).map some

def Request.reading (request : Request) : Except Failure Reports.Request := do
  let (filters, categories) ← request.filters
  let branchId ← optionalBranchId request.branchId
  return { filters with orgId := request.orgId, now := request.now, categories, branchId }

end Parameters

section Additions

variable (castTime : Reports.CastTime) (w : Surroundings) (request : Request)

def reportsForAccount (rule : Rule) : Except Failure (List CurrentReport) :=
  if !rule.active || (w.deletedAt rule.id).isSome || Reports.acked w.tables request.orgId rule.id then .ok []
  else do
    let reading ← request.reading
    return Reports.getReportsSubquery castTime w.tables reading {}
      (.where fun report => Truth.eq (some report.rule) (some rule.id))

/-- The Insights ids an entry is about; NULL for a report whose host the inventory does not have. -/
def insightsIds (branchId : Uuid) (entry : AddAction) (rule : Rule) : Except Failure (List (Option Uuid)) :=
  match entry.systemId with
  | some id => .ok [some id]
  | none => do
    let reports ← reportsForAccount castTime w request rule
    let hosts := reports.filterMap fun report => w.tables.hosts.get? report.host
    let here := hosts.filter fun host => (Truth.eq host.branchId (some branchId)).holds
    return (here.map fun host => (inventoryRow w.tables host).bind insightsId).dedup

/-- A rule and the Insights id of a host. The lookup table of hosts for rules is kept as the list of these. -/
abbrev HostsForRule := List (String × Uuid)

def HostsForRule.hosts (hostsForRule : HostsForRule) (ruleId : String) : List Uuid :=
  (hostsForRule.filter (·.1 = ruleId)).map (·.2)

def hostsForRulesInPlan (tables : Reports.Tables) (actions : List SatMaintenanceAction) :
    Except Failure HostsForRule :=
  actions.mapM fun act =>
    match tables.rules.get? act.rule, (tables.hosts.get? act.host).bind (inventoryRow tables) with
    | some rule, some row =>
      match insightsId row with
      | some id => .ok (rule.ruleId, id)
      | none => .error .doesNotExist
    | _, _ => .error .doesNotExist

/-- The turn of `add_actions` for one entry, on what is listed and the actions so far. -/
def addEntry (plan : SatMaintenance) (acc : HostsForRule × List (Nat × Uuid)) (entry : AddAction) :
    Except Failure (HostsForRule × List (Nat × Uuid)) :=
  match ruleNamed w.tables entry.ruleId with
  | none => .error .doesNotExist
  | some rule =>
    if !rule.active then .ok acc
    else do
      let ids ← insightsIds castTime w request plan.branchId entry rule
      let hosts := w.tables.hosts.rows.filter (selects w.tables request.account ids (acc.1.hosts rule.ruleId))
      return (acc.1 ++ hosts.filterMap fun host =>
          ((inventoryRow w.tables host).bind insightsId).map fun id => (rule.ruleId, id),
        acc.2 ++ hosts.map fun host => (rule.id, host.inventoryId))

/-- `add_actions`: the rules and hosts of the actions it creates, given those the plan object shows. -/
def addActions (plan : SatMaintenance) (existing : List SatMaintenanceAction) (entries : List AddAction) :
    Except Failure (List (Nat × Uuid)) := do
  let hostsForRule ← hostsForRulesInPlan w.tables existing
  let (_, actions) ← entries.foldlM (addEntry castTime w request plan) (hostsForRule, [])
  return actions

end Additions

namespace World

variable (w : World)

def insertPlan (plan : SatMaintenance) : World :=
  { w with
    plans := ⟨w.plans.rows ++ [{ plan with id := w.nextPlan }], by
      rw [List.map_append, List.map_singleton]
      refine w.plans.unique.append (List.nodup_singleton _) ?_
      intro id hid hnew
      obtain ⟨old, hold, rfl⟩ := List.mem_map.mp hid
      have hlt := w.planIds old hold
      have heq : old.id = w.nextPlan := List.mem_singleton.mp hnew
      omega⟩
    nextPlan := w.nextPlan + 1
    planIds := by
      intro row hrow
      rcases List.mem_append.mp hrow with hrow | hrow
      · have hlt := w.planIds row hrow
        omega
      · rw [List.mem_singleton.mp hrow]
        exact Int.lt_succ _
    actionPlans := fun action haction => by
      have hlt := w.actionPlans action haction
      omega }

def savePlan (pk : Int) (edit : Update SatMaintenance.id) : World :=
  { w with
    plans := w.plans.updateWhere (fun plan => plan.id = pk) edit
    planIds := by
      intro row hrow
      obtain ⟨old, hold, rfl⟩ := Table.mem_updateWhere.mp hrow
      have hlt := w.planIds old hold
      by_cases hpk : old.id = pk
      · simpa [hpk, edit.2 old] using hlt
      · simpa [hpk] using hlt }

def deleteActions (p : SatMaintenanceAction → Bool) : World :=
  { w with
    actions := w.actions.deleteWhere p
    actionIds := fun action haction => w.actionIds action (Table.mem_deleteWhere.mp haction).1
    actionPlans := fun action haction => w.actionPlans action (Table.mem_deleteWhere.mp haction).1 }

def deletePlan (pk : Int) : World :=
  { w.deleteActions fun action => action.plan = pk with
    plans := w.plans.deleteWhere fun plan => plan.id = pk
    planIds := fun plan hplan => w.planIds plan (Table.mem_deleteWhere.mp hplan).1 }

def newActions (plan : Int) (rows : List (Nat × Uuid)) : List SatMaintenanceAction :=
  (rows.zipIdx w.nextAction).map fun row => { id := (row.2 : Int), plan, rule := row.1.1, host := row.1.2 }

theorem map_id_newActions (plan : Int) (rows : List (Nat × Uuid)) :
    (w.newActions plan rows).map (·.id) = (List.range' w.nextAction rows.length).map Int.ofNat := by
  rw [newActions, List.map_map, ← List.zipIdx_map_snd, List.map_map]
  rfl

theorem id_newActions {plan : Int} {rows : List (Nat × Uuid)} {action : SatMaintenanceAction}
    (h : action ∈ w.newActions plan rows) :
    w.nextAction ≤ action.id ∧ action.id < w.nextAction + rows.length := by
  have hid := List.mem_map_of_mem (f := (·.id)) h
  rw [map_id_newActions] at hid
  obtain ⟨id, hrange, heq⟩ := List.mem_map.mp hid
  rw [List.mem_range'_1] at hrange
  have hsame : (id : Int) = action.id := heq
  omega

theorem plan_newActions {plan : Int} {rows : List (Nat × Uuid)} {action : SatMaintenanceAction}
    (h : action ∈ w.newActions plan rows) : action.plan = plan := by
  obtain ⟨row, -, rfl⟩ := List.mem_map.mp h
  rfl

def bulkCreate (plan : Int) (hplan : plan < w.nextPlan) (rows : List (Nat × Uuid)) : World :=
  { w with
    actions := ⟨w.actions.rows ++ w.newActions plan rows, by
      rw [List.map_append, map_id_newActions]
      refine w.actions.unique.append (List.Nodup.map Int.ofNat_injective List.nodup_range') ?_
      intro id hid hnew
      obtain ⟨old, hold, rfl⟩ := List.mem_map.mp hid
      have hlt := w.actionIds old hold
      obtain ⟨id, hrange, heq⟩ := List.mem_map.mp hnew
      rw [List.mem_range'_1] at hrange
      have hsame : (id : Int) = old.id := heq
      omega⟩
    nextAction := w.nextAction + rows.length
    actionIds := by
      intro action haction
      rcases List.mem_append.mp haction with hold | hnew
      · have hlt := w.actionIds action hold
        omega
      · exact (w.id_newActions hnew).2
    actionPlans := by
      intro action haction
      rcases List.mem_append.mp haction with hold | hnew
      · exact w.actionPlans action hold
      · rw [w.plan_newActions hnew]
        exact hplan }

end World

section Views

variable (castTime : Reports.CastTime) (request : Request)

def checkAdd (w : World) (entries : List AddAction) : Except Failure Unit :=
  match entries.find? fun entry => (ruleNamed w.tables entry.ruleId).isNone with
  | some entry => .error (.validation "rule_id" s!"Rule with ID '{entry.ruleId}' does not exist")
  | none => .ok ()

/-- `existing_action_id_validator` on a list of ids, of actions in whatever plan. -/
def checkActions (w : World) (field : String) (ids : List Int) : Except Failure Unit :=
  match ids.find? fun id => (w.actions.get? id).isNone with
  | some id => .error (.validation field s!"Action with ID '{id}' does not exist")
  | none => .ok ()

def fits (plan : SatMaintenance) : Bool :=
  plan.account.length ≤ 10 && plan.orgId.length ≤ 10 && plan.name.all (·.length ≤ 255) &&
    plan.description.all (·.length ≤ 255) && plan.createdBy.all (·.length ≤ 80)

def newPlan (id : Int) (branchId : Uuid) (data : AddData) : SatMaintenance where
  id := id
  account := request.account.getD ""
  orgId := request.orgId
  branchId := branchId
  name := some data.name
  description := data.description
  start := data.start
  ending := data.ending
  createdBy := request.username
  hidden := data.hidden

def checkCreate (w : World) (data : Except Failure AddData) : Except Failure (SatMaintenance × List AddAction) := do
  let branchId ← requiredBranchId request.branchId
  let data ← data
  checkAdd w data.add
  let plan := newPlan request w.nextPlan branchId data
  if fits plan then return (plan, data.add) else .error .dataError

def create (w : World) (data : Except Failure AddData) : Except Failure Int × World :=
  match checkCreate request w data with
  | .error e => (.error e, w)
  | .ok (plan, entries) =>
    let saved := w.insertPlan plan
    match addActions castTime saved.toSurroundings request plan (saved.actions.rows.filter (·.plan = w.nextPlan))
      entries with
    | .error e => (.error e, saved)
    | .ok rows => (.ok w.nextPlan, saved.bulkCreate w.nextPlan (Int.lt_succ _) rows)

def findPlan (w : World) (branchId : Option Uuid) (pk : Int) : Option SatMaintenance :=
  (w.plans.get? pk).filter fun plan =>
    request.orgId ≠ "" && plan.orgId = request.orgId && branchId.all (· = plan.branchId)

theorem findPlan_eq_some {w : World} {branchId : Option Uuid} {pk : Int} {plan : SatMaintenance}
    (h : findPlan request w branchId pk = some plan) :
    plan ∈ w.plans ∧ plan.id = pk ∧ request.orgId ≠ "" ∧ plan.orgId = request.orgId ∧
      ∀ id, branchId = some id → plan.branchId = id := by
  obtain ⟨hfound, hmatch⟩ := Option.filter_eq_some_iff.mp h
  obtain ⟨hmem, hpk⟩ := Table.get?_eq_some.mp hfound
  simp only [ne_eq, decide_not, Bool.and_eq_true, Bool.not_eq_eq_eq_not, Bool.not_true, decide_eq_false_iff_not,
    decide_eq_true_eq] at hmatch
  refine ⟨hmem, hpk, hmatch.1.1, hmatch.1.2, ?_⟩
  rintro id rfl
  have hbranch : id = plan.branchId := by simpa using hmatch.2
  exact hbranch.symm

def checkEdit (w : World) (edit : EditData) : Except Failure Unit := do
  checkActions w "delete" (edit.delete.getD [])
  checkActions w "actions" (edit.actions.getD [])
  checkAdd w (edit.add.getD [])

def checkUpdate (w : World) (pk : Int) (data : Except Failure EditData) :
    Except Failure ({ plan : SatMaintenance // plan ∈ w.plans } × EditData) := do
  let _ ← requiredBranchId request.branchId
  let branchId ← optionalBranchId request.branchId
  match h : findPlan request w branchId pk with
  | none => .error .notFound
  | some plan =>
    let edit ← data
    checkEdit w edit
    return (⟨plan, (findPlan_eq_some request h).1⟩, edit)

def EditData.apply (edit : EditData) : Update SatMaintenance.id :=
  ⟨fun plan =>
    { plan with
      name := edit.name.getD plan.name
      description := edit.description.getD plan.description
      start := edit.start.getD plan.start
      ending := edit.ending.getD plan.ending
      silenced := edit.silenced.getD plan.silenced
      hidden := edit.hidden.getD plan.hidden
      orgId := if plan.orgId = "" then request.orgId else plan.orgId }, fun _ => rfl⟩

/-- `plan.actions`, of a plan that came with `get_queryset`: the actions it has prefetched, and whatever is asked of
them asks for these only. -/
def shown (tables : Reports.Tables) (pk : Int) (action : SatMaintenanceAction) : Bool :=
  action.plan = pk && visible tables request.orgId action.rule action.host

def shownActions (w : World) (pk : Int) : List SatMaintenanceAction :=
  w.actions.rows.filter (shown request w.tables pk)

def severityNames : List String := ["NONE", "INFO", "WARN", "ERROR", "CRITICAL"]

def render (w : World) (pk : Int) : Except Failure (List (Int × String)) :=
  (shownActions request w pk).mapM fun action =>
    match (w.tables.rules.get? action.rule).bind fun rule => severityNames[rule.totalRisk]? with
    | some name => .ok (action.id, name)
    | none => .error .indexError

def edited (w : World) (plan : SatMaintenance) (edit : EditData) : World :=
  let saved := w.savePlan plan.id (edit.apply request)
  let deleted :=
    match edit.delete with
    | some ids => saved.deleteActions fun action => shown request w.tables plan.id action && ids.contains action.id
    | none => saved
  match edit.actions with
  | some ids => deleted.deleteActions fun action => shown request w.tables plan.id action && !ids.contains action.id
  | none => deleted

theorem edited_nextPlan (w : World) (plan : SatMaintenance) (edit : EditData) :
    (edited request w plan edit).nextPlan = w.nextPlan := by
  unfold edited
  cases edit.delete <;> cases edit.actions <;> rfl

theorem edited_surroundings (w : World) (plan : SatMaintenance) (edit : EditData) :
    (edited request w plan edit).toSurroundings = w.toSurroundings := by
  unfold edited
  cases edit.delete <;> cases edit.actions <;> rfl

def additions (before : World) (plan : SatMaintenance) (edit : EditData) : Except Failure (List (Nat × Uuid)) :=
  match edit.add with
  | some entries =>
    addActions castTime before.toSurroundings request plan (shownActions request before plan.id) entries
  | none => .ok []

def update (w : World) (pk : Int) (data : Except Failure EditData) : Except Failure (List (Int × String)) × World :=
  match checkUpdate request w pk data with
  | .error e => (.error e, w)
  | .ok (plan, edit) =>
    let before := edited request w plan edit
    match additions castTime request before plan edit with
    | .error e => (.error e, before)
    | .ok rows =>
      let after := before.bulkCreate plan.1.id
        (by rw [edited_nextPlan]; exact w.planIds plan plan.2) rows
      (render request after plan.1.id, after)

def destroy (w : World) (pk : Int) : Except Failure Unit × World :=
  if (w.plans.get? pk).any (·.orgId = request.orgId) then (.ok (), w.deletePlan pk) else (.error .notFound, w)

end Views

/-- What happens to the plans: a request, or a change of the other tables, where the actions go of which the rule or
the host goes. -/
inductive Step where
  | create (request : Request) (data : Except Failure AddData)
  | update (request : Request) (pk : Int) (data : Except Failure EditData)
  | destroy (request : Request) (pk : Int)
  | change (surroundings : Surroundings)

def World.change (w : World) (surroundings : Surroundings) : World :=
  { w.deleteActions fun action =>
      (surroundings.tables.rules.get? action.rule).isNone || (surroundings.tables.hosts.get? action.host).isNone with
    toSurroundings := surroundings }

def step (castTime : Reports.CastTime) (w : World) : Step → World
  | .create request data => (create castTime request w data).2
  | .update request pk data => (update castTime request w pk data).2
  | .destroy request pk => (destroy request w pk).2
  | .change surroundings => w.change surroundings

def states (castTime : Reports.CastTime) (w : World) : List Step → List World
  | [] => [w]
  | s :: steps => w :: states castTime (step castTime w s) steps

def EachStep (castTime : Reports.CastTime) (C : World → Step → Prop) (w : World) : List Step → Prop
  | [] => True
  | s :: steps => C w s ∧ EachStep castTime C (step castTime w s) steps

/-- A condition on steps that decides of each step what it does and what the next state is like decides it of runs. -/
theorem eachStep_iff {castTime : Reports.CastTime} {P : World → Prop} {Q C : World → Step → Prop}
    (hstep : ∀ w s, P w → (Q w s ∧ P (step castTime w s) ↔ C w s)) {w : World} (hw : P w) (steps : List Step) :
    (EachStep castTime Q w steps ∧ ∀ w' ∈ states castTime w steps, P w') ↔ EachStep castTime C w steps := by
  induction steps generalizing w with
  | nil => simp [EachStep, states, hw]
  | cons s steps ih =>
    rw [EachStep, EachStep, states, List.forall_mem_cons, and_iff_right hw]
    constructor
    · rintro ⟨⟨hdone, hrun⟩, hall⟩
      have hnext : P (step castTime w s) := hall _ (by cases steps <;> simp [states])
      exact ⟨(hstep w s hw).mp ⟨hdone, hnext⟩, (ih hnext).mp ⟨hrun, hall⟩⟩
    · rintro ⟨hclear, hrest⟩
      obtain ⟨hdone, hnext⟩ := (hstep w s hw).mpr hclear
      obtain ⟨hrun, hall⟩ := (ih hnext).mpr hrest
      exact ⟨⟨hdone, hrun⟩, hall⟩

def World.initial (surroundings : Surroundings) : World where
  toSurroundings := surroundings
  plans := .empty
  actions := .empty
  nextPlan := 1
  nextAction := 1
  planIds _ hplan := absurd hplan List.not_mem_nil
  actionIds _ haction := absurd haction List.not_mem_nil
  actionPlans _ haction := absurd haction List.not_mem_nil

end Satellite

end Advisor
