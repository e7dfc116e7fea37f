import Advisor.Tasks.Playbook
import Advisor.Tasks.SourceEvents
import Advisor.Tasks.StartUp

/-! A request to execute a task: its checks, the query for its hosts, and the requests to a dispatcher that are sent
while the rows are still in a transaction. -/

namespace Advisor.Tasks

open Python Procedure Django Relational

/-- A parameter of a task, with the values it takes. -/
structure OfferedParameter where
  parameter : TaskParameter
  values : List String
  multiValued : Bool

structure TaskDetails where
  title : Nat → String
  parameters : Nat → List OfferedParameter

/-- `get_host_group_filter` of the request says which hosts its user sees. -/
structure ExecuteRequest where
  slug : String
  hosts : List Uuid
  parameters : Option (List (String × String))
  name : Option String
  orgId : String
  user : String
  visible : AdvisorInventoryHost → Bool

inductive Failure where
  | invalid (field : String) (messages : List String)
  | invalidHosts (rows : List (String × String))
  | refused (reason : Refused)
  | raised (e : Exception)

section Checks

variable (lib : TaskLibrary) (details : TaskDetails)

structure CheckedParameters where
  provided : List String := []
  unrecognised : List String := []
  duplicated : List String := []
  unmatched : List String := []

def unmatchedValues (offered : OfferedParameter) (given : String × String) : List String :=
  let supplied := if offered.multiValued then given.2.splitOn "," else [given.2]
  (supplied.filter fun value => !offered.values.contains value).map fun value =>
    "Supplied value '" ++ value ++ "' for parameter '" ++ given.1 ++ "' needs to be one of " ++
      lib.django.render (.list (offered.values.map .str))

def checkParameter (offered : List OfferedParameter) (checked : CheckedParameters) (given : String × String) :
    CheckedParameters :=
  match offered.reverse.find? (·.parameter.key = given.1) with
  | none => { checked with unrecognised := checked.unrecognised.insert given.1 }
  | some parameter =>
    if checked.provided.contains given.1 then { checked with duplicated := checked.duplicated.insert given.1 }
    else
      { checked with
        provided := checked.provided.insert given.1
        unmatched := checked.unmatched ++ unmatchedValues lib parameter given }

def validateParameters (slug : String) (offered : List OfferedParameter) (given : Option (List (String × String))) :
    Except Failure Unit := do
  let checked := (given.getD []).foldl (checkParameter lib offered) {}
  if checked.unrecognised ≠ [] then
    throw (.invalid "parameters" (checked.unrecognised.map fun key =>
      "Parameter '" ++ key ++ "' is not a valid parameter for task " ++ slug))
  if checked.duplicated ≠ [] then
    throw (.invalid "parameters" ((checked.duplicated.insertionSort (· ≤ ·)).map fun key =>
      "Parameter '" ++ key ++ "' is duplicated"))
  if checked.unmatched ≠ [] then throw (.invalid "parameters" checked.unmatched)
  let missing := offered.filter fun offer =>
    offer.parameter.required && offer.parameter.default.isNone && !checked.provided.contains offer.parameter.key
  if missing ≠ [] then
    throw (.invalid "parameters" (((missing.map (·.parameter.key)).insertionSort (· ≤ ·)).map fun key =>
      "Parameter '" ++ key ++ "' requires a value"))

def validateHostsInOrg (request : ExecuteRequest) (s : State) : Except Failure Unit :=
  let nonexistent := request.hosts.zipIdx.filter fun host => (s.inventory.get? (request.orgId, host.1)).isNone
  if nonexistent = [] then .ok ()
  else .error (.invalidHosts (nonexistent.map fun host =>
    (toString host.2, "Host with UUID '" ++ host.1.toText ++ "' not found")))

def validate (request : ExecuteRequest) (s : State) : Except Failure Task := do
  match s.tasks.rows.find? (·.slug = request.slug) with
  | none => throw (.invalid "task" ["Task with slug '" ++ request.slug ++ "' not found"])
  | some task =>
    if request.hosts = [] then throw (.invalid "hosts" ["Task must be run on at least one host"])
    validateHostsInOrg request s
    validateParameters lib request.slug (details.parameters task.id) request.parameters
    return task

end Checks

section Hosts

/-- The `->>` operator and the cast of a text to a UUID. -/
structure Postgres where
  text : Json → Option String
  uuid : String → Option Uuid

variable (postgres : Postgres) (satellites : SatelliteRhcs)

def Postgres.field (value : Json) (key : String) : Option String := (value.field? key).bind postgres.text

/-- `Host.tag_query`, a scalar subquery: one value at most. -/
def tagQuery (row : AdvisorInventoryHost) (tagKey : String) : Except Exception (Option String) :=
  match (row.columns.lookup "tags").join with
  | none => .ok none
  | some (.json (.list tags)) =>
    match tags.filter fun tag =>
      postgres.field tag "namespace" = some "satellite" && postgres.field tag "key" = some tagKey with
    | [] => .ok none
    | [tag] => .ok (postgres.field tag "value")
    | _ => .error .cardinalityViolation
  -- `JSONB_ARRAY_ELEMENTS` of something else
  | some _ => .error .dataError

def rhcClientId (row : AdvisorInventoryHost) : Option Uuid :=
  match (row.columns.lookup "rhc_client_id").join with
  | some (.uuid client) => some client
  | _ => none

def effectiveRhcClientId (row : AdvisorInventoryHost) (satelliteInstanceId : Option String) :
    Except Exception (Option Uuid) :=
  match rhcClientId row, satelliteInstanceId with
  | some client, _ => .ok (some client)
  | none, none => .ok none
  | none, some instanceId =>
    match postgres.uuid instanceId with
    | none => .error .dataError
    | some instanceId => .ok (satellites.clientOf instanceId)

def dispatchHost (row : AdvisorInventoryHost) : Except Exception DispatchHost := do
  let satelliteInstanceId ← tagQuery postgres row "satellite_instance_id"
  let satelliteOrgId ← tagQuery postgres row "organization_id"
  let effectiveRhcClientId ← effectiveRhcClientId postgres satellites row satelliteInstanceId
  return { inventoryId := row.inventoryId, satelliteInstanceId, satelliteOrgId, effectiveRhcClientId }

/-- The rows the query selects, ordered by the inventory id. -/
def ExecuteRequest.rows (request : ExecuteRequest) (s : State) : List AdvisorInventoryHost :=
  (s.inventory.rows.filter fun row =>
    request.visible row && row.orgId = request.orgId && request.hosts.contains row.inventoryId).insertionSort
      fun a b => a.inventoryId ≤ b.inventoryId

def ExecuteRequest.queryHosts (request : ExecuteRequest) (s : State) : Except Exception (List DispatchHost) :=
  (request.rows s).mapM (dispatchHost postgres satellites)

end Hosts

/-- The answer of the playbook dispatcher to one batch, and the runs it has started for it. The body is missing where
it is not what `response.json()` can read, or where there is no response. -/
structure DispatcherReply where
  started : List Uuid
  statusCode : Nat
  body : Option (List RunCreated)

/-- The answer of the cloud connector for one host; the run id is made up beforehand. -/
structure ConnectorReply where
  runId : Uuid
  delivered : Bool
  statusCode : Nat

def ConnectorReply.created (reply : ConnectorReply) : RunCreated :=
  ⟨reply.statusCode, if reply.statusCode = 201 then some reply.runId else none⟩

def ConnectorReply.started (reply : ConnectorReply) : List Uuid := if reply.delivered then [reply.runId] else []

structure Services where
  dispatcher : List DispatchHost → DispatcherReply
  connector : DispatchHost → ConnectorReply

/-- What comes of requests: the entries of `runs_created` or a failure, and the runs that have been started. -/
structure Sent where
  runsCreated : Except Failure (List RunCreated)
  started : List Uuid

namespace Sent

def andThen (first later : Sent) : Sent :=
  match first.runsCreated with
  | .error _ => first
  | .ok runs => ⟨later.runsCreated.map (runs ++ ·), first.started ++ later.started⟩

def inTurn (parts : List Sent) : Sent := parts.foldr andThen ⟨.ok [], []⟩

end Sent

namespace Execution

variable (execution : Execution) (services : Services)

def batches : List (List DispatchHost) := execution.hosts.toChunks execution.batchSize

def executePlaybookDispatcher (batch : List DispatchHost) : Sent :=
  match batch.mapM execution.dispatchRun with
  | .error reason => ⟨.error (.refused reason), []⟩
  | .ok _ =>
    let reply := services.dispatcher batch
    if reply.statusCode = 207 then
      match reply.body with
      | some runs => ⟨.ok runs, reply.started⟩
      | none => ⟨.error (.raised .valueError), reply.started⟩
    else ⟨.error (.refused .badRequest), reply.started⟩

def connect (host : DispatchHost) : Sent :=
  match execution.connectorMessage host with
  | .error reason => ⟨.error (.refused reason), []⟩
  | .ok _ => ⟨.ok [(services.connector host).created], (services.connector host).started⟩

def executeCloudConnector (batch : List DispatchHost) : Sent := .inTurn (batch.map (execution.connect services))

def executeBatch (batch : List DispatchHost) : Sent :=
  match execution.task.type with
  | .script => execution.executeCloudConnector services batch
  | .ansible => execution.executePlaybookDispatcher services batch

def executeBatches : Sent := .inTurn (execution.batches.map (execution.executeBatch services))

end Execution

/-- Where the hosts get the playbook, and how many hosts go into a batch. -/
structure ExecuteSettings where
  site : Site
  batchSize : Nat
  batchSize_pos : 0 < batchSize

/-- What a request has led to; a run that has been started stays so. -/
structure Outcome where
  result : Except Failure ExecutedTask
  db : State
  started : List Uuid

section Create

variable (lib : TaskLibrary) (details : TaskDetails) (postgres : Postgres) (satellites : SatelliteRhcs)
  (settings : ExecuteSettings)

def ExecuteRequest.execution (request : ExecuteRequest) (task : Task) : Execution where
  task
  title := details.title task.id
  name := request.name.getD (details.title task.id)
  orgId := request.orgId
  user := request.user
  url := ""
  hosts := []
  batchSize := settings.batchSize

/-- The parameters of the executed task, whose values are as long as their column admits. -/
def ExecuteRequest.storedParameters (request : ExecuteRequest) (task : Task) :
    Except Exception (List ExecutedTaskParameter) := do
  let stored ← createTaskParameters ((details.parameters task.id).map (·.parameter)) (request.parameters.getD [])
  if ∀ parameter ∈ stored, parameter.value.length ≤ 250 then return stored else throw .dataError

/-- All that comes before the first request to a dispatcher; `token` is made up for the executed task. -/
def prepare (request : ExecuteRequest) (token : Uuid) (s : State) : Except Failure (Execution × ExecutedTask × State) := do
  let task ← validate lib details request s
  let execution := request.execution details settings task
  match createExecutedTask execution s with
  | (.error e, _) => throw (.raised e)
  | (.ok extask, s') =>
    let parameters ← (request.storedParameters details task).mapError .raised
    let hosts ← (request.queryHosts postgres satellites s').mapError .raised
    return ({ execution.addressed settings.site token parameters with hosts }, extask, s')

/-- `ExecutedTaskViewSet.create` up to the end of its transaction. -/
def create (now : Instant) (services : Services) (request : ExecuteRequest) (token : Uuid) (s : State) : Outcome :=
  match prepare lib details postgres satellites settings request token s with
  | .error e => ⟨.error e, s, []⟩
  | .ok (execution, extask, s') =>
    let sent := execution.executeBatches services
    match sent.runsCreated with
    | .error e => ⟨.error e, s, sent.started⟩
    | .ok runsCreated =>
      if runsCreated.length = execution.hosts.length then
        match createJobsForExecutedTask now execution extask runsCreated s' with
        | (.ok _, s'') => ⟨.ok extask, s'', sent.started⟩
        | (.error e, _) => ⟨.error (.raised e), s, sent.started⟩
      else ⟨.error (.refused .assertionError), s, sent.started⟩

end Create

section Batches

variable {α : Type}

theorem toChunks_go_flatten (n : Nat) (xs : List α) (chunk : Array α) (chunks : Array (List α)) :
    (List.toChunks.go n xs chunk chunks).flatten = chunks.toList.flatten ++ chunk.toList ++ xs := by
  induction xs generalizing chunk chunks with
  | nil => simp [List.toChunks.go]
  | cons x xs ih =>
    rw [List.toChunks.go]
    split
    · rw [ih]
      simp
    · rw [ih]
      simp

theorem toChunks_flatten (n : Nat) (l : List α) : (l.toChunks n).flatten = l := by
  cases l with
  | nil => rfl
  | cons x xs =>
    cases n with
    | zero => simp [List.toChunks]
    | succ n =>
      rw [List.toChunks, toChunks_go_flatten]
      · simp
      · exact fun h => by cases h

end Batches

/-- A request to a dispatcher: the hosts it is for, the runs started for it, and the entries it is answered with,
unless it is refused. -/
structure Exchange where
  hosts : List DispatchHost
  started : List Uuid
  answers : Option (List RunCreated)

namespace Exchange

def Reachable (exchange : Exchange) : Prop := ∀ host ∈ exchange.hosts, host.effectiveRhcClientId ≠ none

def Accepted (exchange : Exchange) : Prop := exchange.Reachable ∧ exchange.answers ≠ none

inductive Yields (exchange : Exchange) : Sent → Prop where
  | runs (runsCreated : List RunCreated) : exchange.Reachable → exchange.answers = some runsCreated →
      Yields exchange ⟨.ok runsCreated, exchange.started⟩
  | refused (reason : Failure) : exchange.Reachable → exchange.answers = none →
      Yields exchange ⟨.error reason, exchange.started⟩
  | unsent (reason : Failure) : ¬exchange.Reachable → Yields exchange ⟨.error reason, []⟩

end Exchange

def Execution.exchanges (execution : Execution) (services : Services) : List Exchange :=
  match execution.task.type with
  | .script => execution.hosts.map fun host =>
    { hosts := [host]
      started := (services.connector host).started
      answers := some [(services.connector host).created] }
  | .ansible => execution.batches.map fun batch =>
    let reply := services.dispatcher batch
    { hosts := batch
      started := reply.started
      answers := if reply.statusCode = 207 then reply.body else none }

section Dispatching

variable {execution : Execution} {services : Services}

namespace Sent

theorem andThen_assoc (a b c : Sent) : (a.andThen b).andThen c = a.andThen (b.andThen c) := by
  obtain ⟨_ | runs, started⟩ := a
  · rfl
  · obtain ⟨_ | more, later⟩ := b
    · rfl
    · obtain ⟨_ | last, end_⟩ := c <;> simp [andThen, Except.map]

theorem inTurn_append (l m : List Sent) : inTurn (l ++ m) = (inTurn l).andThen (inTurn m) := by
  induction l with
  | nil =>
    change inTurn m = ⟨(inTurn m).runsCreated.map ([] ++ ·), [] ++ (inTurn m).started⟩
    rcases inTurn m with ⟨_ | runs, started⟩ <;> rfl
  | cons a l ih =>
    change a.andThen (inTurn (l ++ m)) = (a.andThen (inTurn l)).andThen (inTurn m)
    rw [ih, andThen_assoc]

theorem inTurn_flatten (parts : List (List Sent)) : inTurn (parts.map inTurn) = inTurn parts.flatten := by
  induction parts with
  | nil => rfl
  | cons l parts ih =>
    rw [List.flatten_cons, inTurn_append, ← ih]
    rfl

end Sent

theorem connect_yields (execution : Execution) (services : Services) (host : DispatchHost) :
    Exchange.Yields ⟨[host], (services.connector host).started, some [(services.connector host).created]⟩
      (execution.connect services host) := by
  unfold Execution.connect Execution.connectorMessage
  cases hclient : host.effectiveRhcClientId with
  | none => exact .unsent _ fun h => h host (by simp) hclient
  | some client =>
    refine .runs _ ?_ rfl
    intro other hother
    rw [List.mem_singleton.mp hother, hclient]
    exact Option.some_ne_none client

theorem dispatchRun_isOk (execution : Execution) (host : DispatchHost) :
    (∃ run, execution.dispatchRun host = .ok run) ↔ host.effectiveRhcClientId ≠ none := by
  unfold Execution.dispatchRun
  cases host.effectiveRhcClientId with
  | none => simp
  | some client => cases Execution.behindSatellite host <;> simp

theorem executePlaybookDispatcher_yields (execution : Execution) (services : Services) (batch : List DispatchHost) :
    Exchange.Yields
      ⟨batch, (services.dispatcher batch).started,
        if (services.dispatcher batch).statusCode = 207 then (services.dispatcher batch).body else none⟩
      (execution.executePlaybookDispatcher services batch) := by
  unfold Execution.executePlaybookDispatcher
  cases hruns : batch.mapM execution.dispatchRun with
  | error reason =>
    refine .unsent _ fun h => ?_
    obtain ⟨runs, hok⟩ := mapM_of_isOk fun host hhost => (dispatchRun_isOk execution host).mpr (h host hhost)
    rw [hruns] at hok
    cases hok
  | ok runs =>
    have hreachable : ∀ host ∈ batch, host.effectiveRhcClientId ≠ none := fun host hhost =>
      (dispatchRun_isOk execution host).mp (mapM_isOk ⟨runs, hruns⟩ host hhost)
    by_cases hcode : (services.dispatcher batch).statusCode = 207
    · simp only [hcode, if_true]
      cases hbody : (services.dispatcher batch).body with
      | none => exact .refused _ hreachable rfl
      | some entries => exact .runs _ hreachable rfl
    · simp only [hcode, if_false]
      exact .refused _ hreachable rfl

theorem forall₂_map {α : Type} {R : Exchange → Sent → Prop} {f : α → Exchange} {g : α → Sent} {l : List α}
    (h : ∀ a ∈ l, R (f a) (g a)) : (l.map f).Forall₂ R (l.map g) := by
  rw [List.forall₂_map_left_iff, List.forall₂_map_right_iff, List.forall₂_same]
  exact h

/-- What is sent for the batches is what is sent for the requests, one after the other. -/
theorem executeBatches_yields (execution : Execution) (services : Services) :
    ∃ parts, execution.executeBatches services = .inTurn parts ∧
      (execution.exchanges services).Forall₂ Exchange.Yields parts := by
  unfold Execution.executeBatches Execution.exchanges
  cases htype : execution.task.type with
  | script =>
    refine ⟨execution.hosts.map (execution.connect services), ?_, ?_⟩
    · have hbatch : execution.executeBatch services = fun batch => .inTurn (batch.map (execution.connect services)) := by
        funext batch
        rw [Execution.executeBatch, htype]
        rfl
      have hparts : execution.batches.map (execution.executeBatch services) =
          (execution.batches.map (List.map (execution.connect services))).map Sent.inTurn := by
        rw [hbatch, List.map_map]
        rfl
      rw [hparts, Sent.inTurn_flatten, ← List.map_flatten, Execution.batches, toChunks_flatten]
    · exact forall₂_map fun host _ => connect_yields execution services host
  | ansible =>
    refine ⟨execution.batches.map (execution.executePlaybookDispatcher services), ?_, ?_⟩
    · congr 1
      refine List.map_congr_left fun batch _ => ?_
      rw [Execution.executeBatch, htype]
    · exact forall₂_map fun batch _ => executePlaybookDispatcher_yields execution services batch

theorem inTurn_accepted {exchanges : List Exchange} {parts : List Sent}
    (h : exchanges.Forall₂ Exchange.Yields parts) (haccepted : ∀ exchange ∈ exchanges, exchange.Accepted) :
    Sent.inTurn parts =
      ⟨.ok (exchanges.flatMap fun exchange => exchange.answers.getD []), exchanges.flatMap (·.started)⟩ := by
  induction h with
  | nil => rfl
  | cons hhead _ ih =>
    have htail := ih fun exchange hexchange => haccepted exchange (by simp [hexchange])
    obtain ⟨hreachable, hanswers⟩ := haccepted _ (List.mem_cons_self ..)
    change Sent.andThen _ (Sent.inTurn _) = _
    rw [htail]
    cases hhead with
    | runs runsCreated _ hruns => simp [Sent.andThen, Except.map, hruns]
    | refused _ _ hnone => exact absurd hnone hanswers
    | unsent _ hun => exact absurd hreachable hun

theorem inTurn_refused {before after : List Exchange} {exchange : Exchange} {parts : List Sent}
    (h : (before ++ exchange :: after).Forall₂ Exchange.Yields parts) (hbefore : ∀ earlier ∈ before, earlier.Accepted)
    (hrefused : ¬exchange.Accepted) :
    ∃ reason started, Sent.inTurn parts = ⟨.error reason, before.flatMap (·.started) ++ started⟩ ∧
      (exchange.Reachable → started = exchange.started) ∧ (¬exchange.Reachable → started = []) := by
  induction before generalizing parts with
  | nil =>
    obtain ⟨part, rest, hpart, -, rfl⟩ := List.forall₂_cons_left_iff.mp h
    cases hpart with
    | runs runsCreated hreachable hruns => exact absurd ⟨hreachable, by simp [hruns]⟩ hrefused
    | refused reason hreachable hnone =>
      exact ⟨reason, exchange.started, rfl, fun _ => rfl, fun hun => absurd hreachable hun⟩
    | unsent reason hun => exact ⟨reason, [], rfl, fun hreachable => absurd hreachable hun, fun _ => rfl⟩
  | cons first before ih =>
    obtain ⟨part, rest, hpart, hrest, rfl⟩ := List.forall₂_cons_left_iff.mp h
    obtain ⟨reason, started, hturn, hstarted⟩ := ih hrest fun earlier hearlier => hbefore earlier (by simp [hearlier])
    obtain ⟨hreachable, hanswers⟩ := hbefore first (by simp)
    refine ⟨reason, started, ?_, hstarted⟩
    change part.andThen (Sent.inTurn rest) = _
    rw [hturn]
    cases hpart with
    | runs runsCreated _ hruns => simp [Sent.andThen, Except.map]
    | refused _ _ hnone => exact absurd hnone hanswers
    | unsent _ hun => exact absurd hreachable hun

/-- With a body that can be read, what is sent for a batch comes to what `execute` makes of the answers. -/
theorem executePlaybookDispatcher_eq {batch : List DispatchHost} {runs : List RunCreated}
    (h : (services.dispatcher batch).body = some runs) :
    (execution.executePlaybookDispatcher services batch).runsCreated =
      (execution.execute batch (.dispatcher (services.dispatcher batch).statusCode runs)).mapError .refused := by
  unfold Execution.executePlaybookDispatcher
  simp only [Execution.execute]
  cases batch.mapM execution.dispatchRun with
  | error reason => rfl
  | ok sent =>
    by_cases hcode : (services.dispatcher batch).statusCode = 207
    · simp [hcode, h, bind, Except.bind, pure, Except.pure, Except.mapError]
    · simp [hcode, bind, Except.bind, throw, throwThe, MonadExceptOf.throw, Except.mapError]

theorem executeCloudConnector_eq (execution : Execution) (services : Services) (batch : List DispatchHost) :
    (execution.executeCloudConnector services batch).runsCreated =
      (execution.execute batch (.connector (batch.map fun host =>
        ((services.connector host).runId, (services.connector host).statusCode)))).mapError .refused := by
  simp only [Execution.execute, Execution.executeCloudConnector]
  induction batch with
  | nil => rfl
  | cons host rest ih =>
    rw [List.map_cons, List.map_cons, List.zip_cons_cons, List.mapM_cons]
    change ((execution.connect services host).andThen (Sent.inTurn _)).runsCreated = _
    cases hmessage : execution.connectorMessage host with
    | error reason =>
      have hconnect : execution.connect services host = ⟨.error (.refused reason), []⟩ := by
        simp only [Execution.connect, hmessage]
      rw [hconnect]
      rfl
    | ok message =>
      have hconnect : execution.connect services host =
          ⟨.ok [(services.connector host).created], (services.connector host).started⟩ := by
        simp only [Execution.connect, hmessage]
      rw [hconnect]
      have hlater : ∀ (created : RunCreated) (later : Except Refused (List RunCreated)),
          (later.mapError Failure.refused).map ([created] ++ ·) =
            (later >>= fun runs => pure (created :: runs)).mapError .refused := by
        intro created later
        cases later <;> rfl
      change (Sent.inTurn _).runsCreated.map _ = _
      rw [ih]
      exact hlater _ _

end Dispatching

end Advisor.Tasks
