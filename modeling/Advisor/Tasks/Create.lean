import Mathlib.Data.List.Defs
import Advisor.Tasks.Service

/-! Executing a task on hosts: the parameters it stores, the runs it asks a dispatcher for, batch
by batch, and the jobs it makes of the answers. -/

namespace Advisor.Tasks

open Python Procedure Django Relational

structure DispatchHost where
  inventoryId : Uuid
  satelliteInstanceId : Option String := none
  satelliteOrgId : Option String := none
  effectiveRhcClientId : Option Uuid
  deriving DecidableEq

structure TaskParameter where
  id : Nat
  key : String
  required : Bool := false
  default : Option String := none
  index : Nat
  deriving DecidableEq

structure ExecutedTaskParameter where
  parameter : Nat
  value : String
  deriving DecidableEq

/-- The parameters an executed task stores: those given, and the required ones that have a default.
`taskParameters` is in the order of the query, which is by index. -/
def createTaskParameters (taskParameters : List TaskParameter) (given : List (String × String)) :
    Except Exception (List ExecutedTaskParameter) := do
  let stored ← given.mapM fun (key, value) =>
    match taskParameters.reverse.find? (·.key = key) with
    | some parameter => .ok ⟨parameter.id, value⟩
    | none => .error (.keyError key)
  let extra := taskParameters.filterMap fun parameter =>
    if parameter.required && !(given.map (·.1)).contains parameter.key then
      parameter.default.map (⟨parameter.id, ·⟩)
    else none
  let parameters := stored ++ extra
  if (parameters.map (·.parameter)).Nodup then return parameters else throw .integrityError

inductive Refused where
  | noRhcClientId (host : Uuid)
  | badRequest
  | assertionError
  | database (e : Exception)
  deriving DecidableEq

/-- A request to run a task on the hosts of a query; `url` is where the hosts get the playbook or script. -/
structure Execution where
  task : Task
  title : String
  name : String
  orgId : String
  user : String
  url : String
  hosts : List DispatchHost
  batchSize : Nat

/-- The part of a dispatch request that is about one host. -/
structure DispatchRun where
  recipient : Uuid
  orgId : String
  url : String
  principal : String
  name : String
  recipientConfig : Option (String × Option String) := none
  hosts : List Uuid := []
  deriving DecidableEq

structure RunCreated where
  code : Nat
  id : Option Uuid
  deriving DecidableEq

/-- The answers to the requests for one batch: the status and the runs of the playbook dispatcher, or the
status for each host, with the run made up for it, of the cloud connector. -/
inductive Answer where
  | dispatcher (statusCode : Nat) (runs : List RunCreated)
  | connector (statusCodes : List (Uuid × Nat))

namespace Execution

variable (execution : Execution)

def behindSatellite (host : DispatchHost) : Bool := host.satelliteInstanceId.any (· ≠ "")

def dispatchRun (host : DispatchHost) : Except Refused DispatchRun :=
  match host.effectiveRhcClientId with
  | none => .error (.noRhcClientId host.inventoryId)
  | some recipient =>
    let run : DispatchRun :=
      { recipient
        orgId := execution.orgId
        url := execution.url
        principal := execution.user
        name := execution.title }
    if behindSatellite host then
      .ok { run with
        recipientConfig := host.satelliteInstanceId.map fun satId => (satId, host.satelliteOrgId)
        hosts := [host.inventoryId]
        url := run.url ++ "?inventory_id=" ++ host.inventoryId.toText }
    else .ok run

def connectorMessage (host : DispatchHost) : Except Refused (Uuid × String) :=
  match host.effectiveRhcClientId with
  | none => .error (.noRhcClientId host.inventoryId)
  | some recipient => .ok (recipient, execution.url)

def dispatchedUrl (host : DispatchHost) : Except Refused String :=
  match execution.task.type with
  | .script => (execution.connectorMessage host).map (·.2)
  | .ansible => (execution.dispatchRun host).map (·.url)

def execute (batch : List DispatchHost) : Answer → Except Refused (List RunCreated)
  | .dispatcher statusCode runs => do
    let _ ← batch.mapM execution.dispatchRun
    if statusCode = 207 then return runs else throw .badRequest
  | .connector statusCodes =>
    (batch.zip statusCodes).mapM fun (host, runId, code) => do
      let _ ← execution.connectorMessage host
      return ⟨code, if code = 201 then some runId else none⟩

def dispatcher : String :=
  match execution.task.type with
  | .script => "Cloud Connector"
  | .ansible => "Playbook Dispatcher"

def dispatchedLine (runId : Uuid) : String :=
  "Job dispatched to " ++ execution.dispatcher ++ " (run ID " ++ runId.toText ++ ")"

def failedLine (code : Nat) : String :=
  "Job dispatch to " ++ execution.dispatcher ++ " failed - " ++
    if code = 404 then "host is not currently connected to RHC" else "returned status code " ++ toString code

end Execution

def nextId (ids : List Nat) : Nat := ids.foldr max 0 + 1

variable (now : Instant) (execution : Execution)

def createExecutedTask : Run ExecutedTask := do
  let id ← read fun s => nextId (s.executedTasks.rows.map (·.id))
  if h : id < 2 ^ 31 ∧ execution.name.length ≤ 200 ∧ charStorable 80 execution.user ∧
      charStorable 50 execution.orgId then
    let extask : ExecutedTask :=
      { id
        name := execution.name
        task := execution.task.id
        orgId := execution.orgId
        initiatedBy := execution.user
        status := .running
        id_lt := h.1
        name_length := h.2.1
        initiatedBy_storable := h.2.2.1 }
    extask.save
    return extask
  -- a name is a title, or a text that the serializer has found to be without NUL
  else raise (charError [execution.user, execution.orgId])

def newJob (extask : ExecutedTask) (id : Nat) (host : DispatchHost) (created : RunCreated) : Job where
  id
  executedTask := extask.id
  systemId := host.inventoryId
  status := if created.id.isSome then .running else .failure
  updatedOn := now
  runId := created.id.getD 0

def createJob (extask : ExecutedTask) (host : DispatchHost) (created : RunCreated) : Run Unit := do
  let id ← read fun s => nextId (s.jobs.rows.map (·.id))
  let job := newJob now extask id host created
  job.save
  match created.id with
  | some runId => job.newLog true (execution.dispatchedLine runId)
  | none => job.newLog false (execution.failedLine created.code)

def createJobsForExecutedTask (extask : ExecutedTask) (runsCreated : List RunCreated) : Run Unit := do
  each (execution.hosts.zip runsCreated) fun (host, created) => createJob now execution extask host created
  updateExecutedTaskStatus now extask none true false

def createRows (runsCreated : List RunCreated) : Run Unit :=
  atomic do
    let extask ← createExecutedTask execution
    createJobsForExecutedTask now execution extask runsCreated

end Advisor.Tasks
