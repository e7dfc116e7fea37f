import Advisor.Tasks.Results

/-! The writers of job and executed task statuses: updates from the dispatchers, cancelling,
timing out, and the aggregation each of them runs. -/

namespace Advisor.Tasks

open Python Procedure Django Relational

variable (lib : TaskLibrary) (now : Instant)

def noMoreLine (extask : ExecutedTask) : String :=
  "No more jobs running for executed task " ++ extask.name ++ " (ID " ++ toString extask.id ++ ")"

def updatedLine (job : Job) : String :=
  "Updated job status to " ++ job.status.label ++ ", update time " ++ lib.showTime job.updatedOn ++
    " (run ID " ++ job.runId.toText ++ ")"

def sentLine (job : Job) (displayName : String) : String :=
  "Sent message that this job is " ++ job.status.label ++ " on system " ++ displayName ++ " (ID " ++
    job.systemId.toText ++ ", run ID " ++ job.runId.toText ++ ")"

def timedOutLine (job : Job) (timeout : Nat) : String :=
  "Job timed out after " ++ toString timeout ++ " seconds (run ID " ++ job.runId.toText ++ ")"

def finishedStatus (statuses : List JobStatus) : ExecutedTaskStatus :=
  if .cancelled ∈ statuses then .cancelled
  else if ∀ status ∈ statuses, status = .success then .completed
  else if .success ∈ statuses then .completedWithErrors
  else .failure

def completedMessage (slug : String) (extask : ExecutedTask) : EventMessage where
  eventType := "executed-task-completed"
  orgId := extask.orgId
  context := []
  payload := [("task_name", .str extask.name), ("task_slug", .str slug),
    ("executed_task_id", .int extask.id), ("status", .str extask.status.label)]

/-- The last job to end gets a line of its own, if the caller has it. -/
def noMoreRunning (extask : ExecutedTask) : Option Job → Run Unit
  | some job => job.newLog true (noMoreLine extask)
  | none => pure ()

def finish (extask : ExecutedTask) (newStatus : ExecutedTaskStatus) (sendMessage : Bool) : Run Unit :=
  if extask.status = newStatus then pure ()
  else do
    let extask := { extask with status := newStatus, endTime := some now }
    extask.save
    if sendMessage then
      let task ← read fun s => s.tasks.get? extask.task
      sendEventMessage (completedMessage ((task.map (·.slug)).getD "") extask)

/-- `extask` is the instance the caller holds; its fields may be older than the row. -/
def updateExecutedTaskStatus (extask : ExecutedTask) (job : Option Job) (sendMessage deleteEmpty : Bool) :
    Run Unit := do
  let jobStatuses ← read fun s => s.jobStatuses extask.id
  if jobStatuses.isEmpty then
    if deleteEmpty then
      write fun s => { s with executedTasks := s.executedTasks.deleteWhere fun row => row.id = extask.id }
  else if .running ∈ jobStatuses then
    if extask.status ≠ .running then
      ExecutedTask.save { extask with status := .running }
  else do
    noMoreRunning extask job
    finish now extask (finishedStatus jobStatuses) sendMessage

def eventTypeForJobStatus : JobStatus → Option String
  | .cancelled => some "job-cancelled"
  | .failure => some "job-failed"
  | .success => some "job-completed"
  | .timeout => some "job-failed"
  | .running => none

def endedMessage (eventType slug : String) (extask : ExecutedTask) (job : Job) (system : AdvisorInventoryHost)
    (newStatus : JobStatus) : EventMessage where
  eventType := eventType
  orgId := extask.orgId
  context := [("task_name", .str extask.name), ("task_slug", .str slug), ("executed_task_id", .int extask.id)]
  payload := [("system_uuid", .str job.systemId.toText), ("display_name", .str system.displayName),
    ("status", .str newStatus.label)]

/-- The event of a job that has ended, if its system is known, with a log line about it. -/
def announceJob (extask : ExecutedTask) (job : Job) (newStatus : JobStatus) : Run Unit := do
  match ← read fun s => s.systems job with
  | [] => pure ()
  | [system] =>
    match eventTypeForJobStatus job.status with
    | none => pure ()
    | some eventType =>
      let task ← read fun s => s.tasks.get? extask.task
      sendEventMessage (endedMessage eventType ((task.map (·.slug)).getD "") extask job system newStatus)
      job.newLog true (sentLine job system.displayName)
  | _ => raise .multipleObjectsReturned

def setJobStatus (job : Job) (newStatus : JobStatus) (updatedOn : Json) : Run Job :=
  if job.status = newStatus then pure job
  else do
    let updated ← lift (parseDatetime lib.django updatedOn)
    let job := { job with status := newStatus, updatedOn := updated.getD now }
    job.save
    job.newLog (job.status = .success) (updatedLine lib job)
    return job

def updateJobStatus (job : Job) (newStatus : JobStatus) (updatedOn : Json) : Run Job := do
  let job ← setJobStatus lib now job newStatus updatedOn
  match ← read fun s => s.executedTasks.get? job.executedTask with
  | none => raise .doesNotExist
  | some extask =>
    announceJob extask job newStatus
    updateExecutedTaskStatus now extask (some job) true false
    return job

/-- What asking the dispatcher for the output of a run comes to. -/
inductive Fetch where
  | unconfigured
  | response (statusCode : Nat) (body : Option Json)

/-- The output in a response, or the log line about what is wrong with it. -/
def stdoutOf (runId : String) (statusCode : Nat) (body : Option Json) : Except Exception (String ⊕ Json) :=
  let problem := fun (what : String) => Except.ok (.inl ("Playbook Dispatcher " ++ what ++ " for run ID " ++ runId))
  if statusCode = 404 then .ok (.inl ("Playbook Dispatcher does not know of run ID " ++ runId))
  else if statusCode ≠ 200 then problem ("returned " ++ toString statusCode)
  else match body with
    | none => .error .valueError
    | some (.dict items) =>
      match items.lookup "data" with
      | none => problem "returned JSON response with no data object"
      | some (.list []) => problem "an empty JSON data list"
      | some (.list (.dict item :: _)) =>
        match item.lookup "stdout" with
        | none => problem "JSON data list item has no stdout data"
        | some stdout => .ok (.inr stdout)
      | some (.list _) => problem "JSON data list with non-object"
      | some _ => problem "JSON data is not a list"
    | some _ => problem "returned non-JSON response"

def requestLine (job : Job) : String :=
  "Requesting data from Playbook Dispatcher for run ID " ++ job.runId.toText

def fetchPlaybookDispatcherStdout (fetch : Fetch) (job : Job) : Run (Option Json) := do
  match fetch with
  | .unconfigured => return none
  | .response statusCode body =>
    job.newLog true (requestLine job)
    match ← lift (stdoutOf job.runId.toText statusCode body) with
    | .inl line => do
      job.newLog false line
      return none
    | .inr stdout => return some stdout

def readUpdate (message : Json) : Except Exception (Option (Json × Json × Json)) := do
  if !(← message.hasKey "payload") then return none
  let payload ← message.item "payload"
  let hasId ← payload.hasKey "id"
  let hasStatus ← payload.hasKey "status"
  if !(hasId && hasStatus) then return none
  return some (← payload.item "id", ← payload.item "status", ← payload.item "updated_at")

/-- Looking an unknown name up in vain is followed by looking the stored number up as a name. -/
def namedStatus (job : Job) (status : Json) : Except Exception JobStatus :=
  match status with
  | .str name =>
    match JobStatus.ofName? (lib.upper name) with
    | some status => .ok status
    | none => .error (.keyError (toString job.status.value))
  | _ => .error .attributeError

def processOutput (job : Job) (newStatus : JobStatus) (fetch : Fetch) : Run Unit :=
  if newStatus = .running then pure ()
  else do
    match ← fetchPlaybookDispatcherStdout fetch job with
    | none => pure ()
    | some stdout =>
      if stdout.truthy then
        let _ ← parseJsonFromStdout lib job stdout .ansible

def handleAnsibleJobUpdates (message : Json) (fetch : Fetch) : Run Unit := do
  match ← lift (readUpdate message) with
  | none => pure ()
  | some (runId, status, updatedOn) =>
    match ← lift (← read fun s => s.jobWithRunId runId) with
    | none => pure ()
    | some job =>
      let newStatus ← lift (namedStatus lib job status)
      let job ← updateJobStatus lib now job newStatus updatedOn
      processOutput lib job newStatus fetch

def timestampOf (message : Json) : Except Exception Json := do
  let _ ← message.getD "request_id" .null
  message.item "timestamp"

def trackUpload (message : Json) : Run Unit := do
  let updatedOn ← lift (timestampOf message)
  let got := fun key => match message.getD key .null with | .ok value => value | .error _ => .null
  write fun s => { s with tracked := s.tracked ++ [[("status", .str "received"), ("service", .str "tasks"),
    ("source", .str "rhc-worker-script"), ("account", got "account"), ("org_id", got "org_id"),
    ("inventory_id", got "id"), ("request_id", got "request_id"),
    ("status_msg", .str "Tasks backend starting to process rhc-worker-script payload"),
    ("date", updatedOn)]] }

def uploadOf (message : Json) (upload : Option Json) : Except Exception (Json × Json) := do
  let _ ← message.item "url"
  match upload with
  | none => .error .valueError
  | some contents => do
    let runId ← contents.item "correlation_id"
    let stdout ← contents.item "stdout"
    return (runId, stdout)

def handleScriptJobUpdates (message : Json) (upload : Option Json) : Run Unit := do
  trackUpload message
  let (runId, stdout) ← lift (uploadOf message upload)
  match ← lift (← read fun s => s.jobWithRunId runId) with
  | none => pure ()
  | some job => do
    let job ← parseJsonFromStdout lib job stdout .script
    let _ ← updateJobStatus lib now job job.status .null

def cancelJob (job : Job) : Job := { job with status := .cancelled }

def cancelRunning (extaskId : Nat) (s : State) : State :=
  let running := fun (job : Job) => job.executedTask = extaskId && job.status = .running
  let cancelled : Update Job.id := ⟨cancelJob, fun _ => rfl⟩
  { s with
    jobs := s.jobs.updateWhere running cancelled
    storable := fun row hrow => by
      obtain ⟨old, hold, rfl⟩ := Table.mem_updateWhere.mp hrow
      have hs := s.storable old hold
      split
      · exact hs
      · exact hs }

/-- `refused` says that a request to the dispatcher raises; there is one only for running jobs. -/
def cancel (extaskId : Nat) (orgId : String) (refused : Bool) : Run Unit := do
  match ← read fun s => (s.executedTasks.get? extaskId).filter fun extask => extask.orgId = orgId with
  | none => pure ()
  | some extask =>
    if extask.status = .running then
      if refused && .running ∈ (← read fun s => s.jobStatuses extask.id) then raise .valueError
      else do
        write (cancelRunning extask.id)
        updateExecutedTaskStatus now extask none true false

def stale (task : Task) (job : Job) : Bool :=
  job.status = .running && job.updatedOn < now - task.timeout * 1000000

def timeOutJob (job : Job) : Job := { job with status := .timeout, updatedOn := now }

def timeOut (task : Task) (job : Job) : Run Unit := do
  job.newLog false (timedOutLine job task.timeout)
  (timeOutJob now job).save

def checkStaleJobsOf (task : Task) (extask : ExecutedTask) : Run Unit := do
  let jobs ← read fun s => s.joined ((s.jobsOf extask.id).filter (stale now task))
  each jobs (timeOut now task)
  updateExecutedTaskStatus now extask none true false

/-- The query joins the jobs: it lists an executed task once for each of its stale jobs. -/
def timedOutExtasks (task : Task) (s : State) : List ExecutedTask :=
  s.executedTasks.rows.flatMap fun extask =>
    if extask.task = task.id then ((s.jobsOf extask.id).filter (stale now task)).map fun _ => extask else []

def checkStaleJobsFor (task : Task) : Run Unit := do
  let extasks ← read (timedOutExtasks now task)
  each extasks (checkStaleJobsOf now task)

/-- Each turn reads the clock. -/
def staleJobTimeout (clock : Task → Instant) : Run Unit := do
  let tasks ← read fun s => s.tasks.rows.filter (·.active)
  each tasks fun task => checkStaleJobsFor (clock task) task

end Advisor.Tasks
