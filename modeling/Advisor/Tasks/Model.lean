import Advisor.Models
import Advisor.Python.Procedure

/-! Executed tasks and their jobs: the rows, and what every writer of them uses. -/

namespace Advisor

def AdvisorInventoryHost.displayName (row : AdvisorInventoryHost) : String :=
  match row.columns.lookup "display_name" with
  | some (some (.text name)) => name
  | _ => ""

namespace Tasks

open Python Procedure Django Relational

inductive JobStatus where
  | running
  | success
  | failure
  | timeout
  | cancelled
  deriving DecidableEq

namespace JobStatus

def value : JobStatus → Nat
  | running => 1
  | success => 2
  | failure => 3
  | timeout => 4
  | cancelled => 5

def ofName? (name : String) : Option JobStatus :=
  [("RUNNING", running), ("SUCCESS", success), ("FAILURE", failure), ("TIMEOUT", timeout),
    ("CANCELLED", cancelled)].lookup name

def label : JobStatus → String
  | running => "Running"
  | success => "Success"
  | failure => "Failure"
  | timeout => "Timeout"
  | cancelled => "Cancelled"

end JobStatus

inductive ExecutedTaskStatus where
  | running
  | completed
  | completedWithErrors
  | failure
  | cancelled
  deriving DecidableEq

def ExecutedTaskStatus.label : ExecutedTaskStatus → String
  | running => "Running"
  | completed => "Completed"
  | completedWithErrors => "Completed With Errors"
  | failure => "Failure"
  | cancelled => "Cancelled"

inductive TaskType where
  | ansible
  | script
  deriving DecidableEq

structure Task where
  id : Nat
  slug : String
  type : TaskType
  active : Bool
  timeout : Nat
  timeout_lt : timeout < 2 ^ 31
  deriving DecidableEq

/-- The id, the name and the user are as long as their columns admit. -/
structure ExecutedTask where
  id : Nat
  name : String
  task : Nat
  orgId : String
  initiatedBy : String
  status : ExecutedTaskStatus
  endTime : Option Instant := none
  id_lt : id < 2 ^ 31
  name_length : name.length ≤ 200
  initiatedBy_storable : charStorable 80 initiatedBy
  deriving DecidableEq

structure Job where
  id : Nat
  executedTask : Nat
  systemId : Uuid
  status : JobStatus
  stdout : String := ""
  results : Json := .dict []
  updatedOn : Instant
  runId : Uuid
  deriving DecidableEq

def Job.storable (job : Job) : Bool := !job.stdout.toList.contains '\x00' && jsonStorable job.results

structure JobLog where
  job : Nat
  isOk : Bool
  line : String
  line_length : line.length ≤ 255
  deriving DecidableEq

/-- An event sent to the notifications topic; all of its events have one payload. -/
structure EventMessage where
  eventType : String
  orgId : String
  context : List (String × Json)
  payload : List (String × Json)

structure State where
  inventory : Table AdvisorInventoryHost.key
  tasks : Table Task.id
  executedTasks : Table ExecutedTask.id
  jobs : Table Job.id
  logs : List JobLog := []
  sent : List EventMessage := []
  tracked : List (List (String × Json)) := []
  storable : ∀ job ∈ jobs, job.storable

theorem storable_empty : ∀ job ∈ (.empty : Table Job.id), job.storable := by
  intro job hjob
  cases hjob

/-- Text and time handling the service relies on: `str.upper`, `str` of a time, and `json.loads`
with the text of the exception it raises. -/
structure TaskLibrary where
  django : Library
  upper : String → String
  showTime : Instant → String
  loads : String → Except String Json
  showTime_length : ∀ t, (showTime t).length ≤ 32

abbrev Run (α : Type) := Procedure Exception State α

namespace State

def jobsOf (s : State) (extask : Nat) : List Job := s.jobs.rows.filter fun job => job.executedTask = extask

def jobStatuses (s : State) (extask : Nat) : List JobStatus := (s.jobsOf extask).map (·.status)

/-- The hosts `job.system` can stand for: the relation compares the inventory id alone. -/
def systems (s : State) (job : Job) : List AdvisorInventoryHost :=
  s.inventory.rows.filter fun row => row.inventoryId = job.systemId

def joined (s : State) (jobs : List Job) : List Job :=
  jobs.flatMap fun job => List.replicate (max 1 (s.systems job).length) job

end State

def overwrite {κ ρ : Type} (key : ρ → κ) : Merge key := ⟨fun _ new => new, fun _ _ => rfl⟩

theorem get?_overwrite {κ ρ : Type} {key : ρ → κ} [DecidableEq κ] (t : Table key) (row : ρ) (k : κ) :
    (t.upsert (overwrite key) row).get? k = if key row = k then some row else t.get? k := by
  rw [Table.get?_upsert]
  cases t.get? k <;> rfl

theorem mem_overwrite {κ ρ : Type} {key : ρ → κ} [DecidableEq κ] {t : Table key} {row r : ρ} :
    r ∈ t.upsert (overwrite key) row ↔ r = row ∨ r ∈ t ∧ key r ≠ key row := by
  rw [Table.mem_iff_get?, get?_overwrite]
  by_cases h : key row = key r
  · rw [if_pos h]
    simp only [Option.some.injEq, h, ne_eq, not_true_eq_false, and_false, or_false]
    exact eq_comm
  · rw [if_neg h, ← Table.mem_iff_get?]
    constructor
    · intro hr
      exact Or.inr ⟨hr, Ne.symm h⟩
    · intro hr
      rcases hr with hr | hr
      · exact absurd (congrArg key hr).symm h
      · exact hr.1

def State.withJob (s : State) (job : Job) (h : job.storable) : State :=
  { s with
    jobs := s.jobs.upsert (overwrite Job.id) job
    storable := fun row hrow => by
      rcases mem_overwrite.mp hrow with hr | hr
      · rwa [hr]
      · exact s.storable row hr.1 }

def Job.save (job : Job) : Run Unit :=
  if h : job.storable then write fun s => s.withJob job h
  else if job.stdout.toList.contains '\x00' then raise .valueError
  else raise .dataError

def ExecutedTask.save (extask : ExecutedTask) : Run Unit :=
  write fun s => { s with executedTasks := s.executedTasks.upsert (overwrite ExecutedTask.id) extask }

/-- The column of the line takes 255 characters. -/
def Job.newLog (job : Job) (isOk : Bool) (line : String) : Run Unit :=
  if h : line.length ≤ 255 then write fun s => { s with logs := s.logs ++ [⟨job.id, isOk, line, h⟩] }
  else raise .dataError

def sendEventMessage (message : EventMessage) : Run Unit :=
  write fun s => { s with sent := s.sent ++ [message] }

def onlyJob : List Job → Except Exception (Option Job)
  | [] => .ok none
  | [job] => .ok (some job)
  | _ => .error .multipleObjectsReturned

/-- `Job.objects.get(run_id=…)`; `none` for `DoesNotExist`. -/
def State.jobWithRunId (s : State) : Json → Except Exception (Option Job)
  | .null => .ok none
  | runId => do
    let u ← uuidOf runId
    onlyJob (s.joined (s.jobs.rows.filter fun job => job.runId = u))

def parseDatetime (lib : Library) : Json → Except Exception (Option Instant)
  | .str s =>
    match lib.parseDatetime s with
    | .aware t | .naive t => .ok (some t)
    | .unmatched => .ok none
    | .invalid => .error .valueError
  | _ => .error .typeError

end Tasks

end Advisor
