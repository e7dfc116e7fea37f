import Advisor.Models
import Advisor.Python.Procedure

/-! The service that stores the reports of uploads: its tables and messages, the settings and the
arguments of a call, and the points at which the database or a producer can let a call down. -/

namespace Advisor

open Python Django

namespace AdvisorInventoryHost

variable (row : AdvisorInventoryHost)

def text? (name : String) : Option String :=
  match row.columns.lookup name with
  | some (some (.text text)) => some text
  | _ => none

def int? (name : String) : Option Int :=
  match row.columns.lookup name with
  | some (some (.int i)) => some i
  | _ => none

def account : Option String := row.text? "account"

def rhelVersion : String :=
  match row.int? "os_major", row.int? "os_minor", (row.text? "os_name").filter (· ≠ "") with
  | some major, some minor, _ => toString major ++ "." ++ toString minor
  | some major, none, _ => toString major
  | none, _, some name => "Unknown " ++ name ++ " version"
  | none, _, none => "Unknown system version"

end AdvisorInventoryHost

def Rule.hasIncident (rule : Rule) : Bool := rule.tags.contains "incident"

namespace Service

open Procedure Relational

structure InventoryViewCounts where
  incidents : Nat := 0
  critical : Nat := 0
  important : Nat := 0
  moderate : Nat := 0
  low : Nat := 0
  deriving DecidableEq

structure ReportEvent where
  ruleId : String
  ruleDescription : String
  totalRisk : String
  publishDate : Instant
  ruleUrl : String
  rebootRequired : Bool
  hasIncident : Bool
  deriving DecidableEq

structure WebhookMessage where
  eventType : String
  accountId : Option String
  orgId : String
  inventoryId : Uuid
  displayName : Option String
  rhelVersion : String
  tags : Option (Option Value)
  events : List ReportEvent
  deriving DecidableEq

inductive Message where
  | webhook (message : WebhookMessage)
  | remediations (hostId : Uuid) (issues : List String)
  | inventoryView (orgId : String) (hostId : Uuid) (recommendations : Nat) (counts : InventoryViewCounts)
  deriving DecidableEq

structure State where
  inventory : Table AdvisorInventoryHost.key
  rules : Table Rule.id
  hosts : Table Host.inventoryId
  uploads : Table Upload.id
  reports : Table CurrentReport.key
  acks : Table Ack.key
  hostAcks : Table HostAck.key
  sent : List Message := []
  ruleIds : (rules.rows.map (·.ruleId)).Nodup

/-- A topic that is not configured gets no messages. -/
structure Settings where
  filterOutNonRhel : Bool
  filterOutNonRhelRuleId : List String
  filterOutRhel6 : Bool
  filterOutRhel6RuleIds : List String
  webhooksTopic : Bool
  remediationsHookTopic : Bool
  inventoryViewTopic : Bool
  advisorUrlPrefix : String

def autoackTag : String := "autoack"

/-- Arguments of `create_db_reports`, with the two times it takes from the clock. -/
structure UploadCall where
  reports : List Json
  inventoryId : Uuid
  account : Option String
  orgId : String
  systemType : Nat
  source : String
  satelliteManaged : Bool := false
  satelliteId : Option Uuid := none
  branchId : Option Uuid := none
  checkedOn : Instant
  now : Instant

/-- Where a call talks to the database or to a producer. -/
inductive Site where
  | hostLookup
  | orgUploads
  | autoackRules
  | ackInsert
  | hostUpdate
  | hostInsert
  | lock
  | snapshot
  | uploadSource
  | upload
  | reportRules
  | orgAcks
  | hostAcks
  | reportInsert
  | reportUpdate (i : Nat)
  | reportDelete
  | inventoryHost
  | ackedRules
  | newEvent
  | resolvedEvent
  | remediationsEvent
  | viewEvent
  | commit
  deriving DecidableEq

/-- Which of them fail. -/
abbrev Faults := Site → Option Exception

abbrev Run (α : Type) := Procedure Exception State α

variable {α : Type}

def statement (faults : Faults) (site : Site) (p : Run α) : Run α :=
  match faults site with
  | some e => raise e
  | none => p

def send (faults : Faults) (site : Site) (message : Message) : Run Unit :=
  match faults site with
  | some _ => pure ()
  | none => write fun s => { s with sent := s.sent ++ [message] }

/-- The tables of `s` again; what has been sent stays sent. -/
def State.rolledBack (s s' : State) : State := { s with sent := s'.sent }

/-- `with transaction.atomic()`. The body says whether an error of the database has been caught in it: then
the commit rolls back, without an exception. -/
def transaction (faults : Faults) (p : Run Bool) : Run Unit := fun s =>
  match p s with
  | (.error e, s') => (.error e, s.rolledBack s')
  | (.ok aborted, s') =>
    match faults .commit with
    | some e => (.error e, s.rolledBack s')
    | none => (.ok (), if aborted then s.rolledBack s' else s')

end Service

end Advisor
