import Advisor.Acks.Views
import Advisor.Python.Procedure
import Advisor.Reports.Subquery

/-! The acks of a rule on single hosts. Two views make them, and each looks for the row it may have to change by
columns of its own, which are not those of the unique key. -/

namespace Advisor.HostAcks

open Python Procedure Django Relational Acks

/-- Every save of an ack, by `auto_now`, is later than those before it. -/
structure State extends Reports.Tables where
  deleted : Nat → Bool
  updatedAt : Nat × String × Uuid → Instant
  now : Instant
  past : ∀ key, updatedAt key < now
  ackHosts : ∀ ack ∈ hostAcks, (hosts.get? ack.host).isSome

/-- `request.auth['org_id']`, `request.account` and the name of the user, if the identity has one. -/
structure Request where
  orgId : String
  account : Option String
  username : Option String

inductive Failure where
  | badRequest
  | denied
  | notFound
  | dataError
  | uniqueViolation
  | foreignKeyViolation
  | doesNotExist
  deriving DecidableEq

def storable (ack : HostAck) : Bool :=
  ack.account.all (fits 10) && fits 50 ack.orgId && fits 255 ack.justification && fits 255 ack.createdBy

namespace State

def save (s : State) (key : Nat × String × Uuid) (hostAcks : Table HostAck.key)
    (h : ∀ ack ∈ hostAcks, (s.hosts.get? ack.host).isSome) : State where
  toTables := { s.toTables with hostAcks }
  deleted := s.deleted
  updatedAt := Function.update s.updatedAt key s.now
  now := s.now + 1
  past := by
    intro other
    rcases eq_or_ne other key with rfl | hne
    · rw [Function.update_self]
      exact lt_add_one s.now
    · rw [Function.update_of_ne hne]
      exact (s.past other).trans (lt_add_one s.now)
  ackHosts := h

theorem host_eq {a b : HostAck} (h : a.key = b.key) : a.host = b.host := congrArg (·.2.2) h

def update (s : State) (key : Nat × String × Uuid) (change : Update HostAck.key) : State :=
  s.save key (s.hostAcks.updateWhere (fun old => old.key = key) change) <| by
    intro ack hack
    obtain ⟨old, hold, rfl⟩ := Table.mem_updateWhere.mp hack
    split
    · rw [host_eq (change.2 old)]
      exact s.ackHosts old hold
    · exact s.ackHosts old hold

/-- The foreign key is looked at when the transaction ends, and so after the unique key. -/
def insert (s : State) (ack : HostAck) : Except Failure State :=
  match h : s.hostAcks.insert? ack with
  | none => .error .uniqueViolation
  | some hostAcks =>
    if hhost : (s.hosts.get? ack.host).isSome then
      .ok <| s.save ack.key hostAcks <| by
        intro other hother
        rcases (Table.mem_insert? h other).mp hother with hold | rfl
        · exact s.ackHosts other hold
        · exact hhost
    else .error .foreignKeyViolation

end State

def updateOrCreate (chosen : State → HostAck → Bool) (change : Update HostAck.key) (ack : HostAck) :
    Procedure Failure State Unit := fun s =>
  if !storable ack then (.error .dataError, s)
  else
    match s.hostAcks.rows.find? fun old => old.key = ack.key && chosen s old with
    | some old => (.ok (), s.update old.key change)
    | none =>
      match s.insert ack with
      | .ok s' => (.ok (), s')
      | .error e => (.error e, s)

def activeRule (s : State) (ruleId : String) : Option Rule :=
  s.rules.rows.find? fun rule => rule.ruleId = ruleId && rule.active

def requestToUsername (request : Request) : Except Failure String :=
  match request.username with
  | some username => .ok username
  | none => .error .denied

namespace HostAckViewSet

variable (castTime : Reports.CastTime) (request : Request)

def getQueryset (s : State) (ack : HostAck) : Bool :=
  ack.orgId = request.orgId && (s.rules.get? ack.rule).any (fun rule => rule.active && !s.deleted rule.id) &&
    (Reports.staleSystemsQ castTime s.toTables request.orgId s.now ack.host).holds

/-- `HostAckInputSerializer`: the rule is one of the active ones, deleted or not. A text is the one left of it by the
serializer, which strips it. -/
def inputData (ruleId : String) (justification : Option String) (s : State) : Except Failure (Rule × String) :=
  match activeRule s ruleId with
  | none => .error .badRequest
  | some rule =>
    if fits 255 (justification.getD "") then .ok (rule, justification.getD "") else .error .badRequest

def defaults (account : Option String) (justification createdBy : String) : Update HostAck.key :=
  ⟨fun old => { old with account, justification, createdBy }, fun _ => rfl⟩

/-- `get_display_name`: the row of the inventory is that of the organisation the host has. -/
def getDisplayName (host : Uuid) (s : State) : Except Failure Unit :=
  match s.hosts.get? host with
  | none => .error .doesNotExist
  | some row => if (s.inventory.get? (row.orgId, row.inventoryId)).isSome then .ok () else .error .doesNotExist

def create (ruleId : String) (host : Uuid) (justification : Option String) : Procedure Failure State Unit := do
  let input ← read (inputData ruleId justification)
  let (rule, justification) ← lift input
  let createdBy ← lift (requestToUsername request)
  updateOrCreate (getQueryset castTime request) (defaults request.account justification createdBy)
    ⟨rule.id, host, request.account, request.orgId, justification, createdBy⟩
  let displayName ← read (getDisplayName host)
  lift displayName

end HostAckViewSet

namespace RuleViewSet

variable (request : Request)

/-- `get_object` and `MultiHostAckSerializer`: the inventory of the organisation has the hosts. -/
def inputData (ruleId : String) (systems : List Uuid) (justification : Option String) (s : State) :
    Except Failure (Rule × String) :=
  match activeRule s ruleId with
  | none => .error .notFound
  | some rule =>
    match justification with
    | none => .error .badRequest
    | some justification =>
      if fits 255 justification && systems.all fun host => (s.inventory.get? (request.orgId, host)).isSome then
        .ok (rule, justification)
      else .error .badRequest

def defaults (justification createdBy : String) : Update HostAck.key :=
  ⟨fun old => { old with justification, createdBy }, fun _ => rfl⟩

/-- Each turn of the loop is a transaction of its own. -/
def ackHosts (ruleId : String) (systems : List Uuid) (justification : Option String) :
    Procedure Failure State Unit := do
  let createdBy ← lift (requestToUsername request)
  let input ← read (inputData request ruleId systems justification)
  let (rule, justification) ← lift input
  each systems fun host =>
    updateOrCreate (fun _ old => old.account = request.account) (defaults justification createdBy)
      ⟨rule.id, host, request.account, request.orgId, justification, createdBy⟩

end RuleViewSet

inductive Action where
  | create (ruleId : String) (host : Uuid) (justification : Option String)
  | ackHosts (ruleId : String) (systems : List Uuid) (justification : Option String)

namespace Action

def run (castTime : Reports.CastTime) (request : Request) : Action → Procedure Failure State Unit
  | create ruleId host justification => HostAckViewSet.create castTime request ruleId host justification
  | ackHosts ruleId systems justification => RuleViewSet.ackHosts request ruleId systems justification

def ruleId : Action → String
  | create ruleId _ _ | ackHosts ruleId _ _ => ruleId

def systems : Action → List Uuid
  | create _ host _ => [host]
  | ackHosts _ systems _ => systems

def justification : Action → Option String
  | create _ _ justification | ackHosts _ _ justification => justification

end Action

end Advisor.HostAcks
