import Advisor.Relational.Rebase
import Advisor.Service.LegacyDelete
import Advisor.Service.Statements

/-! Uploads and delete events of a host on the thread pool: each statement reads what is committed by then, and the
row of the host is locked by one upload at a time. -/

namespace Advisor.Service

open Python Procedure Django Relational

inductive Call where
  | upload (call : UploadCall)
  | delete (filter : HostFilter)

namespace Call

def serve (settings : Settings) : Call → State → Bool × State
  | .upload call, s =>
    match createDbReports settings noFaults call s with
    | (.ok success, s') => (success, s')
    | (.error _, s') => (false, s')
  | .delete f, s => (true, f.remove (f.remove (f.remove s .uploads) .reports) .hostAcks)

def On (host : Uuid) : Call → Prop
  | .upload call => call.inventoryId = host
  | .delete f => f.host = some host

instance (host : Uuid) (call : Call) : Decidable (call.On host) := by
  unfold On
  split <;> infer_instance

end Call

def serveAll (settings : Settings) : List Call → State → List Bool × State
  | [], s => ([], s)
  | call :: rest, s =>
    let served := serveAll settings rest (call.serve settings s).2
    ((call.serve settings s).1 :: served.1, served.2)

/-- An upload that has the lock sees the tables as `own`. -/
inductive Session where
  | waiting (call : Call)
  | starting (call : UploadCall) (stage : Stage)
  | locked (call : UploadCall) (rest : Block Exception State Bool) (own : State)
  | deleting (filter : HostFilter) (left : List Deletion)
  | returned (call : Call) (success : Bool)

/-- What an open transaction sees when others have committed; no other call that may come in between sends messages. -/
def State.rebase (own old new : State) : State :=
  { own with
    hosts := own.hosts.rebase old.hosts new.hosts
    uploads := own.uploads.rebase old.uploads new.uploads
    reports := own.reports.rebase old.reports new.reports
    acks := own.acks.rebase old.acks new.acks
    hostAcks := own.hostAcks.rebase old.hostAcks new.hostAcks }

theorem State.rebase_self (own s : State) : own.rebase s s = own := by
  simp only [State.rebase, Table.rebase_self]

/-- It writes to the row of the host, or locks it. -/
def Stage.waits : Stage → Bool
  | .hostUpdate => true
  | .hostSave _ => true
  | .lock => true
  | _ => false

namespace Session

def call : Session → Call
  | .waiting call => call
  | .starting call _ => .upload call
  | .locked call _ _ => .upload call
  | .deleting f _ => .delete f
  | .returned call _ => call

def isLocked : Session → Bool
  | .locked _ _ _ => true
  | _ => false

def locks (host : Uuid) : Session → Bool
  | .locked call _ _ => call.inventoryId = host
  | _ => false

def holds (f : HostFilter) (deletion : Deletion) (s : State) : Session → Bool
  | .locked _ _ own =>
    match deletion with
    | .uploads =>
      !decide (own.uploads.Unwritten s.uploads f.upload) ||
        !decide (own.reports.Unwritten s.reports fun row => (s.uploads.get? row.upload).any f.upload)
    | .reports => !decide (own.reports.Unwritten s.reports f.report)
    | .hostAcks => false
  | _ => false

def observe (old new : State) : Session → Session
  | .locked call rest own => .locked call rest (own.rebase old new)
  | session => session

section Next

variable (settings : Settings) (s : State) (others : List Session)

/-- Up to the lock each statement is committed at once. -/
def start (call : UploadCall) (stage : Stage) : Option (Session × State) :=
  if stage.waits && others.any (locks call.inventoryId) then none
  else
    match stage with
    | .lock =>
      match lockHost call s with
      | (.ok _, s') => some (.locked call (underLock settings call) s', s')
      | (.error _, s') => some (.returned (.upload call) false, s')
    | stage =>
      match stage.next call s with
      | (.ok stage, s') => some (.starting call stage, s')
      | (.error _, s') => some (.returned (.upload call) false, s')

def finish (call : UploadCall) (result : Except Exception Bool) (own : State) : Session × State :=
  let committed := transaction noFaults (fun _ => (result, own)) s
  (.returned (.upload call) committed.1.isOk, committed.2)

/-- `delete()` is one transaction. -/
def remove (f : HostFilter) (deletion : Deletion) (left : List Deletion) : Option (Session × State) :=
  if others.any (holds f deletion s) then none else some (.deleting f left, f.remove s deletion)

/-- The next statement of a session, unless it has returned or has to wait for one of the others. -/
def next : Session → Option (Session × State)
  | .waiting (.upload call) => start settings s others call .hostLookup
  | .waiting (.delete f) => remove s others f .uploads [.reports, .hostAcks]
  | .starting call stage => start settings s others call stage
  | .locked call (.statement write next) own => some (.locked call (next own) (write own), s)
  | .locked call (.done result) own => some (finish s call result own)
  | .deleting f (deletion :: left) => remove s others f deletion left
  | .deleting f [] => some (.returned (.delete f) true, s)
  | .returned _ _ => none

end Next

end Session

structure System where
  db : State
  sessions : List Session

namespace System

def start (s : State) (calls : List Call) : System := ⟨s, calls.map .waiting⟩

def step (settings : Settings) (t : System) (i : Nat) : Option System :=
  match t.sessions[i]? with
  | none => none
  | some session =>
    match session.next settings t.db (t.sessions.eraseIdx i) with
    | none => none
    | some (session', db) => some ⟨db, (t.sessions.map (Session.observe t.db db)).set i session'⟩

def returned (t : System) : List (Call × Bool) :=
  t.sessions.filterMap fun
    | .returned call success => some (call, success)
    | _ => none

def AtRest (t : System) : Prop :=
  ∀ session ∈ t.sessions, ∃ call, session = .waiting call ∨ ∃ success, session = .returned call success

end System

/-- The systems that are reached by steps that meet `P`. -/
inductive Reached (settings : Settings) (P : System → Nat → Prop) (t₀ : System) : System → Prop
  | start : Reached settings P t₀ t₀
  | step {t t' : System} {i : Nat} : Reached settings P t₀ t → P t i → t.step settings i = some t' →
      Reached settings P t₀ t'

/-- The rows that are there when all calls have returned are those of some order of the calls, in which each of them
returns what it has returned. -/
def Serialised (settings : Settings) (s : State) (t : System) : Prop :=
  t.AtRest → ∃ order : List (Call × Bool), order.Perm t.returned ∧
    (serveAll settings (order.map Prod.fst) s).1 = order.map Prod.snd ∧
    t.db.uploads = (serveAll settings (order.map Prod.fst) s).2.uploads ∧
    t.db.reports = (serveAll settings (order.map Prod.fst) s).2.reports ∧
    t.db.acks = (serveAll settings (order.map Prod.fst) s).2.acks ∧
    t.db.hostAcks = (serveAll settings (order.map Prod.fst) s).2.hostAcks

namespace Session

def uploaded : Session → Bool
  | .returned (.upload call) _ => call.identified
  | _ => false

def midway : Session → Bool
  | .deleting _ (_ :: _) => true
  | _ => false

/-- No upload has the lock when a delete removes rows, and no delete is midway when an upload takes it; acks and host
are inserted where they are missing; and the first upload of a new host finds the acks that it would have inserted. -/
def Orderly (start s : State) (others : List Session) : Session → Prop
  | .waiting (.delete _) => ∀ other ∈ others, other.isLocked = false
  | .deleting _ (_ :: _) => ∀ other ∈ others, other.isLocked = false
  | .starting call (.ackInsert rules) => s.hosts.get? call.inventoryId = none ∧ s.autoackRules = rules
  | .starting call .hostInsert => s.hosts.get? call.inventoryId = none
  | .starting call .lock =>
    (∀ other ∈ others, other.midway = false) ∧
      ((start.hosts.get? call.inventoryId).isSome ∨ (∃ other ∈ others, other.uploaded = true) ∨
        s.acks.rows = start.acks.rows ++ start.newAcks call)
  | _ => True

instance (start s : State) (others : List Session) (session : Session) :
    Decidable (session.Orderly start s others) := by
  unfold Orderly
  split <;> infer_instance

end Session

namespace System

def Orderly (start : State) (t : System) (i : Nat) : Prop :=
  match t.sessions[i]? with
  | some session => session.Orderly start t.db (t.sessions.eraseIdx i)
  | none => True

instance (start : State) (t : System) (i : Nat) : Decidable (t.Orderly start i) := by
  unfold Orderly
  split <;> infer_instance

def run (settings : Settings) (start : State) (schedule : List Nat) (t : System) : Option System :=
  schedule.foldlM (fun t i => if t.Orderly start i then t.step settings i else none) t

end System

theorem reached_of_run {settings : Settings} {start : State} {t₀ t t' : System} {schedule : List Nat}
    (h : Reached settings (System.Orderly start) t₀ t) (hrun : t.run settings start schedule = some t') :
    Reached settings (System.Orderly start) t₀ t' := by
  induction schedule generalizing t with
  | nil =>
    cases hrun
    exact h
  | cons i rest ih =>
    rw [System.run, List.foldlM_cons] at hrun
    obtain ⟨next, hnext, hrest⟩ := Option.bind_eq_some_iff.mp hrun
    split_ifs at hnext with horderly
    exact ih (.step h horderly hnext) hrest

end Advisor.Service
