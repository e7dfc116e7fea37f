import Advisor.Inventory.Event
import Advisor.Service.Call

/-! What the results service does with a delete event of the inventory: three deletions, each tried again a few
times when the connection fails. -/

namespace Advisor.Service

open Python Procedure Django Relational

inductive ConnectionError where
  | operationalError
  | interfaceError

inductive Raised where
  | connection (e : ConnectionError)
  | other (e : Exception)

abbrev Cleanup (α : Type) := Procedure Raised State α

inductive Deletion where
  | uploads
  | reports
  | hostAcks

/-- The attempts of a deletion that fail, from 0 on. `delete()` is one transaction: an attempt that fails at any of
its statements has removed nothing. -/
abbrev Outages := Deletion → Nat → Option ConnectionError

structure CleanupSettings where
  dbRetryConstant : Nat := 3
  debug : Bool := false

/-- What a log call with `extra` must not set. -/
def recordFields : List String :=
  ["message", "asctime", "name", "msg", "args", "levelname", "levelno", "pathname", "filename", "module", "exc_info",
    "exc_text", "stack_info", "lineno", "funcName", "created", "msecs", "relativeCreated", "thread", "threadName",
    "processName", "process", "taskName"]

def clash? (items : List (String × Json)) : Option String :=
  (items.map Prod.fst).find? fun key => recordFields.contains key

def logWith (items : List (String × Json)) : Cleanup Unit :=
  match clash? items with
  | some key => raise (.other (.keyError ("Attempt to overwrite '" ++ key ++ "' in LogRecord")))
  | none => pure ()

/-- What the deletions filter by; nothing equals `None`. -/
structure HostFilter where
  host : Option Uuid
  orgId : Option String

namespace HostFilter

variable (f : HostFilter)

def selects (host : Uuid) (orgId : String) : Bool := f.host = some host && f.orgId = some orgId

def upload (row : Upload) : Bool := f.selects row.host row.orgId && row.current

def report (row : CurrentReport) : Bool := f.selects row.host row.orgId

def hostAck (row : HostAck) : Bool := f.selects row.host row.orgId

def remove (s : State) : Deletion → State
  | .uploads =>
    { s with
      uploads := s.uploads.deleteWhere f.upload
      reports := s.reports.deleteWhere fun row => (s.uploads.get? row.upload).any f.upload }
  | .reports => { s with reports := s.reports.deleteWhere f.report }
  | .hostAcks => { s with hostAcks := s.hostAcks.deleteWhere f.hostAck }

end HostFilter

variable (lib : Library) (settings : CleanupSettings) (outages : Outages) (items : List (String × Json))

def hostOf : Json → Except Exception (Option Uuid)
  | .null => .ok none
  | id => (uuidOf id).map some

def orgOf : Json → Except Exception (Option String)
  | .null => .ok none
  | orgId => (textOf lib orgId).map some

def field (key : String) : Json := (items.lookup key).getD .null

def debugWith : Cleanup Unit := if settings.debug then logWith items else pure ()

/-- The text of the organisation is not looked at before the connection is. -/
def attempt (deletion : Deletion) (i : Nat) : Cleanup Unit := do
  debugWith settings items
  let host ← lift ((hostOf (field items "id")).mapError .other)
  match outages deletion i with
  | some e => raise (.connection e)
  | none => do
    let orgId ← lift ((orgOf lib (field items "org_id")).mapError .other)
    write fun s => HostFilter.remove ⟨host, orgId⟩ s deletion

/-- There are `n` attempts left; raising no exception is a `TypeError`. -/
def retrying (deletion : Deletion) : Nat → Nat → Option ConnectionError → Cleanup Unit
  | 0, _, lastError => do
    logWith items
    raise (match lastError with
      | some e => .connection e
      | none => .other .typeError)
  | n + 1, i, _ =>
    catching (attempt lib settings outages items deletion i) fun
      | .connection e => do
        logWith items
        retrying deletion n (i + 1) (some e)
      | .other e => raise (.other e)

def requiredKeys : List String := ["id", "org_id", "request_id", "type", "timestamp"]

def handleDelete : Cleanup Unit := do
  retrying lib settings outages items .uploads settings.dbRetryConstant 0 none
  retrying lib settings outages items .reports settings.dbRetryConstant 0 none
  retrying lib settings outages items .hostAcks settings.dbRetryConstant 0 none

def handleInventoryEvent (message : Json) : Cleanup Unit :=
  match message with
  | .dict items =>
    let eventType := field items "type"
    if !eventType.truthy then raise (.other .valueError)
    else if eventType.eq (.str "delete") then
      if requiredKeys.all fun key => (items.lookup key).isSome then handleDelete lib settings outages items
      else do
        logWith items
        raise (.other .valueError)
    else pure ()
  | _ => raise (.other .attributeError)

/-- The event has its keys, and its host and organisation can be filtered by. -/
structure Filters (f : HostFilter) : Prop where
  keys : requiredKeys.all (fun key => (items.lookup key).isSome) = true
  host : hostOf (field items "id") = .ok f.host
  orgId : orgOf lib (field items "org_id") = .ok f.orgId

structure Cleared (f : HostFilter) (s : State) : Prop where
  uploads : ∀ row ∈ s.uploads, f.upload row = false
  reports : ∀ row ∈ s.reports, f.report row = false
  hostAcks : ∀ row ∈ s.hostAcks, f.hostAck row = false

/-- The tables of the deletions hold what they held. -/
structure Kept (s s' : State) : Prop where
  uploads : s'.uploads.Same s.uploads
  reports : s'.reports.Same s.reports
  hostAcks : s'.hostAcks.Same s.hostAcks

/-- The event is handled and the rows are gone, or it raises and they are all there. -/
def AllOrNothing (s : State) : Prop :=
  match handleInventoryEvent lib settings outages (.dict items) s with
  | (.ok _, s') => ∃ f, Filters lib items f ∧ Cleared f s'
  | (.error _, s') => Kept s s'

/-- One of the attempts does not fail; where the failure of an earlier one cannot be logged, the first. -/
def GoesThrough (deletion : Deletion) : Prop :=
  ∃ i < settings.dbRetryConstant, outages deletion i = none ∧ ((clash? items).isSome → i = 0 ∧ settings.debug = false)

variable {lib settings outages items} {s : State} {f : HostFilter} {deletion : Deletion}

theorem Kept.refl (s : State) : Kept s s := ⟨.refl _, .refl _, .refl _⟩

variable (items) in
theorem logWith_cases (s : State) :
    (clash? items = none ∧ logWith items s = (.ok (), s)) ∨
      ((clash? items).isSome ∧ ∃ e, logWith items s = (.error (.other e), s)) := by
  unfold logWith
  cases clash? items with
  | none => exact Or.inl ⟨rfl, rfl⟩
  | some key => exact Or.inr ⟨rfl, _, rfl⟩

variable (settings items) in
theorem debugWith_cases (s : State) :
    (settings.debug = true ∧ (clash? items).isSome ∧ ∃ e, debugWith settings items s = (.error (.other e), s)) ∨
      ((clash? items).isSome → settings.debug = false) ∧ debugWith settings items s = (.ok (), s) := by
  unfold debugWith
  cases settings.debug with
  | false => exact Or.inr ⟨fun _ => rfl, rfl⟩
  | true =>
    rcases logWith_cases items s with ⟨hnone, hrun⟩ | ⟨hsome, e, hrun⟩
    · exact Or.inr ⟨fun h => by simp [hnone] at h, hrun⟩
    · exact Or.inl ⟨rfl, hsome, e, hrun⟩

/-- An attempt removes its rows, or raises and leaves the state as it is. -/
theorem attempt_cases (hf : Filters lib items f) (i : Nat) (s : State) :
    (outages deletion i = none ∧ ((clash? items).isSome → settings.debug = false) ∧
        attempt lib settings outages items deletion i s = (.ok (), f.remove s deletion)) ∨
      (∃ e, attempt lib settings outages items deletion i s = (.error (.other e), s)) ∧
        settings.debug = true ∧ (clash? items).isSome ∨
      ∃ e, attempt lib settings outages items deletion i s = (.error (.connection e), s) ∧ outages deletion i = some e := by
  unfold attempt
  rcases debugWith_cases settings items s with ⟨hdebug, hclash, e, hrun⟩ | ⟨hquiet, hrun⟩
  · exact Or.inr (Or.inl ⟨⟨e, bind_of_error hrun⟩, hdebug, hclash⟩)
  · rw [bind_of_ok hrun, hf.host]
    cases hout : outages deletion i with
    | some e => exact Or.inr (Or.inr ⟨e, rfl, rfl⟩)
    | none =>
      refine Or.inl ⟨rfl, hquiet, ?_⟩
      simp only [hf.orgId]
      rfl

variable (settings outages deletion) in
theorem retrying_cases (hf : Filters lib items f) (n i : Nat) (last : Option ConnectionError) (s : State) :
    ((∃ k < n, outages deletion (i + k) = none ∧ ((clash? items).isSome → k = 0 ∧ settings.debug = false)) ∧
        retrying lib settings outages items deletion n i last s = (.ok (), f.remove s deletion)) ∨
      (¬∃ k < n, outages deletion (i + k) = none ∧ ((clash? items).isSome → k = 0 ∧ settings.debug = false)) ∧
        ∃ e, retrying lib settings outages items deletion n i last s = (.error e, s) := by
  induction n generalizing i last with
  | zero =>
    refine Or.inr ⟨by simp, ?_⟩
    unfold retrying
    rcases logWith_cases items s with ⟨-, hrun⟩ | ⟨-, e, hrun⟩
    · rw [bind_of_ok hrun]
      exact ⟨_, rfl⟩
    · exact ⟨_, bind_of_error hrun⟩
  | succ n ih =>
    rw [retrying, catching]
    rcases attempt_cases hf i s with ⟨hout, hquiet, hrun⟩ | ⟨⟨e, hrun⟩, hdebug, hclash⟩ | ⟨e, hrun, hout⟩
    · rw [hrun]
      exact Or.inl ⟨⟨0, by omega, hout, fun h => ⟨rfl, hquiet h⟩⟩, rfl⟩
    · rw [hrun]
      refine Or.inr ⟨?_, _, rfl⟩
      rintro ⟨k, -, -, hfirst⟩
      rw [(hfirst hclash).2] at hdebug
      cases hdebug
    · rw [hrun]
      dsimp only
      rcases logWith_cases items s with ⟨hnone, hlog⟩ | ⟨hclash, e', hlog⟩
      · rw [bind_of_ok hlog]
        have hshift : (∃ k < n + 1, outages deletion (i + k) = none ∧
              ((clash? items).isSome → k = 0 ∧ settings.debug = false)) ↔
            ∃ k < n, outages deletion (i + 1 + k) = none ∧
              ((clash? items).isSome → k = 0 ∧ settings.debug = false) := by
          constructor
          · rintro ⟨k, hk, hfree, -⟩
            cases k with
            | zero =>
              rw [Nat.add_zero, hout] at hfree
              cases hfree
            | succ k =>
              refine ⟨k, by omega, ?_, fun h => by simp [hnone] at h⟩
              rwa [show i + 1 + k = i + (k + 1) by omega]
          · rintro ⟨k, hk, hfree, -⟩
            refine ⟨k + 1, by omega, ?_, fun h => by simp [hnone] at h⟩
            rwa [show i + (k + 1) = i + 1 + k by omega]
        rw [hshift]
        exact ih (i + 1) (some e)
      · refine Or.inr ⟨?_, _, bind_of_error hlog⟩
        rintro ⟨k, -, hfree, hfirst⟩
        rw [(hfirst hclash).1, Nat.add_zero, hout] at hfree
        cases hfree

variable (lib settings outages deletion) in
theorem retrying_rejected (hkeys : requiredKeys.all (fun key => (items.lookup key).isSome) = true)
    (hf : ¬∃ f, Filters lib items f) (n i : Nat) (last : Option ConnectionError) (s : State) :
    ∃ e, retrying lib settings outages items deletion n i last s = (.error e, s) := by
  have hattempt : ∀ i, ∃ e, attempt lib settings outages items deletion i s = (.error e, s) := by
    intro i
    unfold attempt
    rcases debugWith_cases settings items s with ⟨-, -, e, hrun⟩ | ⟨-, hrun⟩
    · exact ⟨_, bind_of_error hrun⟩
    · rw [bind_of_ok hrun]
      cases hhost : hostOf (field items "id") with
      | error e => exact ⟨_, rfl⟩
      | ok host =>
        cases outages deletion i with
        | some e => exact ⟨_, rfl⟩
        | none =>
          cases horg : orgOf lib (field items "org_id") with
          | error e => exact ⟨.other e, by simp [Except.mapError]⟩
          | ok orgId => exact absurd ⟨⟨host, orgId⟩, hkeys, hhost, horg⟩ hf
  induction n generalizing i last with
  | zero =>
    unfold retrying
    rcases logWith_cases items s with ⟨-, hrun⟩ | ⟨-, e, hrun⟩
    · rw [bind_of_ok hrun]
      exact ⟨_, rfl⟩
    · exact ⟨_, bind_of_error hrun⟩
  | succ n ih =>
    obtain ⟨e, hrun⟩ := hattempt i
    rw [retrying, catching, hrun]
    cases e with
    | other e => exact ⟨_, rfl⟩
    | connection e =>
      dsimp only
      rcases logWith_cases items s with ⟨-, hlog⟩ | ⟨-, e', hlog⟩
      · rw [bind_of_ok hlog]
        exact ih (i + 1) (some e)
      · exact ⟨_, bind_of_error hlog⟩

theorem Cleared.removed (f : HostFilter) (s : State) :
    Cleared f (f.remove (f.remove (f.remove s .uploads) .reports) .hostAcks) := by
  constructor
  · intro row hrow
    exact (Table.mem_deleteWhere.mp hrow).2
  · intro row hrow
    exact (Table.mem_deleteWhere.mp hrow).2
  · intro row hrow
    exact (Table.mem_deleteWhere.mp hrow).2

theorem same_deleteWhere {κ ρ : Type} {key : ρ → κ} {t : Table key} {p : ρ → Bool} :
    (t.deleteWhere p).Same t ↔ ∀ row ∈ t, p row = false := by
  constructor
  · intro h row hrow
    exact (Table.mem_deleteWhere.mp ((h row).mpr hrow)).2
  · intro h row
    rw [Table.mem_deleteWhere]
    exact and_iff_left_of_imp (h row)

theorem kept_uploads_iff : Kept s (f.remove s .uploads) ↔ ∀ row ∈ s.uploads, f.upload row = false := by
  constructor
  · intro h
    exact same_deleteWhere.mp h.uploads
  · intro h
    refine ⟨same_deleteWhere.mpr h, same_deleteWhere.mpr fun row _ => ?_, .refl _⟩
    cases hupload : s.uploads.get? row.upload with
    | none => rfl
    | some upload => exact h upload (Table.get?_eq_some.mp hupload).1

theorem kept_reports_iff :
    Kept s (f.remove (f.remove s .uploads) .reports) ↔
      (∀ row ∈ s.uploads, f.upload row = false) ∧ ∀ row ∈ s.reports, f.report row = false := by
  constructor
  · intro h
    have huploads := same_deleteWhere.mp h.uploads
    refine ⟨huploads, fun row hrow => ?_⟩
    exact (Table.mem_deleteWhere.mp ((h.reports row).mpr hrow)).2
  · rintro ⟨huploads, hreports⟩
    obtain ⟨hup, hrep, hack⟩ := kept_uploads_iff.mpr huploads
    refine ⟨hup, fun row => ?_, hack⟩
    rw [← hrep row]
    exact Table.mem_deleteWhere.trans (and_iff_left_of_imp fun hrow => hreports row ((hrep row).mp hrow))

theorem handleInventoryEvent_delete (htype : items.lookup "type" = some (.str "delete")) :
    handleInventoryEvent lib settings outages (.dict items) =
      if requiredKeys.all fun key => (items.lookup key).isSome then handleDelete lib settings outages items
      else logWith items >>= fun _ => raise (.other .valueError) := by
  have htruthy : (Json.str "delete").truthy = true := by decide
  have heq : (Json.str "delete").eq (.str "delete") = true := by decide
  simp only [handleInventoryEvent, field, htype, Option.getD_some, htruthy, heq, Bool.not_true, Bool.false_eq_true,
    if_false, if_true]

theorem goesThrough_cases (hf : Filters lib items f) (deletion : Deletion) (s : State) :
    (GoesThrough settings outages items deletion ∧
        retrying lib settings outages items deletion settings.dbRetryConstant 0 none s = (.ok (), f.remove s deletion)) ∨
      ¬GoesThrough settings outages items deletion ∧
        ∃ e, retrying lib settings outages items deletion settings.dbRetryConstant 0 none s = (.error e, s) := by
  have h := retrying_cases settings outages deletion hf settings.dbRetryConstant 0 none s
  simp only [Nat.zero_add] at h
  exact h

inductive Progress (settings : CleanupSettings) (outages : Outages) (items : List (String × Json)) (f : HostFilter)
    (s : State) : Except Raised Unit × State → Prop
  | none {e} : ¬GoesThrough settings outages items .uploads → Progress settings outages items f s (.error e, s)
  | uploads {e} : GoesThrough settings outages items .uploads → ¬GoesThrough settings outages items .reports →
      Progress settings outages items f s (.error e, f.remove s .uploads)
  | reports {e} : GoesThrough settings outages items .uploads → GoesThrough settings outages items .reports →
      ¬GoesThrough settings outages items .hostAcks →
      Progress settings outages items f s (.error e, f.remove (f.remove s .uploads) .reports)
  | all : GoesThrough settings outages items .uploads → GoesThrough settings outages items .reports →
      GoesThrough settings outages items .hostAcks →
      Progress settings outages items f s (.ok (), f.remove (f.remove (f.remove s .uploads) .reports) .hostAcks)

theorem handleDelete_progress (hf : Filters lib items f) (s : State) :
    Progress settings outages items f s (handleDelete lib settings outages items s) := by
  unfold handleDelete
  rcases goesThrough_cases hf .uploads s with ⟨huploads, hrun⟩ | ⟨huploads, e, hrun⟩
  swap
  · rw [bind_of_error hrun]
    exact .none huploads
  rw [bind_of_ok hrun]
  rcases goesThrough_cases hf .reports (f.remove s .uploads) with ⟨hreports, hrun⟩ | ⟨hreports, e, hrun⟩
  swap
  · rw [bind_of_error hrun]
    exact .uploads huploads hreports
  rw [bind_of_ok hrun]
  rcases goesThrough_cases hf .hostAcks (f.remove (f.remove s .uploads) .reports) with ⟨hacks, hrun⟩ | ⟨hacks, e, hrun⟩
  · rw [hrun]
    exact .all huploads hreports hacks
  · rw [hrun]
    exact .reports huploads hreports hacks

theorem Filters.unique {g : HostFilter} (hf : Filters lib items f) (hg : Filters lib items g) : g = f := by
  obtain ⟨host, orgId⟩ := g
  obtain rfl : host = f.host := Except.ok.inj (hg.host.symm.trans hf.host)
  obtain rfl : orgId = f.orgId := Except.ok.inj (hg.orgId.symm.trans hf.orgId)
  rfl

variable (lib settings outages s) in
theorem handleInventoryEvent_rejected (htype : items.lookup "type" = some (.str "delete"))
    (hf : ¬∃ f, Filters lib items f) :
    ∃ e, handleInventoryEvent lib settings outages (.dict items) s = (.error e, s) := by
  rw [handleInventoryEvent_delete htype]
  by_cases hkeys : requiredKeys.all (fun key => (items.lookup key).isSome) = true
  · obtain ⟨e, hrun⟩ := retrying_rejected lib settings outages .uploads hkeys hf settings.dbRetryConstant 0 none s
    rw [if_pos hkeys, handleDelete, bind_of_error hrun]
    exact ⟨_, rfl⟩
  · rw [if_neg hkeys]
    rcases logWith_cases items s with ⟨-, hrun⟩ | ⟨-, e, hrun⟩
    · rw [bind_of_ok hrun]
      exact ⟨_, rfl⟩
    · rw [bind_of_error hrun]
      exact ⟨_, rfl⟩

theorem handleInventoryEvent_progress (htype : items.lookup "type" = some (.str "delete")) (hf : Filters lib items f)
    (s : State) :
    Progress settings outages items f s (handleInventoryEvent lib settings outages (.dict items) s) := by
  rw [handleInventoryEvent_delete htype, if_pos hf.keys]
  exact handleDelete_progress hf s

/-- What goes wrong is a later deletion that does not go through after one that had rows to remove. -/
theorem allOrNothing_iff (htype : items.lookup "type" = some (.str "delete")) :
    AllOrNothing lib settings outages items s ↔ ∀ f, Filters lib items f →
      GoesThrough settings outages items .uploads →
        GoesThrough settings outages items .reports ∧ GoesThrough settings outages items .hostAcks ∨
          (∀ row ∈ s.uploads, f.upload row = false) ∧
            (GoesThrough settings outages items .reports → ∀ row ∈ s.reports, f.report row = false) := by
  unfold AllOrNothing
  by_cases hfilters : ∃ f, Filters lib items f
  swap
  · obtain ⟨e, hrun⟩ := handleInventoryEvent_rejected lib settings outages s htype hfilters
    rw [hrun]
    exact iff_of_true (.refl s) fun f hf => absurd ⟨f, hf⟩ hfilters
  obtain ⟨f, hf⟩ := hfilters
  have hall : ∀ {P : HostFilter → Prop}, (∀ g, Filters lib items g → P g) ↔ P f := by
    intro P
    constructor
    · intro h
      exact h f hf
    · intro h g hg
      rwa [hf.unique hg]
  rw [hall]
  have hprogress : Progress settings outages items f s (handleInventoryEvent lib settings outages (.dict items) s) :=
    handleInventoryEvent_progress htype hf s
  generalize handleInventoryEvent lib settings outages (.dict items) s = left at hprogress
  cases hprogress with
  | none hnot => exact iff_of_true (.refl s) fun h => absurd h hnot
  | uploads huploads hnot =>
    simp only [huploads, hnot, false_and, false_or, true_implies, false_implies, and_true]
    exact kept_uploads_iff
  | reports huploads hreports hnot =>
    simp only [huploads, hreports, hnot, and_false, false_or, true_implies]
    exact kept_reports_iff
  | all _ hreports hacks => exact iff_of_true ⟨f, hf, .removed f s⟩ fun _ => Or.inl ⟨hreports, hacks⟩

/-- The call removes all rows and returns, or raises and leaves what the deletions before the failing one left. That
is all there was exactly if the earlier ones had no rows to remove. -/
theorem handleInventoryEvent_outcome (htype : items.lookup "type" = some (.str "delete")) :
    ((∃ f, Filters lib items f ∧
          Progress settings outages items f s (handleInventoryEvent lib settings outages (.dict items) s)) ∨
        ∃ e, handleInventoryEvent lib settings outages (.dict items) s = (.error e, s)) ∧
      (AllOrNothing lib settings outages items s ↔ ∀ f, Filters lib items f →
        GoesThrough settings outages items .uploads →
          GoesThrough settings outages items .reports ∧ GoesThrough settings outages items .hostAcks ∨
            (∀ row ∈ s.uploads, f.upload row = false) ∧
              (GoesThrough settings outages items .reports → ∀ row ∈ s.reports, f.report row = false)) := by
  refine ⟨?_, allOrNothing_iff htype⟩
  by_cases hfilters : ∃ f, Filters lib items f
  · obtain ⟨f, hf⟩ := hfilters
    exact Or.inl ⟨f, hf, handleInventoryEvent_progress htype hf s⟩
  · exact Or.inr (handleInventoryEvent_rejected lib settings outages s htype hfilters)

def deleteItems : List (String × Json) :=
  [("type", .str "delete"), ("id", .str "00000000-0000-0000-0000-000000000007"), ("org_id", .str "1234"),
    ("request_id", .str "1"), ("timestamp", .str "2024-05-01T10:00:00+00:00")]

def State.uploaded : State :=
  { State.ready with uploads := .single ⟨1, 7, none, "1234", 1, "insights-client", 0, true, true⟩ }

def flaky : Outages
  | _, 0 => some .operationalError
  | _, _ => none

theorem goesThrough_flaky (deletion : Deletion) : GoesThrough {} flaky deleteItems deletion := by
  have hlogged : clash? deleteItems = none := by decide +kernel
  refine ⟨1, by decide, rfl, fun hclash => ?_⟩
  rw [hlogged] at hclash
  cases hclash

theorem handleInventoryEvent_outcome_flaky :
    AllOrNothing Inventory.isoLibrary {} flaky deleteItems State.uploaded := by
  have htype : deleteItems.lookup "type" = some (.str "delete") := rfl
  rw [(handleInventoryEvent_outcome htype).2]
  exact fun f _ _ => Or.inl ⟨goesThrough_flaky .reports, goesThrough_flaky .hostAcks⟩

def lostAfterUploads : Outages
  | .uploads, _ => none
  | _, _ => some .operationalError

theorem lost_connection_leaves_part :
    ¬AllOrNothing Inventory.isoLibrary {} lostAfterUploads deleteItems State.uploaded := by
  have hraises : (handleInventoryEvent Inventory.isoLibrary {} lostAfterUploads (.dict deleteItems)
      State.uploaded).1.toOption = none := by decide +kernel
  have hempty : (handleInventoryEvent Inventory.isoLibrary {} lostAfterUploads (.dict deleteItems)
      State.uploaded).2.uploads.get? 1 = none := by decide +kernel
  unfold AllOrNothing
  generalize handleInventoryEvent Inventory.isoLibrary {} lostAfterUploads (.dict deleteItems) State.uploaded = left at *
  obtain ⟨result, s'⟩ := left
  cases result with
  | ok _ => cases hraises
  | error e =>
    intro hkept
    have hstored : (⟨1, 7, none, "1234", 1, "insights-client", 0, true, true⟩ : Upload) ∈ s'.uploads :=
      (hkept.uploads _).mpr (Table.mem_single.mpr rfl)
    exact Table.get?_eq_none.mp hempty _ hstored rfl

end Advisor.Service
