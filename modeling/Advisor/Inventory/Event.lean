import Advisor.Inventory.Store
import Advisor.Python.Raise
import Advisor.Relational.Newest
import Mathlib.Data.String.Basic

/-! Well-formed events: the messages every statement of the handler accepts, with the
rows they put into the tables, and the handler on a batch of them. -/

namespace Advisor.Inventory

open Python Django Relational

theorem charOf_str {lib : Library} {n : Nat} {s t : String} (h : charOf lib n (.str s) = .ok t) :
    t = s ∧ s.toList.contains '\x00' = false := by
  simp only [charOf, textOf, bind_eq_ok] at h
  obtain ⟨text, htext, h⟩ := h
  split at htext
  · simp at htext
  · rename_i hnul
    split at h
    · simp only [Except.ok.injEq] at htext h
      exact ⟨by rw [← h, htext], by simpa using hnul⟩
    · simp at h

namespace ParsedInventoryHost

variable {lib : Library} {p : ParsedInventoryHost}

theorem inventoryRow_fields {row : AdvisorInventoryHost} (h : p.inventoryRow lib = .ok row) :
    required uuidOf p.hostId = .ok row.inventoryId ∧ required (charOf lib 50) p.orgId = .ok row.orgId ∧
      required (instantOf lib) p.updated = .ok row.updated := by
  simp only [inventoryRow, bind_eq_ok] at h
  obtain ⟨_, _, u, hu, o, ho, t, ht, _, _, hrow⟩ := h
  simp only [pure, Except.pure, Except.ok.injEq] at hrow
  rw [← hrow]
  exact ⟨hu, ho, ht⟩

theorem hostRow_fields {host : Host} (h : p.hostRow lib = .ok host) :
    required uuidOf p.hostId = .ok host.inventoryId ∧ required (charOf lib 50) p.orgId = .ok host.orgId ∧
      host.branchId = none := by
  simp only [hostRow, bind_eq_ok] at h
  obtain ⟨u, hu, _, _, o, ho, _, _, hhost⟩ := h
  simp only [pure, Except.pure, Except.ok.injEq] at hhost
  rw [← hhost]
  exact ⟨hu, ho, rfl⟩

end ParsedInventoryHost

/-- A created or updated event whose fields are stored as they stand. `updated` is a time with
an offset, or one without that is read in UTC. -/
structure HostEvent (lib : Library) where
  source : ParsedInventoryHost
  orgId : String
  hostId : String
  updated : String
  offset : Bool
  row : AdvisorInventoryHost
  host : Host
  source_orgId : source.orgId = .str orgId
  source_hostId : source.hostId = .str hostId
  source_updated : source.updated = .str updated
  row_eq : source.inventoryRow lib = .ok row
  host_eq : source.hostRow lib = .ok host
  timed : lib.parseDatetime updated = if offset then .aware row.updated else .naive row.updated

structure DeleteEvent (lib : Library) where
  source : ParsedDeleteEvent
  orgId : String
  inventoryId : Uuid
  selects : keyCondition lib source.orgId source.inventoryId = .ok (some (orgId, inventoryId))

inductive Event (lib : Library) where
  | upsert (e : HostEvent lib)
  | delete (d : DeleteEvent lib)

variable {lib : Library}

def Event.source : Event lib → Parsed
  | upsert e => .upsert e.source
  | delete d => .delete d.source

def ParsedInventoryHost.event? (p : ParsedInventoryHost) : Option {e : HostEvent lib // e.source = p} :=
  match ho : p.orgId, hh : p.hostId, ht : p.updated, hr : p.inventoryRow lib, hs : p.hostRow lib with
  | .str o, .str h, .str t, .ok row, .ok host =>
    if timed : lib.parseDatetime t = .aware row.updated then
      some ⟨⟨p, o, h, t, true, row, host, ho, hh, ht, hr, hs, timed⟩, rfl⟩
    else if timed : lib.parseDatetime t = .naive row.updated then
      some ⟨⟨p, o, h, t, false, row, host, ho, hh, ht, hr, hs, timed⟩, rfl⟩
    else none
  | _, _, _, _, _ => none

def ParsedDeleteEvent.event? (p : ParsedDeleteEvent) : Option {d : DeleteEvent lib // d.source = p} :=
  match h : keyCondition lib p.orgId p.inventoryId with
  | .ok (some (o, u)) => some ⟨⟨p, o, u, h⟩, rfl⟩
  | _ => none

def Event.offset : Event lib → Bool
  | upsert e => e.offset
  | delete _ => true

/-- A message of the topic that the parser turns into a well-formed event. -/
structure Message (lib : Library) where
  body : Json
  event : Event lib
  parsed : parseMessage body = some event.source
  offset : event.offset = true

def Message.read? (body : Json) : Option (Message lib) :=
  match h : parseMessage body with
  | some (.upsert p) =>
    match p.event? with
    | some e => if ho : e.1.offset = true then some ⟨body, .upsert e.1, by rw [h, Event.source, e.2], ho⟩ else none
    | none => none
  | some (.delete p) => p.event?.map fun d => ⟨body, .delete d.1, by rw [h, Event.source, d.2], rfl⟩
  | none => none

/-- A created or updated message; its `updated` may lack an offset. -/
structure HostMessage (lib : Library) where
  body : Json
  event : HostEvent lib
  parsed : parseMessage body = some (.upsert event.source)

def HostMessage.read? (body : Json) : Option (HostMessage lib) :=
  match h : parseMessage body with
  | some (.upsert p) => p.event?.map fun e => ⟨body, e.1, by rw [h, e.2]⟩
  | _ => none

def hostEvents (es : List (Event lib)) : List (HostEvent lib) :=
  es.filterMap fun e => match e with | .upsert e => some e | .delete _ => none

def deleteEvents (es : List (Event lib)) : List (DeleteEvent lib) :=
  es.filterMap fun e => match e with | .upsert _ => none | .delete d => some d

@[simp] theorem hostEvents_nil : hostEvents ([] : List (Event lib)) = [] := rfl

@[simp] theorem hostEvents_upsert (e : HostEvent lib) (es : List (Event lib)) :
    hostEvents (.upsert e :: es) = e :: hostEvents es := rfl

@[simp] theorem hostEvents_delete (d : DeleteEvent lib) (es : List (Event lib)) :
    hostEvents (.delete d :: es) = hostEvents es := rfl

@[simp] theorem deleteEvents_nil : deleteEvents ([] : List (Event lib)) = [] := rfl

@[simp] theorem deleteEvents_upsert (e : HostEvent lib) (es : List (Event lib)) :
    deleteEvents (.upsert e :: es) = deleteEvents es := rfl

@[simp] theorem deleteEvents_delete (d : DeleteEvent lib) (es : List (Event lib)) :
    deleteEvents (.delete d :: es) = d :: deleteEvents es := rfl

theorem mem_hostEvents {es : List (Event lib)} {e : HostEvent lib} :
    e ∈ hostEvents es ↔ Event.upsert e ∈ es := by
  simp only [hostEvents, List.mem_filterMap]
  constructor
  · rintro ⟨x | x, hx, h⟩
    · simp only [Option.some.injEq] at h
      exact h ▸ hx
    · simp at h
  · intro h
    exact ⟨_, h, rfl⟩

theorem mem_deleteEvents {es : List (Event lib)} {d : DeleteEvent lib} :
    d ∈ deleteEvents es ↔ Event.delete d ∈ es := by
  simp only [deleteEvents, List.mem_filterMap]
  constructor
  · rintro ⟨x | x, hx, h⟩
    · simp at h
    · simp only [Option.some.injEq] at h
      exact h ▸ hx
  · intro h
    exact ⟨_, h, rfl⟩

theorem upsertsOf_bodies (ms : List (Message lib)) :
    upsertsOf (ms.map (·.body)) = (hostEvents (ms.map (·.event))).map (·.source) := by
  induction ms with
  | nil => rfl
  | cons m ms ih =>
    obtain ⟨body, event, parsed, _⟩ := m
    simp only [upsertsOf, hostEvents, List.map_cons, List.filterMap_cons] at ih ⊢
    cases event with
    | upsert e => simp only [parsed, Event.source, ih, List.map_cons]
    | delete d => simp only [parsed, Event.source, ih]

theorem deletesOf_bodies (ms : List (Message lib)) :
    deletesOf (ms.map (·.body)) = (deleteEvents (ms.map (·.event))).map (·.source) := by
  induction ms with
  | nil => rfl
  | cons m ms ih =>
    obtain ⟨body, event, parsed, _⟩ := m
    simp only [deletesOf, deleteEvents, List.map_cons, List.filterMap_cons] at ih ⊢
    cases event with
    | upsert e => simp only [parsed, Event.source, ih]
    | delete d => simp only [parsed, Event.source, ih, List.map_cons]

namespace HostEvent

/-- The key the handler deduplicates by: the id as the event spells it. -/
def key (e : HostEvent lib) : String × String := (e.orgId, e.hostId)

def inventoryId (e : HostEvent lib) : Uuid := e.row.inventoryId

def canonical (e : HostEvent lib) : Bool := Uuid.canonical e.hostId

theorem row_fields (e : HostEvent lib) :
    Uuid.ofText e.hostId = some e.inventoryId ∧ e.row.orgId = e.orgId := by
  obtain ⟨hid, horg, -⟩ := ParsedInventoryHost.inventoryRow_fields e.row_eq
  rw [e.source_hostId] at hid
  rw [e.source_orgId] at horg
  refine ⟨?_, (charOf_str horg).1⟩
  cases hx : Uuid.ofText e.hostId with
  | none => simp [required, uuidOf, hx] at hid
  | some u => simpa [required, uuidOf, hx, inventoryId] using hid

theorem host_fields (e : HostEvent lib) :
    e.host.inventoryId = e.inventoryId ∧ e.host.orgId = e.orgId ∧ e.host.branchId = none := by
  obtain ⟨hid, horg, hbranch⟩ := ParsedInventoryHost.hostRow_fields e.host_eq
  rw [e.source_hostId] at hid
  rw [e.source_orgId] at horg
  simp only [required, uuidOf, e.row_fields.1, Except.ok.injEq] at hid
  exact ⟨hid.symm, (charOf_str horg).1, hbranch⟩

theorem row_key (e : HostEvent lib) : e.row.key = (e.orgId, e.inventoryId) := by
  rw [AdvisorInventoryHost.key, e.row_fields.2]
  rfl

theorem canonical_toText {e : HostEvent lib} (h : e.canonical = true) :
    e.inventoryId.toText = e.hostId := by
  obtain ⟨u, hu⟩ := Uuid.canonical_iff.mp h
  have hid := e.row_fields.1
  rw [← hu, Uuid.ofText_toText, Option.some.injEq] at hid
  rw [← hid, hu]

end HostEvent

/-- `parse_datetime` and `parse_date` on the texts of the runs on fixed messages below. -/
def isoLibrary : Library where
  parseDatetime text :=
    if text = "2024-05-01T10:00:00+00:00" then .aware 1714557600000000
    else if text = "2024-05-01T11:00:00+00:00" then .aware 1714561200000000
    else if text = "2024-05-01T11:30:00+02:00" then .aware 1714555800000000
    else if text = "2024-05-01T10:00:00" then .naive 1714557600000000
    else .unmatched
  parseDate _ := none
  render value := match value with | .bool true => "True" | .bool false => "False" | .null => "None" | _ => ""
  intOfText _ := none

def createdBody (orgId hostId updated : String) : Json :=
  .dict [("type", .str "created"), ("metadata", .dict [("request_id", .str "r1")]),
    ("host", .dict [("id", .str hostId), ("display_name", .str "host"), ("org_id", .str orgId),
      ("tags", .list []), ("groups", .list []), ("created", .str "2024-05-01T10:00:00+00:00"),
      ("updated", .str updated), ("last_check_in", .str "2024-05-01T10:00:00+00:00"),
      ("insights_id", .str "11111111-2222-3333-4444-555555555555"),
      ("stale_timestamp", .str "2024-05-01T11:00:00+00:00"), ("system_profile", .dict []),
      ("reporter", .str "puptoo"), ("per_reporter_staleness", .dict [])])]

def deletedBody (orgId hostId : String) : Json :=
  .dict [("type", .str "delete"), ("request_id", .str "r2"), ("id", .str hostId), ("org_id", .str orgId)]

def Message.ofBody (body : Json)
    (h : (Message.read? body : Option (Message isoLibrary)).isSome = true := by decide +kernel) :
    Message isoLibrary :=
  (Message.read? body).get h

def firstOrg : Message isoLibrary :=
  .ofBody (createdBody "1234" "00112233-4455-6677-8899-aabbccddeeff" "2024-05-01T10:00:00+00:00")

def secondOrg : Message isoLibrary :=
  .ofBody (createdBody "5678" "00112233-4455-6677-8899-aabbccddeeff" "2024-05-01T11:00:00+00:00")

def firstOrgDeleted : Message isoLibrary :=
  .ofBody (deletedBody "1234" "00112233-4455-6677-8899-aabbccddeeff")

end Advisor.Inventory
