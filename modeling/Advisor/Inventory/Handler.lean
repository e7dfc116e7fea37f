import Advisor.Inventory.Event
import Mathlib.Data.List.Find

/-! The handler on well-formed events: which of them it stores, and that the parsing,
the guards and the key lookups around that choice change nothing. -/

namespace Advisor.Inventory

open Python Django Relational

variable {lib : Library}

/-- The event of each `(org_id, host_id)` whose `updated` text is greatest. -/
def winners (es : List (HostEvent lib)) : List (HostEvent lib) :=
  newestPerKey HostEvent.key HostEvent.updated es

/-- The stored time an event is compared with; a row is only found under the text `str` gives its id. -/
def storedTime (db : Database) (e : HostEvent lib) : Option Instant :=
  if e.canonical then (db.inventory.get? (e.orgId, e.inventoryId)).map (·.updated) else none

def fresh (db : Database) (e : HostEvent lib) : Bool :=
  match storedTime db e with
  | none => true
  | some t => t < e.row.updated

def upsertRows (db : Database) (es : List (HostEvent lib)) : Except Exception Database :=
  upsertInstances db (es.map (·.row)) (es.map (·.host))

def deletedKey (es : List (Event lib)) (key : String × Uuid) : Bool :=
  (deleteEvents es).any fun d => (d.orgId, d.inventoryId) = key

def handleEvents (db : Database) (es : List (Event lib)) : Outcome :=
  let deleted := db.deleteKeys (deletedKey es)
  .of deleted (upsertRows deleted ((winners (hostEvents es)).filter (fresh deleted)))

theorem sameKey_source (a b : HostEvent lib) : a.source.sameKey b.source = decide (a.key = b.key) := by
  simp [ParsedInventoryHost.sameKey, a.source_orgId, a.source_hostId, b.source_orgId, b.source_hostId,
    Json.eq, Json.eqList, Json.bothNan, HostEvent.key]

theorem keepNewer_source (e : HostEvent lib) (kept : List (HostEvent lib)) :
    keepNewer e.source (kept.map (·.source)) =
      .ok ((keepNewest HostEvent.key HostEvent.updated e kept).map (·.source)) := by
  induction kept with
  | nil => rfl
  | cons k rest ih =>
    by_cases hk : k.key = e.key
    · by_cases hu : k.updated < e.updated
      · simp [keepNewer, keepNewest, sameKey_source, hk, hu, e.source_updated, k.source_updated,
          Json.gt, bind, Except.bind, pure, Except.pure]
      · simp [keepNewer, keepNewest, sameKey_source, hk, hu, e.source_updated, k.source_updated,
          Json.gt, bind, Except.bind, pure, Except.pure]
    · simp [keepNewer, keepNewest, sameKey_source, hk, ih, bind, Except.bind, pure, Except.pure]

theorem dedupe_source (es : List (HostEvent lib)) :
    dedupe (es.map (·.source)) = .ok ((winners es).map (·.source)) := by
  induction es using List.reverseRecOn with
  | nil => rfl
  | append_singleton es e ih =>
    have hhash : (e.source.orgId.hashable && e.source.hostId.hashable) = true := by
      simp [e.source_orgId, e.source_hostId, Json.hashable]
    have hwinners : winners (es ++ [e]) = keepNewest HostEvent.key HostEvent.updated e (winners es) :=
      newestPerKey_concat es e
    rw [dedupe] at ih
    rw [dedupe, List.map_append, List.foldlM_append, ih, hwinners]
    simp only [List.map_cons, List.map_nil, List.foldlM_cons, List.foldlM_nil, hhash, if_true]
    exact (congrArg (· >>= pure) (keepNewer_source e _)).trans rfl

theorem keyCondition_source (e : HostEvent lib) :
    keyCondition lib e.source.orgId e.source.hostId = .ok (some (e.orgId, e.inventoryId)) := by
  have horg := (ParsedInventoryHost.hostRow_fields e.host_eq).2.1
  rw [e.source_orgId] at horg
  rw [e.source_orgId, e.source_hostId]
  exact keyCondition_str (charOf_str horg).2 e.row_fields.1

theorem existingTimestamp_source (db : Database) {selected : List (String × Uuid)} (e : HostEvent lib)
    (h : (e.orgId, e.inventoryId) ∈ selected) :
    existingTimestamp db selected e.source = storedTime db e := by
  simp only [existingTimestamp, e.source_orgId, e.source_hostId, storedTime]
  by_cases hc : e.canonical = true
  · have htext := e.canonical_toText hc
    simp only [hc, if_true, Table.get?]
    congr 1
    apply List.find?_congr
    intro row _
    by_cases hrow : row.key = (e.orgId, e.inventoryId)
    · have horg : row.orgId = e.orgId := congrArg Prod.fst hrow
      have hid : row.inventoryId = e.inventoryId := congrArg Prod.snd hrow
      simp [hrow, h, horg, hid, htext]
    · have hne : ¬ (row.orgId = e.orgId ∧ row.inventoryId.toText = e.hostId) := by
        intro hboth
        apply hrow
        rw [← htext] at hboth
        exact Prod.ext hboth.1 (Uuid.toText_injective hboth.2)
      have hfalse : (row.orgId = e.orgId && row.inventoryId.toText = e.hostId) = false := by simpa using hne
      simp only [hfalse, Bool.and_false, hrow, decide_false]
  · have hnone : ∀ u : Uuid, u.toText ≠ e.hostId := fun u hu => hc (Uuid.canonical_iff.mpr ⟨u, hu⟩)
    simp [hc, hnone]

/-- The staleness check compares times that both have an offset. -/
def Comparable (db : Database) (es : List (HostEvent lib)) : Prop :=
  ∀ e ∈ winners es, (storedTime db e).isSome → e.offset = true

variable (lib) in
def freshTurn (db : Database) (selected : List (String × Uuid)) (item : ParsedInventoryHost) :
    Except Exception Bool :=
  match existingTimestamp db selected item with
  | none => .ok true
  | some stored => laterThan lib item.updated stored

theorem filterStaleEvents_turns (db : Database) (es : List (HostEvent lib)) :
    ∃ selected, filterStaleEvents lib db (es.map (·.source)) =
        ((winners es).map (·.source)).filterM (freshTurn lib db selected) ∧
      ∀ e ∈ winners es, existingTimestamp db selected e.source = storedTime db e := by
  have hkeys : ((winners es).map (·.source)).mapM (fun item => keyCondition lib item.orgId item.hostId) =
      .ok ((winners es).map fun e => some (e.orgId, e.inventoryId)) := by
    rw [List.mapM_map]
    exact mapM_ok fun e _ => keyCondition_source e
  refine ⟨((winners es).map fun e => some (e.orgId, e.inventoryId)).filterMap id, ?_, ?_⟩
  · simp only [filterStaleEvents, dedupe_source, hkeys, bind, Except.bind]
    rfl
  · intro e he
    apply existingTimestamp_source
    exact List.mem_filterMap.mpr ⟨_, List.mem_map.mpr ⟨e, he, rfl⟩, rfl⟩

theorem filterStaleEvents_source {db : Database} {es : List (HostEvent lib)} (h : Comparable db es) :
    filterStaleEvents lib db (es.map (·.source)) =
      .ok (((winners es).filter (fresh db)).map (·.source)) := by
  obtain ⟨selected, heq, hstored⟩ := filterStaleEvents_turns db es
  rw [heq]
  apply filterM_ok
  intro e he
  rw [freshTurn, hstored e he, fresh]
  cases ht : storedTime db e with
  | none => rfl
  | some stored =>
    have ho := h e he (by rw [ht]; rfl)
    simp only [laterThan, e.source_updated, e.timed, ho, if_true]

/-- A time without an offset cannot be compared with a stored one. -/
theorem filterStaleEvents_naive {db : Database} {es : List (HostEvent lib)} (h : ¬ Comparable db es) :
    ∃ error, filterStaleEvents lib db (es.map (·.source)) = .error error := by
  obtain ⟨selected, heq, hstored⟩ := filterStaleEvents_turns db es
  simp only [Comparable, not_forall] at h
  obtain ⟨e, he, hsome, ho⟩ := h
  rw [heq]
  apply filterM_error (List.mem_map.mpr ⟨e, he, rfl⟩)
  obtain ⟨stored, ht⟩ := Option.isSome_iff_exists.mp hsome
  exact ⟨.typeError, by simp [freshTurn, hstored e he, ht, laterThan, e.source_updated, e.timed, ho]⟩

theorem bulkUpsertHosts_source (db : Database) (es : List (HostEvent lib)) :
    bulkUpsertHosts lib db (es.map (·.source)) = upsertRows db es := by
  have hinv : (es.map (·.source)).mapM (·.inventoryRow lib) = .ok (es.map (·.row)) := by
    rw [List.mapM_map]
    exact mapM_ok fun e _ => e.row_eq
  have hhost : (es.map (·.source)).mapM (·.hostRow lib) = .ok (es.map (·.host)) := by
    rw [List.mapM_map]
    exact mapM_ok fun e _ => e.host_eq
  simp only [bulkUpsertHosts, hinv, hhost, bind, Except.bind, upsertRows]

theorem applyUpserts_source {db : Database} {es : List (HostEvent lib)} (h : Comparable db es) :
    applyUpserts lib db (es.map (·.source)) = upsertRows db ((winners es).filter (fresh db)) := by
  cases es with
  | nil => rfl
  | cons e rest =>
    have hne : ((e :: rest).map (·.source)).isEmpty = false := rfl
    simp only [applyUpserts, hne, filterStaleEvents_source h, bind, Except.bind, Bool.false_eq_true,
      if_false, bulkUpsertHosts_source]
    cases hf : (winners (e :: rest)).filter (fresh db) with
    | nil => rfl
    | cons x xs => rfl

theorem applyUpserts_naive {db : Database} {es : List (HostEvent lib)} (h : ¬ Comparable db es) :
    ∃ error, applyUpserts lib db (es.map (·.source)) = .error error := by
  obtain ⟨error, herror⟩ := filterStaleEvents_naive h
  cases es with
  | nil => exact absurd (fun e he => by simp [winners, newestPerKey] at he) h
  | cons e rest =>
    have hne : ((e :: rest).map (·.source)).isEmpty = false := rfl
    exact ⟨error, by simp only [applyUpserts, hne, herror, bind, Except.bind, Bool.false_eq_true, if_false]⟩

end Advisor.Inventory

namespace Advisor.Database

open Python Relational

theorem deleteKeys_none (db : Database) : (db.deleteKeys fun _ => false) = db := by
  have hany {α : Type} (o : Option α) : (o.any fun _ => false) = false := by cases o <;> rfl
  simp only [deleteKeys, purge, hany, Bool.or_false]
  simp only [Table.deleteWhere, Bool.not_false, List.filter_true]

end Advisor.Database

namespace Advisor.Inventory

open Python Django Relational

variable {lib : Library}

theorem bulkDeleteHosts_source (db : Database) (ds : List (DeleteEvent lib)) :
    bulkDeleteHosts lib db (ds.map (·.source)) =
      .ok (db.deleteKeys fun key => ds.any fun d => (d.orgId, d.inventoryId) = key) := by
  have hkeys : (ds.map (·.source)).mapM (fun item => keyCondition lib item.orgId item.inventoryId) =
      .ok (ds.map fun d => some (d.orgId, d.inventoryId)) := by
    rw [List.mapM_map]
    exact mapM_ok fun d _ => d.selects
  simp only [bulkDeleteHosts, hkeys, bind, Except.bind]
  have hcontains (key : String × Uuid) :
      ((ds.map fun d => some (d.orgId, d.inventoryId)).filterMap id).contains key =
        ds.any fun d => (d.orgId, d.inventoryId) = key := by
    rw [Bool.eq_iff_iff]
    simp
  simp only [hcontains]
  rfl

theorem handleInventoryEvent_bodies (db : Database) (ms : List (Message lib)) :
    handleInventoryEvent lib db (ms.map (·.body)) = handleEvents db (ms.map (·.event)) := by
  have hdelete : (if (deletesOf (ms.map (·.body))).isEmpty then .ok db
      else bulkDeleteHosts lib db (deletesOf (ms.map (·.body)))) =
        Except.ok (db.deleteKeys (deletedKey (ms.map (·.event)))) := by
    rw [deletesOf_bodies]
    unfold deletedKey
    cases deleteEvents (ms.map (·.event)) with
    | nil => exact congrArg Except.ok (Database.deleteKeys_none db).symm
    | cons d ds => exact bulkDeleteHosts_source db (d :: ds)
  have hcomparable : Comparable (db.deleteKeys (deletedKey (ms.map (·.event))))
      (hostEvents (ms.map (·.event))) := by
    intro e he _
    have hm := mem_hostEvents.mp (newestPerKey_subset he)
    obtain ⟨m, -, hevent⟩ := List.mem_map.mp hm
    have ho := m.offset
    rw [hevent] at ho
    exact ho
  simp only [handleInventoryEvent, hdelete, upsertsOf_bodies, applyUpserts_source hcomparable, handleEvents]

end Advisor.Inventory
