import Advisor.Django.Columns
import Advisor.Python.Raise
import Advisor.Relational.Table

/-! The events of the sources service. One kind links a Satellite instance to a source id, the other a
source id to an RHC client; the table has room for the second only once the first has arrived. -/

namespace Advisor.Tasks

open Python Django Relational

def BigInt (n : Int) : Prop := -2 ^ 63 ≤ n ∧ n < 2 ^ 63

instance decidableBigInt (n : Int) : Decidable (BigInt n) := inferInstanceAs (Decidable (_ ∧ _))

structure SatelliteRhc where
  instanceId : Uuid
  sourceId : Int
  rhcClientId : Option Uuid
  source_range : BigInt sourceId
  deriving DecidableEq

/-- The rows, with `unique=True` on the source id. -/
structure SatelliteRhcs where
  rows : Table SatelliteRhc.instanceId
  source_unique : ∀ a ∈ rows, ∀ b ∈ rows, a.sourceId = b.sourceId → a = b

namespace SatelliteRhc

def linkSource : Merge SatelliteRhc.instanceId :=
  ⟨fun old new => { new with rhcClientId := old.rhcClientId }, fun _ _ => rfl⟩

def setClient (client : Uuid) : Update SatelliteRhc.instanceId :=
  ⟨fun row => { row with rhcClientId := some client }, fun _ => rfl⟩

end SatelliteRhc

namespace SatelliteRhcs

def empty : SatelliteRhcs := ⟨.empty, fun _ ha => nomatch ha⟩

def Same (t u : SatelliteRhcs) : Prop := t.rows.Same u.rows

theorem mem_linkSource {t : Table SatelliteRhc.instanceId} {row r : SatelliteRhc} :
    r ∈ t.upsert SatelliteRhc.linkSource row ↔
      (r ∈ t ∧ r.instanceId ≠ row.instanceId) ∨
        r = { row with rhcClientId := ((t.get? row.instanceId).map (·.rhcClientId)).getD row.rhcClientId } := by
  rw [Table.mem_iff_get?, Table.get?_upsert]
  by_cases h : row.instanceId = r.instanceId
  · have hne : ¬(r ∈ t ∧ r.instanceId ≠ row.instanceId) := fun hr => hr.2 h.symm
    rw [if_pos h, or_iff_right hne, Option.some.injEq, eq_comm, ← h]
    cases t.get? row.instanceId <;> rfl
  · rw [if_neg h, ← Table.mem_iff_get?]
    constructor
    · intro hr
      exact Or.inl ⟨hr, Ne.symm h⟩
    · rintro (hr | hr)
      · exact hr.1
      · exact absurd (congrArg SatelliteRhc.instanceId hr).symm h

theorem mem_setClient {t : Table SatelliteRhc.instanceId} {p : SatelliteRhc → Bool} {client : Uuid} {r : SatelliteRhc} :
    r ∈ t.updateWhere p (SatelliteRhc.setClient client) ↔
      ∃ old ∈ t, r = { old with rhcClientId := if p old then some client else old.rhcClientId } := by
  rw [Table.mem_updateWhere]
  refine exists_congr fun old => and_congr_right fun _ => ?_
  cases p old <;> exact eq_comm

def taken (t : SatelliteRhcs) (instanceId : Uuid) (sourceId : Int) : Bool :=
  t.rows.rows.any fun row => row.sourceId = sourceId && row.instanceId ≠ instanceId

theorem taken_eq_false {t : SatelliteRhcs} {instanceId : Uuid} {sourceId : Int} :
    t.taken instanceId sourceId = false ↔ ∀ row ∈ t.rows, row.sourceId = sourceId → row.instanceId = instanceId := by
  simp [taken, Table.mem_def]

def updateOrCreate (t : SatelliteRhcs) (instanceId : Uuid) (sourceId : Int) : Except Exception SatelliteRhcs :=
  if hrange : BigInt sourceId then
    if htaken : t.taken instanceId sourceId then .error .integrityError
    else .ok {
      rows := t.rows.upsert SatelliteRhc.linkSource ⟨instanceId, sourceId, none, hrange⟩
      source_unique := by
        have hfree := taken_eq_false.mp (Bool.not_eq_true _ ▸ htaken)
        intro a ha b hb hab
        rcases mem_linkSource.mp ha with ha | rfl
        · rcases mem_linkSource.mp hb with hb | rfl
          · exact t.source_unique a ha.1 b hb.1 hab
          · exact absurd (hfree a ha.1 hab) ha.2
        · rcases mem_linkSource.mp hb with hb | rfl
          · exact absurd (hfree b hb.1 hab.symm) hb.2
          · rfl }
  else .error .dataError

def updateClient (t : SatelliteRhcs) (sourceId : Int) (client : Uuid) : SatelliteRhcs where
  rows := t.rows.updateWhere (fun row => row.sourceId = sourceId) (SatelliteRhc.setClient client)
  source_unique := by
    intro a ha b hb hab
    obtain ⟨old, hold, rfl⟩ := mem_setClient.mp ha
    obtain ⟨other, hother, rfl⟩ := mem_setClient.mp hb
    rw [t.source_unique old hold other hother hab]

end SatelliteRhcs

variable (lib : Library)

def isValidUuid (val : Json) : Bool :=
  (Uuid.ofText (match val with | .str s => s | .int i => toString i | other => lib.render other)).isSome

def sourceIdOf : Json → Except Exception (Option Int)
  | .null => .ok none
  | value => (integerOf lib value).map some

def handleSatelliteSource (message : Json) (t : SatelliteRhcs) : Except Exception SatelliteRhcs := do
  let instanceId ← uuidOf (← message.item "source_ref")
  match ← sourceIdOf lib (← message.item "id") with
  | none => .error .integrityError
  | some sourceId => t.updateOrCreate instanceId sourceId

def handleRhcSource (message : Json) (t : SatelliteRhcs) : Except Exception SatelliteRhcs := do
  let rhcId ← message.item "rhc_id"
  let sourceIds ← message.item "source_ids"
  if isValidUuid lib rhcId then
    if sourceIds.truthy then
      match ← sourceIdOf lib (← sourceIds.first) with
      | none => return t
      | some sourceId => return t.updateClient sourceId (← uuidOf rhcId)
    -- "No source ID for RHC UUID …"
    else return t
  else
    -- "Invalid RHC UUID … for source ID …" names the first of the source ids
    let _ ← sourceIds.first
    return t

def isSatelliteSource (satelliteSourceTypeId : Int) (message : Json) : Except Exception Bool := do
  if (← message.hasKey "source_type_id") && (← message.hasKey "source_ref") then
    return (← message.item "source_type_id").eq (.int satelliteSourceTypeId) &&
      isValidUuid lib (← message.item "source_ref")
  else return false

/-- `handle_sources_event`, given the id the sources service has for the type of Satellites. -/
def handleSourcesEvent (satelliteSourceTypeId : Int) (message : Json) (t : SatelliteRhcs) :
    Except Exception SatelliteRhcs := do
  if ← isSatelliteSource lib satelliteSourceTypeId message then handleSatelliteSource lib message t
  else if (← message.hasKey "rhc_id") && (← message.hasKey "source_ids") then handleRhcSource lib message t
  else return t

/-- A dict that tells of a source, and of no connection. -/
structure SatelliteSource (message : Json) (typeId : Int) (ref : String) (id : Int) : Prop where
  typeId : message.field? "source_type_id" = some (.int typeId)
  ref : message.field? "source_ref" = some (.str ref)
  id : message.field? "id" = some (.int id)
  noClient : message.field? "rhc_id" = none

/-- A dict that tells of a connection, and of no source. -/
structure RhcConnection (message : Json) (rhcId : String) (sourceIds : List Int) : Prop where
  rhcId : message.field? "rhc_id" = some (.str rhcId)
  sourceIds : message.field? "source_ids" = some (.list (sourceIds.map .int))
  noRef : message.field? "source_ref" = none

theorem handle_satellite {message : Json} {typeId : Int} {ref : String} {id : Int}
    (h : SatelliteSource message typeId ref id) (satelliteSourceTypeId : Int) (t : SatelliteRhcs) :
    handleSourcesEvent lib satelliteSourceTypeId message t =
      match Uuid.ofText ref with
      | some u => if typeId = satelliteSourceTypeId then t.updateOrCreate u id else .ok t
      | none => .ok t := by
  have heq : (Json.int typeId).eq (.int satelliteSourceTypeId) = decide (typeId = satelliteSourceTypeId) := by
    simp [Json.eq, Json.number, Floating.eq]
  have hsource : isSatelliteSource lib satelliteSourceTypeId message =
      .ok (decide (typeId = satelliteSourceTypeId) && (Uuid.ofText ref).isSome) := by
    simp [isSatelliteSource, Json.hasKey_of_field h.typeId, h.typeId, h.ref, Json.item_eq_ok.mpr h.typeId, Json.item_eq_ok.mpr h.ref, heq,
      isValidUuid, bind, Except.bind, pure, Except.pure]
  rw [handleSourcesEvent, hsource]
  cases href : Uuid.ofText ref with
  | none =>
    simp [Json.hasKey_of_field h.typeId, h.noClient, bind, Except.bind, pure, Except.pure]
  | some u =>
    by_cases htype : typeId = satelliteSourceTypeId
    · simp [htype, handleSatelliteSource, Json.item_eq_ok.mpr h.ref, Json.item_eq_ok.mpr h.id, uuidOf, href, sourceIdOf, integerOf,
        bind, Except.bind, Except.map]
    · simp [htype, Json.hasKey_of_field h.typeId, h.noClient, bind, Except.bind, pure, Except.pure]

theorem handle_rhc {message : Json} {rhcId : String} {sourceIds : List Int}
    (h : RhcConnection message rhcId sourceIds) (satelliteSourceTypeId : Int) (t : SatelliteRhcs) :
    handleSourcesEvent lib satelliteSourceTypeId message t =
      match Uuid.ofText rhcId, sourceIds with
      | none, [] => .error .indexError
      | some client, sourceId :: _ => .ok (t.updateClient sourceId client)
      | _, _ => .ok t := by
  have hsource : isSatelliteSource lib satelliteSourceTypeId message = .ok false := by
    simp [isSatelliteSource, Json.hasKey_of_field h.rhcId, h.noRef, bind, Except.bind, pure, Except.pure]
  rw [handleSourcesEvent, hsource]
  cases hclient : Uuid.ofText rhcId with
  | none =>
    cases sourceIds with
    | nil =>
      simp [Json.hasKey_of_field h.rhcId, h.rhcId, h.sourceIds, handleRhcSource, Json.item_eq_ok.mpr h.rhcId,
        Json.item_eq_ok.mpr h.sourceIds, isValidUuid, hclient, Json.first, bind, Except.bind]
    | cons sourceId rest =>
      simp [Json.hasKey_of_field h.rhcId, h.rhcId, h.sourceIds, handleRhcSource, Json.item_eq_ok.mpr h.rhcId,
        Json.item_eq_ok.mpr h.sourceIds, isValidUuid, hclient, Json.first, bind, Except.bind, pure, Except.pure]
  | some client =>
    cases sourceIds with
    | nil =>
      simp [Json.hasKey_of_field h.rhcId, h.rhcId, h.sourceIds, handleRhcSource, Json.item_eq_ok.mpr h.rhcId,
        Json.item_eq_ok.mpr h.sourceIds, isValidUuid, hclient, Json.truthy, bind, Except.bind, pure, Except.pure]
    | cons sourceId rest =>
      simp [Json.hasKey_of_field h.rhcId, h.rhcId, h.sourceIds, handleRhcSource, Json.item_eq_ok.mpr h.rhcId,
        Json.item_eq_ok.mpr h.sourceIds, isValidUuid, hclient, Json.truthy, Json.first, sourceIdOf, integerOf, uuidOf, bind,
        Except.bind, pure, Except.pure, Except.map]

namespace SatelliteRhcs

def clientOf (t : SatelliteRhcs) (instanceId : Uuid) : Option Uuid :=
  (t.rows.get? instanceId).bind (·.rhcClientId)

theorem updateOrCreate_isOk {t : SatelliteRhcs} {u : Uuid} {id : Int} :
    isOk (t.updateOrCreate u id) = true ↔ BigInt id ∧ ∀ row ∈ t.rows, row.sourceId = id → row.instanceId = u := by
  rw [updateOrCreate, ← taken_eq_false]
  by_cases hrange : BigInt id
  · by_cases htaken : t.taken u id = true
    · simp [hrange, htaken, isOk]
    · simp [hrange, htaken, isOk]
  · simp [hrange, isOk]

theorem get?_updateOrCreate {t t' : SatelliteRhcs} {u : Uuid} {id : Int} (h : t.updateOrCreate u id = .ok t') (k : Uuid) :
    ∃ hrange, t'.rows.get? k = if u = k then some ⟨u, id, t.clientOf u, hrange⟩ else t.rows.get? k := by
  rw [updateOrCreate] at h
  split at h
  · rename_i hrange
    split at h
    · cases h
    · obtain rfl := Except.ok.inj h
      refine ⟨hrange, (Table.get?_upsert ..).trans ?_⟩
      by_cases hk : u = k
      · rw [if_pos hk, if_pos hk, ← hk, clientOf]
        cases t.rows.get? u <;> rfl
      · rw [if_neg hk, if_neg hk]
  · cases h

theorem get?_updateClient (t : SatelliteRhcs) (id : Int) (client k : Uuid) :
    (t.updateClient id client).rows.get? k = (t.rows.get? k).map fun row =>
      { row with rhcClientId := if row.sourceId = id then some client else row.rhcClientId } := by
  refine (Table.get?_updateWhere ..).trans (congrArg (Option.map · _) (funext fun row => ?_))
  by_cases hid : row.sourceId = id <;> simp [hid, SatelliteRhc.setClient]

theorem mem_updateClient {t : SatelliteRhcs} {id : Int} {client : Uuid} {r : SatelliteRhc} :
    r ∈ (t.updateClient id client).rows ↔
      ∃ old ∈ t.rows, r = { old with rhcClientId := if old.sourceId = id then some client else old.rhcClientId } := by
  refine mem_setClient.trans (exists_congr fun old => and_congr_right fun _ => ?_)
  simp only [decide_eq_true_eq]

theorem sourceIds_updateClient {t : SatelliteRhcs} {head id : Int} {client u : Uuid} :
    (∀ row ∈ (t.updateClient head client).rows, row.sourceId = id → row.instanceId = u) ↔
      ∀ row ∈ t.rows, row.sourceId = id → row.instanceId = u := by
  constructor
  · intro h row hrow
    exact h { row with rhcClientId := if row.sourceId = head then some client else row.rhcClientId }
      (mem_updateClient.mpr ⟨row, hrow, rfl⟩)
  · intro h row hrow
    obtain ⟨old, hold, rfl⟩ := mem_updateClient.mp hrow
    exact h old hold

/-- The table after a message; one whose handler raises is dropped. -/
def after (satelliteSourceTypeId : Int) (message : Json) (t : SatelliteRhcs) : SatelliteRhcs :=
  match handleSourcesEvent lib satelliteSourceTypeId message t with
  | .ok t' => t'
  | .error _ => t

end SatelliteRhcs

open SatelliteRhcs

/-- Neither message makes the handler raise, and where both are about one source of a Satellite the order does
not matter, and the instance ends up with the source and the client. -/
structure Correlates (satelliteSourceTypeId : Int) (satellite rhc : Json) (t : SatelliteRhcs) (typeId : Int)
    (ref : String) (id : Int) (rhcId : String) (sourceIds : List Int) : Prop where
  satelliteOk : isOk (handleSourcesEvent lib satelliteSourceTypeId satellite t) = true
  rhcOk : isOk (handleSourcesEvent lib satelliteSourceTypeId rhc t) = true
  linked : ∀ u c, typeId = satelliteSourceTypeId → Uuid.ofText ref = some u → Uuid.ofText rhcId = some c →
    id ∈ sourceIds →
      let first := after lib satelliteSourceTypeId rhc (after lib satelliteSourceTypeId satellite t)
      let last := after lib satelliteSourceTypeId satellite (after lib satelliteSourceTypeId rhc t)
      first.Same last ∧ ∃ row ∈ first.rows, row.instanceId = u ∧ row.sourceId = id ∧ row.rhcClientId = some c

/-- The source id fits its column and is no other instance's, a client id that is no UUID comes with a source id, and
the instance already has the client, or the source id if it is the one that counts. -/
structure Correlatable (satelliteSourceTypeId : Int) (t : SatelliteRhcs) (typeId : Int) (ref : String) (id : Int)
    (rhcId : String) (sourceIds : List Int) : Prop where
  free : ∀ u, typeId = satelliteSourceTypeId → Uuid.ofText ref = some u →
    BigInt id ∧ ∀ row ∈ t.rows, row.sourceId = id → row.instanceId = u
  named : Uuid.ofText rhcId = none → sourceIds ≠ []
  known : ∀ u c, typeId = satelliteSourceTypeId → Uuid.ofText ref = some u → Uuid.ofText rhcId = some c →
    id ∈ sourceIds →
      ∃ row ∈ t.rows, row.instanceId = u ∧ (row.rhcClientId = some c ∨ row.sourceId = id ∧ sourceIds.head? = some id)

section

variable {lib} {satelliteSourceTypeId : Int} {satellite rhc : Json} {t : SatelliteRhcs} {typeId : Int} {ref : String}
  {id : Int} {rhcId : String} {sourceIds : List Int}

theorem satellite_isOk (h : SatelliteSource satellite typeId ref id) :
    isOk (handleSourcesEvent lib satelliteSourceTypeId satellite t) = true ↔
      ∀ u, typeId = satelliteSourceTypeId → Uuid.ofText ref = some u →
        BigInt id ∧ ∀ row ∈ t.rows, row.sourceId = id → row.instanceId = u := by
  rw [handle_satellite lib h]
  cases href : Uuid.ofText ref with
  | none => simp [isOk]
  | some u =>
    by_cases htype : typeId = satelliteSourceTypeId
    · simp [htype, updateOrCreate_isOk]
    · simp [htype, isOk]

theorem rhc_isOk (h : RhcConnection rhc rhcId sourceIds) :
    isOk (handleSourcesEvent lib satelliteSourceTypeId rhc t) = true ↔ (Uuid.ofText rhcId = none → sourceIds ≠ []) := by
  rw [handle_rhc lib h]
  cases Uuid.ofText rhcId <;> cases sourceIds <;> simp [isOk]

theorem after_satellite {u : Uuid} (h : SatelliteSource satellite satelliteSourceTypeId ref id)
    (href : Uuid.ofText ref = some u) (hrange : BigInt id)
    (hfree : ∀ row ∈ t.rows, row.sourceId = id → row.instanceId = u) (k : Uuid) :
    (after lib satelliteSourceTypeId satellite t).rows.get? k =
      if u = k then some ⟨u, id, t.clientOf u, hrange⟩ else t.rows.get? k := by
  obtain ⟨t', ht'⟩ := isOk_iff.mp (updateOrCreate_isOk.mpr ⟨hrange, hfree⟩)
  have hafter : after lib satelliteSourceTypeId satellite t = t' := by
    rw [after, handle_satellite lib h, href]
    simp [ht']
  obtain ⟨_, hget⟩ := get?_updateOrCreate ht' k
  rw [hafter, hget]

theorem after_rhc {c : Uuid} {rest : List Int} (h : RhcConnection rhc rhcId (id :: rest))
    (hrhcId : Uuid.ofText rhcId = some c) : after lib satelliteSourceTypeId rhc t = t.updateClient id c := by
  rw [after, handle_rhc lib h, hrhcId]

/-- In both orders the instance ends up with the client if it has it, or the source id that counts. -/
theorem clientOf_iff (t : SatelliteRhcs) (u c : Uuid) (id head : Int) :
    ((if id = head then some c else t.clientOf u) = (t.updateClient head c).clientOf u ∧
        (if id = head then some c else t.clientOf u) = some c) ↔
      ∃ row ∈ t.rows, row.instanceId = u ∧ (row.rhcClientId = some c ∨ row.sourceId = id ∧ head = id) := by
  rw [clientOf, clientOf, get?_updateClient]
  cases hold : t.rows.get? u with
  | none =>
    have hnone := Table.get?_eq_none.mp hold
    constructor
    · rintro ⟨hclients, hclient⟩
      rw [hclient] at hclients
      cases hclients
    · rintro ⟨row, hrow, hinstance, -⟩
      exact absurd hinstance (hnone row hrow)
  | some old =>
    obtain ⟨hmem, hinstance⟩ := Table.get?_eq_some.mp hold
    have hrows : (∃ row ∈ t.rows, row.instanceId = u ∧ (row.rhcClientId = some c ∨ row.sourceId = id ∧ head = id)) ↔
        old.rhcClientId = some c ∨ old.sourceId = id ∧ head = id := by
      constructor
      · rintro ⟨row, hrow, hu, h⟩
        rwa [t.rows.key_injOn hrow hmem (hu.trans hinstance.symm)] at h
      · intro h
        exact ⟨old, hmem, hinstance, h⟩
    rw [hrows]
    simp only [Option.bind_some, Option.map_some]
    by_cases hid : id = head
    · subst hid
      by_cases hsource : old.sourceId = id
      · simp [hsource]
      · simp [hsource, eq_comm]
    · by_cases hsource : old.sourceId = head
      · simp only [if_neg hid, if_pos hsource, Ne.symm hid, and_false, or_false, and_self]
      · simp only [if_neg hid, if_neg hsource, Ne.symm hid, and_false, or_false, true_and]

theorem linked_iff {u c : Uuid} {head : Int} {rest : List Int}
    (hsatellite : SatelliteSource satellite satelliteSourceTypeId ref id) (hrhc : RhcConnection rhc rhcId (head :: rest))
    (href : Uuid.ofText ref = some u) (hrhcId : Uuid.ofText rhcId = some c) (hrange : BigInt id)
    (hfree : ∀ row ∈ t.rows, row.sourceId = id → row.instanceId = u) :
    let first := after lib satelliteSourceTypeId rhc (after lib satelliteSourceTypeId satellite t)
    let last := after lib satelliteSourceTypeId satellite (after lib satelliteSourceTypeId rhc t)
    (first.Same last ∧ ∃ row ∈ first.rows, row.instanceId = u ∧ row.sourceId = id ∧ row.rhcClientId = some c) ↔
      ∃ row ∈ t.rows, row.instanceId = u ∧ (row.rhcClientId = some c ∨ row.sourceId = id ∧ head = id) := by
  intro first last
  have hfirst (k : Uuid) : first.rows.get? k =
      if u = k then some ⟨u, id, if id = head then some c else t.clientOf u, hrange⟩
      else (t.updateClient head c).rows.get? k := by
    change (after lib _ rhc (after lib _ satellite t)).rows.get? k = _
    rw [after_rhc hrhc hrhcId, get?_updateClient, after_satellite hsatellite href hrange hfree, get?_updateClient]
    by_cases hk : u = k
    · rw [if_pos hk, if_pos hk]
      rfl
    · rw [if_neg hk, if_neg hk]
  have hlast (k : Uuid) : last.rows.get? k =
      if u = k then some ⟨u, id, (t.updateClient head c).clientOf u, hrange⟩
      else (t.updateClient head c).rows.get? k := by
    change (after lib _ satellite (after lib _ rhc t)).rows.get? k = _
    rw [after_rhc hrhc hrhcId]
    exact after_satellite hsatellite href hrange (sourceIds_updateClient.mpr hfree) k
  have hsame : first.Same last ↔
      (if id = head then some c else t.clientOf u) = (t.updateClient head c).clientOf u := by
    rw [SatelliteRhcs.Same, Table.same_iff_get?]
    constructor
    · intro h
      have hu := h u
      rw [hfirst, hlast, if_pos rfl, if_pos rfl] at hu
      exact congrArg SatelliteRhc.rhcClientId (Option.some.inj hu)
    · intro h k
      rw [hfirst, hlast, h]
  have hrow : (∃ row ∈ first.rows, row.instanceId = u ∧ row.sourceId = id ∧ row.rhcClientId = some c) ↔
      (if id = head then some c else t.clientOf u) = some c := by
    have hu := (hfirst u).trans (if_pos rfl)
    constructor
    · rintro ⟨row, hrow, hinstance, -, hclient⟩
      rw [Table.mem_iff_get?, hinstance, hu] at hrow
      rw [← Option.some.inj hrow] at hclient
      exact hclient
    · intro h
      exact ⟨_, (Table.get?_eq_some.mp hu).1, rfl, rfl, h⟩
  rw [hsame, hrow]
  exact clientOf_iff t u c id head

/-- The two events are handled as they should be exactly if they are correlatable. -/
theorem sourceEvents_iff (hsatellite : SatelliteSource satellite typeId ref id)
    (hrhc : RhcConnection rhc rhcId sourceIds) :
    Correlates lib satelliteSourceTypeId satellite rhc t typeId ref id rhcId sourceIds ↔
      Correlatable satelliteSourceTypeId t typeId ref id rhcId sourceIds := by
  constructor
  · rintro ⟨hfirst, hsecond, hlinked⟩
    rw [satellite_isOk hsatellite] at hfirst
    refine ⟨hfirst, (rhc_isOk hrhc).mp hsecond, fun u c htype href hrhcId hid => ?_⟩
    obtain ⟨hrange, hfree⟩ := hfirst u htype href
    obtain _ | ⟨head, rest⟩ := sourceIds
    · cases hid
    · subst htype
      simpa using (linked_iff hsatellite hrhc href hrhcId hrange hfree).mp (hlinked u c rfl href hrhcId hid)
  · rintro ⟨hfree, hnamed, hknown⟩
    refine ⟨(satellite_isOk hsatellite).mpr hfree, (rhc_isOk hrhc).mpr hnamed, fun u c htype href hrhcId hid => ?_⟩
    obtain ⟨hrange, hown⟩ := hfree u htype href
    obtain _ | ⟨head, rest⟩ := sourceIds
    · cases hid
    · subst htype
      exact (linked_iff hsatellite hrhc href hrhcId hrange hown).mpr (by simpa using hknown u c rfl href hrhcId hid)

end

def sourceLibrary : Library where
  parseDatetime _ := .unmatched
  parseDate _ := none
  render _ := ""
  intOfText _ := none

def sampleSatellite : Json :=
  .dict [("id", .int 147), ("source_ref", .str "357b7360-c0d6-11ec-a1f5-abea1b2200b3"), ("source_type_id", .int 7)]

def sampleConnection (rhcId : String) (sourceIds : List Int) : Json :=
  .dict [("id", .str "1"), ("rhc_id", .str rhcId), ("source_ids", .list (sourceIds.map .int))]

theorem sampleSatellite_source :
    SatelliteSource sampleSatellite 7 "357b7360-c0d6-11ec-a1f5-abea1b2200b3" 147 := ⟨rfl, rfl, rfl, rfl⟩

theorem sampleConnection_rhc (rhcId : String) (sourceIds : List Int) :
    RhcConnection (sampleConnection rhcId sourceIds) rhcId sourceIds := ⟨rfl, rfl, rfl⟩

def sampleInstance : Uuid := (Uuid.ofText "357b7360-c0d6-11ec-a1f5-abea1b2200b3").getD 0

theorem ofText_sampleInstance : Uuid.ofText "357b7360-c0d6-11ec-a1f5-abea1b2200b3" = some sampleInstance := by
  decide +kernel

def linkedInstance : SatelliteRhcs where
  rows := .single ⟨sampleInstance, 147, none, by decide, by decide⟩
  source_unique a ha b hb _ := (Table.mem_single.mp ha).trans (Table.mem_single.mp hb).symm

theorem sourceEvents_linked :
    Correlates sourceLibrary 7 sampleSatellite (sampleConnection "52321130-c0d6-11ec-a1f5-abea1b2200b3" [147])
      linkedInstance 7 "357b7360-c0d6-11ec-a1f5-abea1b2200b3" 147 "52321130-c0d6-11ec-a1f5-abea1b2200b3" [147] := by
  refine (sourceEvents_iff sampleSatellite_source (sampleConnection_rhc _ _)).mpr ⟨?_, fun _ => by simp, ?_⟩
  · intro u _ hu
    refine ⟨by decide, fun row hrow _ => ?_⟩
    rw [Table.mem_single.mp hrow]
    exact Option.some.inj (ofText_sampleInstance.symm.trans hu)
  · intro u c _ hu _ _
    exact ⟨_, Table.mem_single.mpr rfl, Option.some.inj (ofText_sampleInstance.symm.trans hu), Or.inr ⟨rfl, rfl⟩⟩

/-- The connection comes first and finds no row; and an id that is no UUID, with no source id, is an error. -/
theorem connection_first :
    let connection := sampleConnection "52321130-c0d6-11ec-a1f5-abea1b2200b3" [147]
    let afterwards := fun message => after sourceLibrary 7 message
    ((afterwards connection (afterwards sampleSatellite .empty)).rows.rows.map fun row => row.rhcClientId.isSome) = [true] ∧
      ((afterwards sampleSatellite (afterwards connection .empty)).rows.rows.map fun row => row.rhcClientId.isSome) =
        [false] ∧
      isOk (handleSourcesEvent sourceLibrary 7 (sampleConnection "1337-8888" []) .empty) = false ∧
      ¬Correlates sourceLibrary 7 sampleSatellite connection .empty 7 "357b7360-c0d6-11ec-a1f5-abea1b2200b3" 147
        "52321130-c0d6-11ec-a1f5-abea1b2200b3" [147] := by
  refine ⟨by decide +kernel, by decide +kernel, by decide +kernel, fun h => ?_⟩
  have hsatellite : (Uuid.ofText "357b7360-c0d6-11ec-a1f5-abea1b2200b3").isSome = true := by decide +kernel
  have hclient : (Uuid.ofText "52321130-c0d6-11ec-a1f5-abea1b2200b3").isSome = true := by decide +kernel
  obtain ⟨u, hu⟩ := Option.isSome_iff_exists.mp hsatellite
  obtain ⟨c, hc⟩ := Option.isSome_iff_exists.mp hclient
  obtain ⟨hsame, row, hrow, -, -, hlinked⟩ := h.linked u c rfl hu hc (by simp)
  have hlost : ((after sourceLibrary 7 sampleSatellite (after sourceLibrary 7
      (sampleConnection "52321130-c0d6-11ec-a1f5-abea1b2200b3" [147]) .empty)).rows.rows.all
        fun row => row.rhcClientId.isNone) = true := by decide +kernel
  have hnone := List.all_eq_true.mp hlost row ((hsame row).mp hrow)
  rw [hlinked] at hnone
  cases hnone

end Advisor.Tasks
