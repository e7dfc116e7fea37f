import Advisor.Inventory.Handler

/-! Batches with arbitrary messages: when none of them makes the handler raise, and the
events it can use are applied as if the others were not there. -/

namespace Advisor.Inventory

open Python Django Relational

variable (lib : Library)

def ParsedInventoryHost.usable (p : ParsedInventoryHost) : Bool :=
  p.orgId.hashable && p.hostId.hashable && isOk (p.inventoryRow lib) && isOk (p.hostRow lib)

def ParsedDeleteEvent.usable (p : ParsedDeleteEvent) : Bool := isOk (keyCondition lib p.orgId p.inventoryId)

def usable (message : Json) : Bool :=
  match parseMessage message with
  | some (.upsert p) => p.usable lib
  | some (.delete p) => p.usable lib
  | none => false

/-- No exception, and the tables that the usable messages alone lead to. -/
structure NoPoison (db : Database) (messages : List Json) : Prop where
  quiet : (handleInventoryEvent lib db messages).raised = none
  usable : (handleInventoryEvent lib db (messages.filter (usable lib))).raised = none
  same : (handleInventoryEvent lib db messages).db.Same
    (handleInventoryEvent lib db (messages.filter (Inventory.usable lib))).db

def rawKey (p : ParsedInventoryHost) : Json × Json := (p.orgId.hashKey, p.hostId.hashKey)

def updatedText (p : ParsedInventoryHost) : String :=
  match p.updated with
  | .str s => s
  | _ => ""

def greatest (ps : List ParsedInventoryHost) : List ParsedInventoryHost :=
  newestPerKey rawKey updatedText ps

def rowTime (db : Database) (p : ParsedInventoryHost) : Option Instant :=
  match p.orgId, p.hostId with
  | .str o, .str h =>
    (db.inventory.rows.find? fun row => row.orgId = o && row.inventoryId.toText = h).map (·.updated)
  | _, _ => none

def freshness (db : Database) (p : ParsedInventoryHost) : Except Exception Bool :=
  match rowTime db p with
  | none => .ok true
  | some stored => laterThan lib p.updated stored

def isNews (db : Database) (p : ParsedInventoryHost) : Bool :=
  match freshness lib db p with
  | .ok news => news
  | .error _ => false

def news (db : Database) (ps : List ParsedInventoryHost) : List ParsedInventoryHost :=
  (greatest ps).filter (isNews lib db)

/-- Upserts the handler gets through: each can be compared with the others of its key, the
greatest of each key with the stored row, and what is to be stored has one row per host. -/
structure Accepted (db : Database) (ps : List ParsedInventoryHost) : Prop where
  keys : ∀ p ∈ ps, p.orgId.hashable = true ∧ p.hostId.hashable = true
  texts : ∀ p ∈ ps, p.updated.isStr = true
  valid : ∀ w ∈ greatest ps, isOk (keyCondition lib w.orgId w.hostId) = true
  timed : ∀ w ∈ greatest ps, isOk (freshness lib db w) = true
  usable : ∀ w ∈ news lib db ps, w.usable lib = true
  oneRow : ∀ a ∈ news lib db ps, ∀ b ∈ news lib db ps, uuidOf a.hostId = uuidOf b.hostId → a = b

def selectedKeys (messages : List Json) (key : String × Uuid) : Bool :=
  (deletesOf messages).any fun d => keyCondition lib d.orgId d.inventoryId = .ok (some key)

def afterDeletions (db : Database) (messages : List Json) : Database :=
  db.deleteKeys (selectedKeys lib messages)

/-- No upsert that cannot be stored hides one with news: where it has the greatest text of a
key, the greatest usable one is stale. -/
def Unhidden (db : Database) (ps : List ParsedInventoryHost) : Prop :=
  ∀ w ∈ greatest ps, w.usable lib = false → ∀ p ∈ greatest (ps.filter (·.usable lib)),
    rawKey p = rawKey w → freshness lib db p = .ok false

/-- A batch without poison: usable deletes, upserts that get through after them, and no
unusable upsert that hides a usable one with news. -/
structure Harmless (db : Database) (messages : List Json) : Prop where
  deletes : ∀ d ∈ deletesOf messages, d.usable lib = true
  upserts : Accepted lib (afterDeletions lib db messages) (upsertsOf messages)
  unhidden : Unhidden lib (afterDeletions lib db messages) (upsertsOf messages)

variable {lib}

theorem sameKey_eq {p q : ParsedInventoryHost} (hp : p.orgId.hashable = true ∧ p.hostId.hashable = true)
    (hq : q.orgId.hashable = true ∧ q.hostId.hashable = true) :
    p.sameKey q = decide (rawKey p = rawKey q) := by
  simp [ParsedInventoryHost.sameKey, Json.eq, Json.eqList, Json.hashKey_eq hp.1 hq.1,
    Json.hashKey_eq hp.2 hq.2, rawKey]

theorem keepNewer_eq {item : ParsedInventoryHost} {kept : List ParsedInventoryHost}
    (hitem : item.orgId.hashable = true ∧ item.hostId.hashable = true)
    (hkept : ∀ p ∈ kept, p.orgId.hashable = true ∧ p.hostId.hashable = true)
    (htext : item.updated.isStr = true ∧ ∀ p ∈ kept, p.updated.isStr = true) :
    keepNewer item kept = .ok (keepNewest rawKey updatedText item kept) := by
  induction kept with
  | nil => rfl
  | cons k rest ih =>
    have hk := sameKey_eq (hkept k (by simp)) hitem
    obtain ⟨s, hs⟩ := Json.isStr_iff.mp htext.1
    obtain ⟨t, ht⟩ := Json.isStr_iff.mp (htext.2 k (by simp))
    have hrest := ih (fun p hp => hkept p (by simp [hp])) ⟨htext.1, fun p hp => htext.2 p (by simp [hp])⟩
    by_cases hkey : rawKey k = rawKey item
    · by_cases hlt : t < s <;>
        simp [keepNewer, keepNewest, hk, hkey, hs, ht, Json.gt, updatedText, hlt, bind, Except.bind, pure,
          Except.pure]
    · simp [keepNewer, keepNewest, hk, hkey, hrest, bind, Except.bind, pure, Except.pure]

theorem dedupe_eq {ps : List ParsedInventoryHost}
    (hkeys : ∀ p ∈ ps, p.orgId.hashable = true ∧ p.hostId.hashable = true)
    (htext : ∀ p ∈ ps, p.updated.isStr = true) : dedupe ps = .ok (greatest ps) := by
  induction ps using List.reverseRecOn with
  | nil => rfl
  | append_singleton ps p ih =>
    have hp := hkeys p (by simp)
    have hprev := ih (fun q hq => hkeys q (by simp [hq])) fun q hq => htext q (by simp [hq])
    have hgreatest : greatest (ps ++ [p]) = keepNewest rawKey updatedText p (greatest ps) :=
      newestPerKey_concat ps p
    have hkeep := keepNewer_eq hp
      (fun q (hq : q ∈ greatest ps) => hkeys q (by simp [newestPerKey_subset hq]))
      ⟨htext p (by simp), fun q hq => htext q (by simp [newestPerKey_subset hq])⟩
    rw [dedupe] at hprev
    rw [dedupe, List.foldlM_append, hprev, hgreatest]
    simp only [List.foldlM_cons, List.foldlM_nil, hp.1, hp.2, Bool.and_self, if_true]
    exact (congrArg (· >>= pure) hkeep).trans rfl

/-- What the deduplication leaves when it does not raise: keys that can be hashed, and for
every upsert one whose `updated` is text or not as its own is. -/
theorem dedupe_ok {ps kept : List ParsedInventoryHost} (h : dedupe ps = .ok kept) :
    (∀ p ∈ ps, p.orgId.hashable = true ∧ p.hostId.hashable = true) ∧
      ∀ p ∈ ps, ∃ k ∈ kept, k.updated.isStr = p.updated.isStr := by
  induction ps using List.reverseRecOn generalizing kept with
  | nil => simp
  | append_singleton ps p ih =>
    rw [dedupe, List.foldlM_append, bind_eq_ok] at h
    obtain ⟨before, hbefore, h⟩ := h
    obtain ⟨hkeys, htexts⟩ := ih hbefore
    simp only [List.foldlM_cons, List.foldlM_nil, bind_eq_ok, pure, Except.pure, Except.ok.injEq] at h
    obtain ⟨after, hafter, rfl⟩ := h
    split at hafter
    · rename_i hhash
      have hkept : ∀ (l m : List ParsedInventoryHost), keepNewer p l = .ok m →
          (∃ k ∈ m, k.updated.isStr = p.updated.isStr) ∧
            ∀ q ∈ l, ∃ k ∈ m, k.updated.isStr = q.updated.isStr := by
        intro l
        induction l with
        | nil =>
          intro m hm
          simp only [keepNewer, Except.ok.injEq] at hm
          subst hm
          exact ⟨⟨p, by simp, rfl⟩, by simp⟩
        | cons k rest ihl =>
          intro m hm
          simp only [keepNewer] at hm
          split at hm
          · rw [bind_eq_ok] at hm
            obtain ⟨newer, hgt, hm⟩ := hm
            have hsame := Json.isStr_of_gt hgt
            cases newer with
            | true =>
              simp only [if_true, pure, Except.pure, Except.ok.injEq] at hm
              subst hm
              refine ⟨⟨p, by simp, rfl⟩, fun q hq => ?_⟩
              rcases List.mem_cons.mp hq with rfl | hq'
              · exact ⟨p, by simp, hsame⟩
              · exact ⟨q, by simp [hq'], rfl⟩
            | false =>
              simp only [Bool.false_eq_true, if_false, pure, Except.pure, Except.ok.injEq] at hm
              subst hm
              exact ⟨⟨k, by simp, hsame.symm⟩, fun q hq => ⟨q, hq, rfl⟩⟩
          · rw [bind_eq_ok] at hm
            obtain ⟨rest', hrest, hm⟩ := hm
            simp only [pure, Except.pure, Except.ok.injEq] at hm
            subst hm
            obtain ⟨⟨x, hx, hxp⟩, hall⟩ := ihl rest' hrest
            refine ⟨⟨x, by simp [hx], hxp⟩, fun q hq => ?_⟩
            rcases List.mem_cons.mp hq with rfl | hq'
            · exact ⟨q, by simp, rfl⟩
            · obtain ⟨y, hy, hyq⟩ := hall q hq'
              exact ⟨y, by simp [hy], hyq⟩
      obtain ⟨hp, hrest⟩ := hkept before after hafter
      refine ⟨fun q hq => ?_, fun q hq => ?_⟩
      · rcases List.mem_append.mp hq with hm | hm
        · exact hkeys q hm
        · rw [List.mem_singleton.mp hm]
          simpa using hhash
      · rcases List.mem_append.mp hq with hm | hm
        · obtain ⟨k, hk, hkq⟩ := htexts q hm
          obtain ⟨k', hk', hkk'⟩ := hrest k hk
          exact ⟨k', hk', hkk'.trans hkq⟩
        · rw [List.mem_singleton.mp hm]
          exact hp
    · simp at hafter

theorem mem_greatest {ps : List ParsedInventoryHost} {p : ParsedInventoryHost} (h : p ∈ ps) :
    ∃ w ∈ greatest ps, rawKey w = rawKey p := by
  cases hw : newest updatedText (ps.filter fun q => rawKey q = rawKey p) with
  | none =>
    have hin : p ∈ ps.filter fun q => rawKey q = rawKey p := by simp [h]
    simp [newest_eq_none.mp hw] at hin
  | some w =>
    have hk : rawKey w = rawKey p := by simpa using (List.mem_filter.mp (newest_mem hw)).2
    exact ⟨w, mem_newestPerKey.mpr (by rw [hk]; exact hw), hk⟩

theorem greatest_unique {ps : List ParsedInventoryHost} {a b : ParsedInventoryHost} (ha : a ∈ greatest ps)
    (hb : b ∈ greatest ps) (h : rawKey a = rawKey b) : a = b :=
  List.inj_on_of_nodup_map (nodup_newestPerKey ps) ha hb h

theorem existingTimestamp_eq {db : Database} {selected : List (Option (String × Uuid))}
    {p : ParsedInventoryHost} {c : Option (String × Uuid)} (hc : keyCondition lib p.orgId p.hostId = .ok c)
    (hm : c ∈ selected) : existingTimestamp db (selected.filterMap id) p = rowTime db p := by
  by_cases htexts : ∃ o h, p.orgId = .str o ∧ p.hostId = .str h
  · obtain ⟨o, h, ho, hh⟩ := htexts
    simp only [existingTimestamp, rowTime, ho, hh]
    congr 1
    apply List.find?_congr
    intro row _
    by_cases hrow : row.orgId = o ∧ row.inventoryId.toText = h
    · obtain ⟨horg, htext⟩ := hrow
      have hkey : keyCondition lib p.orgId p.hostId = .ok (some (o, row.inventoryId)) := by
        have hid : Uuid.ofText h = some row.inventoryId := by rw [← htext, Uuid.ofText_toText]
        rw [ho, hh] at hc ⊢
        apply keyCondition_str _ hid
        by_contra hnul
        simp [keyCondition, uuidOf, hid, textOf, by simpa using hnul, bind, Except.bind] at hc
      rw [hkey, Except.ok.injEq] at hc
      have hin : some row.key ∈ selected := by
        rw [AdvisorInventoryHost.key, horg, hc]
        exact hm
      simp [hin, horg, htext]
    · have hfalse : (decide (row.orgId = o) && decide (row.inventoryId.toText = h)) = false := by
        simpa using hrow
      simp only [hfalse, Bool.and_false]
  · unfold existingTimestamp rowTime
    cases ho : p.orgId <;> cases hh : p.hostId <;> first | rfl | exact absurd ⟨_, _, ho, hh⟩ htexts

theorem updated_of_row {p : ParsedInventoryHost} {row : AdvisorInventoryHost}
    (h : p.inventoryRow lib = .ok row) : p.updated.isStr = true := by
  have ht := (ParsedInventoryHost.inventoryRow_fields h).2.2
  cases hu : p.updated <;> simp [hu, required, instantOf, Json.isStr] at ht ⊢

theorem usable_rows {p : ParsedInventoryHost} (h : p.usable lib = true) :
    (∃ row, p.inventoryRow lib = .ok row) ∧ ∃ host, p.hostRow lib = .ok host := by
  simp only [ParsedInventoryHost.usable, Bool.and_eq_true, isOk_iff] at h
  exact ⟨h.1.2, h.2⟩

theorem uuidOf_required {value : Json} {u : Uuid} (h : required uuidOf value = .ok u) : uuidOf value = .ok u := by
  cases value with
  | null => simp [required] at h
  | _ => exact h

theorem inventoryRow_id {p : ParsedInventoryHost} {row : AdvisorInventoryHost}
    (h : p.inventoryRow lib = .ok row) : uuidOf p.hostId = .ok row.inventoryId :=
  uuidOf_required (ParsedInventoryHost.inventoryRow_fields h).1

theorem hostRow_id {p : ParsedInventoryHost} {host : Host} (h : p.hostRow lib = .ok host) :
    uuidOf p.hostId = .ok host.inventoryId :=
  uuidOf_required (ParsedInventoryHost.hostRow_fields h).1

theorem usable_valid {p : ParsedInventoryHost} (h : p.usable lib = true) :
    isOk (keyCondition lib p.orgId p.hostId) = true := by
  obtain ⟨⟨row, hrow⟩, -⟩ := usable_rows h
  obtain ⟨hid, horg, -⟩ := ParsedInventoryHost.inventoryRow_fields hrow
  have htext : ∃ text, p.orgId ≠ .null ∧ textOf lib p.orgId = .ok text := by
    cases ho : p.orgId with
    | null => simp [ho, required] at horg
    | _ =>
      simp only [ho, required, charOf, bind_eq_ok] at horg
      obtain ⟨text, htext, -⟩ := horg
      exact ⟨text, by simp, htext⟩
  obtain ⟨text, hne, htext⟩ := htext
  have hu := uuidOf_required hid
  cases hh : p.hostId with
  | null => simp [hh, required] at hid
  | _ =>
    rw [hh] at hu
    cases ho : p.orgId with
    | null => exact absurd ho hne
    | _ =>
      rw [ho] at htext
      simp [keyCondition, hu, htext, bind, Except.bind, isOk]

theorem nodup_ids {α : Type} {f : ParsedInventoryHost → Except Exception α} {id : α → Uuid}
    (hid : ∀ p a, f p = .ok a → uuidOf p.hostId = .ok (id a)) {ps : List ParsedInventoryHost} {rows : List α}
    (h : ps.mapM f = .ok rows) (hps : ps.Nodup) :
    (rows.map id).Nodup ↔ ∀ a ∈ ps, ∀ b ∈ ps, uuidOf a.hostId = uuidOf b.hostId → a = b := by
  have hmap : ps.map (fun p => uuidOf p.hostId) = (rows.map id).map .ok := by
    have hall := mapM_forall₂ h
    clear h hps
    induction hall with
    | nil => rfl
    | cons hpa _ ih => simp [hid _ _ hpa, ih]
  have hok : Function.Injective (Except.ok : Uuid → Except Exception Uuid) := fun a b hab => by
    simpa using hab
  rw [← List.nodup_map_iff hok, ← hmap, List.nodup_map_iff_inj_on hps]

theorem nodup_news (db : Database) (ps : List ParsedInventoryHost) : (news lib db ps).Nodup :=
  ((nodup_newestPerKey ps).of_map rawKey).filter _

variable (lib) in
/-- The tables after the upserts of a batch, in terms of the rows that are stored. -/
structure Stores (db : Database) (fresh : List ParsedInventoryHost) (db' : Database) : Prop where
  uploads : db'.uploads = db.uploads
  reports : db'.reports = db.reports
  hostAcks : db'.hostAcks = db.hostAcks
  inventory : ∃ rows, (∀ row, row ∈ rows ↔ ∃ p ∈ fresh, p.inventoryRow lib = .ok row) ∧
    db.inventory.upsertMany? AdvisorInventoryHost.merge rows = some db'.inventory
  hosts : ∃ rows, (∀ row, row ∈ rows ↔ ∃ p ∈ fresh, p.hostRow lib = .ok row) ∧
    db.hosts.upsertMany? Host.merge rows = some db'.hosts

theorem Stores.same {db a b : Database} {l m : List ParsedInventoryHost} (ha : Stores lib db l a)
    (hb : Stores lib db m b) (h : ∀ p, p ∈ l ↔ p ∈ m) : a.Same b := by
  obtain ⟨rows, hrows, hinv⟩ := ha.inventory
  obtain ⟨rows', hrows', hinv'⟩ := hb.inventory
  obtain ⟨hosts, hhosts, hhost⟩ := ha.hosts
  obtain ⟨hosts', hhosts', hhost'⟩ := hb.hosts
  refine ⟨?_, ?_, ?_, ?_, ?_⟩
  · exact Table.upsertMany?_same (fun row => by simp only [hrows, hrows', h]) hinv hinv'
  · exact Table.upsertMany?_same (fun row => by simp only [hhosts, hhosts', h]) hhost hhost'
  · rw [ha.uploads, hb.uploads]
    exact Table.Same.refl _
  · rw [ha.reports, hb.reports]
    exact Table.Same.refl _
  · rw [ha.hostAcks, hb.hostAcks]
    exact Table.Same.refl _

theorem bulkUpsertHosts_ok {db db' : Database} {ps : List ParsedInventoryHost} (hps : ps.Nodup)
    (h : bulkUpsertHosts lib db ps = .ok db') :
    Stores lib db ps db' ∧ (∀ p ∈ ps, isOk (p.inventoryRow lib) = true ∧ isOk (p.hostRow lib) = true) ∧
      ∀ a ∈ ps, ∀ b ∈ ps, uuidOf a.hostId = uuidOf b.hostId → a = b := by
  simp only [bulkUpsertHosts, bind_eq_ok] at h
  obtain ⟨rows, hrows, hosts, hhosts, h⟩ := h
  unfold upsertInstances at h
  split at h
  · rename_i inventory' hosts' hinv hhost
    simp only [Except.ok.injEq] at h
    subst h
    have hnodup : (hosts.map Host.inventoryId).Nodup :=
      (Table.upsertMany?_isSome _ _ _).mp (Option.isSome_iff_exists.mpr ⟨_, hhost⟩)
    refine ⟨⟨rfl, rfl, rfl, ⟨rows, fun _ => mapM_mem hrows, hinv⟩, ⟨hosts, fun _ => mapM_mem hhosts, hhost⟩⟩,
      fun p hp => ?_, (nodup_ids (fun _ _ => hostRow_id) hhosts hps).mp hnodup⟩
    exact ⟨isOk_iff.mpr (mapM_isOk ⟨_, hrows⟩ p hp), isOk_iff.mpr (mapM_isOk ⟨_, hhosts⟩ p hp)⟩
  · simp at h

theorem bulkUpsertHosts_isOk (db : Database) {ps : List ParsedInventoryHost} (hps : ps.Nodup)
    (hrows : ∀ p ∈ ps, isOk (p.inventoryRow lib) = true ∧ isOk (p.hostRow lib) = true)
    (hone : ∀ a ∈ ps, ∀ b ∈ ps, uuidOf a.hostId = uuidOf b.hostId → a = b) :
    ∃ db', bulkUpsertHosts lib db ps = .ok db' := by
  obtain ⟨rows, hinv⟩ := mapM_of_isOk fun p hp => isOk_iff.mp (hrows p hp).1
  obtain ⟨hosts, hhost⟩ := mapM_of_isOk fun p hp => isOk_iff.mp (hrows p hp).2
  have hids : (rows.map (·.inventoryId)).Nodup := (nodup_ids (fun _ _ => inventoryRow_id) hinv hps).mpr hone
  have hkeys : (rows.map AdvisorInventoryHost.key).Nodup := by
    apply List.Nodup.of_map Prod.snd
    simpa only [List.map_map, Function.comp_def, AdvisorInventoryHost.key] using hids
  have hhosts : (hosts.map Host.inventoryId).Nodup := (nodup_ids (fun _ _ => hostRow_id) hhost hps).mpr hone
  obtain ⟨inventory', hinv'⟩ := Option.isSome_iff_exists.mp
    ((Table.upsertMany?_isSome db.inventory AdvisorInventoryHost.merge rows).mpr hkeys)
  obtain ⟨hosts', hhost'⟩ := Option.isSome_iff_exists.mp
    ((Table.upsertMany?_isSome db.hosts Host.merge hosts).mpr hhosts)
  refine ⟨{ db with inventory := inventory', hosts := hosts' }, ?_⟩
  simp only [bulkUpsertHosts, hinv, hhost, bind, Except.bind, upsertInstances, hinv', hhost']

theorem freshTurn_eq {db : Database} {selected : List (Option (String × Uuid))} {p : ParsedInventoryHost}
    {c : Option (String × Uuid)} (hc : keyCondition lib p.orgId p.hostId = .ok c) (hm : c ∈ selected) :
    freshTurn lib db (selected.filterMap id) p = freshness lib db p := by
  rw [freshTurn, existingTimestamp_eq hc hm]
  rfl

theorem isNews_eq {db : Database} {p : ParsedInventoryHost} (h : isOk (freshness lib db p) = true) :
    freshness lib db p = .ok (isNews lib db p) := by
  obtain ⟨b, hb⟩ := isOk_iff.mp h
  simp [isNews, hb]

theorem filterStaleEvents_eq {db : Database} {ps : List ParsedInventoryHost} (h : Accepted lib db ps) :
    filterStaleEvents lib db ps = .ok (news lib db ps) := by
  obtain ⟨selected, hselected⟩ := mapM_of_isOk fun w hw => isOk_iff.mp (h.valid w hw)
  have hturns : (greatest ps).filterM (freshTurn lib db (selected.filterMap id)) =
      .ok (news lib db ps) := by
    have hfilter := filterM_ok (f := id) (p := freshTurn lib db (selected.filterMap id))
      (q := isNews lib db) (l := greatest ps) fun w hw => by
        obtain ⟨c, hc⟩ := isOk_iff.mp (h.valid w hw)
        rw [id, freshTurn_eq hc ((mapM_mem hselected).mpr ⟨w, hw, hc⟩), isNews_eq (h.timed w hw)]
    simpa only [List.map_id, news] using hfilter
  simp only [filterStaleEvents, dedupe_eq h.keys h.texts, hselected, bind, Except.bind]
  exact hturns

theorem filterStaleEvents_ok {db : Database} {ps kept : List ParsedInventoryHost}
    (h : filterStaleEvents lib db ps = .ok kept) :
    ∃ unique, dedupe ps = .ok unique ∧ (∀ w ∈ unique, isOk (keyCondition lib w.orgId w.hostId) = true) ∧
      (∀ w ∈ unique, isOk (freshness lib db w) = true) ∧ kept = unique.filter (isNews lib db) := by
  rw [filterStaleEvents, bind_eq_ok] at h
  obtain ⟨unique, hunique, h⟩ := h
  rw [bind_eq_ok] at h
  obtain ⟨selected, hselected, h⟩ := h
  have hfresh : unique.filterM (freshTurn lib db (selected.filterMap id)) = .ok kept := h
  have hvalid := mapM_isOk ⟨_, hselected⟩
  have hturn : ∀ w ∈ unique, freshTurn lib db (selected.filterMap id) w = freshness lib db w := by
    intro w hw
    obtain ⟨c, hc⟩ := hvalid w hw
    exact freshTurn_eq hc ((mapM_mem hselected).mpr ⟨w, hw, hc⟩)
  have htimed : ∀ w ∈ unique, isOk (freshness lib db w) = true := by
    intro w hw
    cases hf : freshness lib db w with
    | ok b => rfl
    | error e =>
      obtain ⟨error, herror⟩ := filterM_error hw ⟨e, (hturn w hw).trans hf⟩
      have hcontra := hfresh.symm.trans herror
      simp at hcontra
  refine ⟨unique, hunique, fun w hw => isOk_iff.mpr (hvalid w hw), htimed, ?_⟩
  have hfilter := filterM_ok (f := id) (p := freshTurn lib db (selected.filterMap id))
    (q := isNews lib db) (l := unique) fun w hw => by rw [id, hturn w hw, isNews_eq (htimed w hw)]
  simp only [List.map_id] at hfilter
  have heq := hfresh.symm.trans hfilter
  simpa using heq

theorem updated_isStr {db : Database} {p : ParsedInventoryHost} (hf : isOk (freshness lib db p) = true)
    (hrow : isNews lib db p = true → isOk (p.inventoryRow lib) = true) : p.updated.isStr = true := by
  cases ht : rowTime db p with
  | none =>
    obtain ⟨row, hrow⟩ := isOk_iff.mp (hrow (by simp [isNews, freshness, ht]))
    exact updated_of_row hrow
  | some stored =>
    simp only [freshness, ht] at hf
    cases hu : p.updated <;> simp [hu, laterThan, isOk, Json.isStr] at hf ⊢

theorem Stores.nil (db : Database) : Stores lib db [] db :=
  ⟨rfl, rfl, rfl, ⟨[], by simp, rfl⟩, ⟨[], by simp, rfl⟩⟩

theorem applyUpserts_nonempty {db : Database} {ps : List ParsedInventoryHost} (h : ps ≠ []) :
    applyUpserts lib db ps = filterStaleEvents lib db ps >>= fun fresh =>
      if fresh.isEmpty then .ok db else bulkUpsertHosts lib db fresh := by
  cases ps with
  | nil => exact absurd rfl h
  | cons p rest => rfl

theorem applyUpserts_ok {db db' : Database} {ps : List ParsedInventoryHost}
    (h : applyUpserts lib db ps = .ok db') : Accepted lib db ps ∧ Stores lib db (news lib db ps) db' := by
  by_cases hps : ps = []
  · subst hps
    simp only [applyUpserts, List.isEmpty_nil, if_true, pure, Except.pure, Except.ok.injEq] at h
    subst h
    refine ⟨⟨by simp, by simp, ?_, ?_, ?_, ?_⟩, Stores.nil db⟩
    all_goals
      intro w hw
      simp [news, greatest, newestPerKey] at hw
  rw [applyUpserts_nonempty hps, bind_eq_ok] at h
  obtain ⟨fresh, hfresh, h⟩ := h
  obtain ⟨unique, hunique, hvalid, htimed, hfilter⟩ := filterStaleEvents_ok hfresh
  obtain ⟨hkeys, hsame⟩ := dedupe_ok hunique
  have hrows : ∀ p ∈ fresh, isOk (p.inventoryRow lib) = true := by
    by_cases hempty : fresh.isEmpty = true
    · simp [List.isEmpty_iff.mp hempty]
    · simp only [hempty, Bool.false_eq_true, if_false, bulkUpsertHosts, bind_eq_ok] at h
      obtain ⟨rows, hrows, _⟩ := h
      exact fun p hp => isOk_iff.mpr (mapM_isOk ⟨_, hrows⟩ p hp)
  have htexts : ∀ p ∈ ps, p.updated.isStr = true := by
    intro p hp
    obtain ⟨k, hk, hkp⟩ := hsame p hp
    rw [← hkp]
    apply updated_isStr (htimed k hk)
    intro hnews
    exact hrows k (by rw [hfilter]; exact List.mem_filter.mpr ⟨hk, hnews⟩)
  have hgreatest : unique = greatest ps := by
    rw [dedupe_eq hkeys htexts, Except.ok.injEq] at hunique
    exact hunique.symm
  subst hgreatest
  have hnews : fresh = news lib db ps := hfilter
  subst hnews
  have hstores : Stores lib db (news lib db ps) db' ∧
      (∀ p ∈ news lib db ps, isOk (p.inventoryRow lib) = true ∧ isOk (p.hostRow lib) = true) ∧
      ∀ a ∈ news lib db ps, ∀ b ∈ news lib db ps, uuidOf a.hostId = uuidOf b.hostId → a = b := by
    by_cases hempty : (news lib db ps).isEmpty = true
    · simp only [hempty, if_true, Except.ok.injEq] at h
      subst h
      rw [List.isEmpty_iff.mp hempty]
      exact ⟨Stores.nil db, by simp, by simp⟩
    · simp only [hempty, Bool.false_eq_true, if_false] at h
      exact bulkUpsertHosts_ok (nodup_news db ps) h
  refine ⟨⟨hkeys, htexts, hvalid, htimed, fun p hp => ?_, hstores.2.2⟩, hstores.1⟩
  have hhash := hkeys p (newestPerKey_subset (List.mem_of_mem_filter hp))
  have hok := hstores.2.1 p hp
  simp [ParsedInventoryHost.usable, hhash, hok]

theorem applyUpserts_isOk {db : Database} {ps : List ParsedInventoryHost} (h : Accepted lib db ps) :
    ∃ db', applyUpserts lib db ps = .ok db' := by
  by_cases hps : ps = []
  · subst hps
    exact ⟨db, rfl⟩
  rw [applyUpserts_nonempty hps, filterStaleEvents_eq h]
  by_cases hempty : (news lib db ps).isEmpty = true
  · exact ⟨db, by simp [bind, Except.bind, hempty]⟩
  · obtain ⟨db', hdb'⟩ := bulkUpsertHosts_isOk db (nodup_news db ps)
      (fun p hp => (usable_rows (h.usable p hp)).imp isOk_iff.mpr isOk_iff.mpr) h.oneRow
    exact ⟨db', by simp [bind, Except.bind, hempty, hdb']⟩

theorem deletions_ok {db db' : Database} {messages : List Json} :
    (if (deletesOf messages).isEmpty then .ok db else bulkDeleteHosts lib db (deletesOf messages)) = .ok db' ↔
      (∀ d ∈ deletesOf messages, d.usable lib = true) ∧ db' = afterDeletions lib db messages := by
  by_cases hempty : (deletesOf messages).isEmpty = true
  · have hnil := List.isEmpty_iff.mp hempty
    have hnone : afterDeletions lib db messages = db := by
      have hkeys : selectedKeys lib messages = fun _ => false := by
        funext key
        simp [selectedKeys, hnil]
      rw [afterDeletions, hkeys, Database.deleteKeys_none]
    rw [hnone]
    simp only [hnil, List.isEmpty_nil, if_true, Except.ok.injEq, List.not_mem_nil, false_imp_iff,
      implies_true, true_and, eq_comm]
  · have hselected {selected : List (Option (String × Uuid))}
        (h : (deletesOf messages).mapM (fun d => keyCondition lib d.orgId d.inventoryId) = .ok selected) :
        (fun key => (selected.filterMap id).contains key) = selectedKeys lib messages := by
      funext key
      rw [Bool.eq_iff_iff]
      simp [selectedKeys, mapM_mem h]
    simp only [hempty, Bool.false_eq_true, if_false, bulkDeleteHosts, bind_eq_ok]
    constructor
    · rintro ⟨selected, hsel, h⟩
      simp only [pure, Except.pure, Except.ok.injEq, hselected hsel] at h
      exact ⟨fun d hd => isOk_iff.mpr (mapM_isOk ⟨_, hsel⟩ d hd), h.symm⟩
    · rintro ⟨h, rfl⟩
      obtain ⟨selected, hsel⟩ := mapM_of_isOk fun d hd => isOk_iff.mp (h d hd)
      exact ⟨selected, hsel, by rw [hselected hsel]; rfl⟩

theorem handle_quiet {db : Database} {messages : List Json} :
    (handleInventoryEvent lib db messages).raised = none ↔
      (∀ d ∈ deletesOf messages, d.usable lib = true) ∧
        Accepted lib (afterDeletions lib db messages) (upsertsOf messages) := by
  unfold handleInventoryEvent
  cases hd : (if (deletesOf messages).isEmpty then .ok db else bulkDeleteHosts lib db (deletesOf messages)) with
  | error e =>
    simp only [hd, reduceCtorEq, false_iff, not_and]
    intro hdeletes
    have hok : (if (deletesOf messages).isEmpty then Except.ok db
        else bulkDeleteHosts lib db (deletesOf messages)) = .ok (afterDeletions lib db messages) :=
      deletions_ok.mpr ⟨hdeletes, rfl⟩
    rw [hd] at hok
    simp at hok
  | ok deleted =>
    obtain ⟨hdeletes, rfl⟩ := deletions_ok.mp hd
    simp only [hd]
    constructor
    · intro h
      cases ha : applyUpserts lib (afterDeletions lib db messages) (upsertsOf messages) with
      | error e => simp [ha, Outcome.of] at h
      | ok db' => exact ⟨hdeletes, (applyUpserts_ok ha).1⟩
    · rintro ⟨_, h⟩
      obtain ⟨db', hdb'⟩ := applyUpserts_isOk h
      simp [hdb', Outcome.of]

theorem handle_stores {db : Database} {messages : List Json}
    (h : (handleInventoryEvent lib db messages).raised = none) :
    Stores lib (afterDeletions lib db messages)
      (news lib (afterDeletions lib db messages) (upsertsOf messages)) (handleInventoryEvent lib db messages).db := by
  obtain ⟨hdeletes, haccepted⟩ := handle_quiet.mp h
  obtain ⟨db', hdb'⟩ := applyUpserts_isOk haccepted
  have hstores := (applyUpserts_ok hdb').2
  simp only [handleInventoryEvent, deletions_ok.mpr ⟨hdeletes, rfl⟩, hdb', Outcome.of]
  exact hstores

theorem upsertsOf_usable (messages : List Json) :
    upsertsOf (messages.filter (usable lib)) = (upsertsOf messages).filter (·.usable lib) := by
  induction messages with
  | nil => rfl
  | cons m rest ih =>
    simp only [upsertsOf] at ih ⊢
    cases hm : parseMessage m with
    | none => simp [usable, hm, ih]
    | some parsed =>
      cases parsed with
      | upsert p => cases hp : p.usable lib <;> simp [usable, hm, hp, ih]
      | delete d => cases hd : d.usable lib <;> simp [usable, hm, hd, ih]

theorem deletesOf_usable (messages : List Json) :
    deletesOf (messages.filter (usable lib)) = (deletesOf messages).filter (·.usable lib) := by
  induction messages with
  | nil => rfl
  | cons m rest ih =>
    simp only [deletesOf] at ih ⊢
    cases hm : parseMessage m with
    | none => simp [usable, hm, ih]
    | some parsed =>
      cases parsed with
      | upsert p => cases hp : p.usable lib <;> simp [usable, hm, hp, ih]
      | delete d => cases hd : d.usable lib <;> simp [usable, hm, hd, ih]

theorem greatest_usable {ps : List ParsedInventoryHost} {w : ParsedInventoryHost} (hw : w ∈ greatest ps)
    (hu : w.usable lib = true) : w ∈ greatest (ps.filter (·.usable lib)) := by
  apply mem_newestPerKey.mpr
  rw [List.filter_comm]
  exact newest_filter (mem_newestPerKey.mp hw) hu

theorem greatest_of_usable {ps : List ParsedInventoryHost} {p : ParsedInventoryHost}
    (hp : p ∈ greatest (ps.filter (·.usable lib))) :
    p ∈ greatest ps ∨ ∃ w ∈ greatest ps, w.usable lib = false ∧ rawKey p = rawKey w := by
  obtain ⟨w, hw, hk⟩ := mem_greatest (List.mem_of_mem_filter (newestPerKey_subset hp))
  cases hu : w.usable lib with
  | false => exact Or.inr ⟨w, hw, hu, hk.symm⟩
  | true =>
    rw [← greatest_unique (greatest_usable hw hu) hp hk]
    exact Or.inl hw

theorem news_usable {db : Database} {ps : List ParsedInventoryHost} (h : Accepted lib db ps)
    {p : ParsedInventoryHost} (hp : p ∈ news lib db ps) : p ∈ news lib db (ps.filter (·.usable lib)) := by
  obtain ⟨hgreatest, hnews⟩ := List.mem_filter.mp hp
  exact List.mem_filter.mpr ⟨greatest_usable hgreatest (h.usable p hp), hnews⟩

theorem Unhidden.news {db : Database} {ps : List ParsedInventoryHost} (h : Unhidden lib db ps)
    {p : ParsedInventoryHost} (hp : p ∈ news lib db (ps.filter (·.usable lib))) : p ∈ Inventory.news lib db ps := by
  obtain ⟨hgreatest, hnews⟩ := List.mem_filter.mp hp
  rcases greatest_of_usable hgreatest with hw | ⟨w, hw, hu, hk⟩
  · exact List.mem_filter.mpr ⟨hw, hnews⟩
  · simp [isNews, h w hw hu p hgreatest hk] at hnews

theorem Accepted.filter {db : Database} {ps : List ParsedInventoryHost} (h : Accepted lib db ps)
    (hhidden : Unhidden lib db ps) : Accepted lib db (ps.filter (·.usable lib)) where
  keys p hp := h.keys p (List.mem_of_mem_filter hp)
  texts p hp := h.texts p (List.mem_of_mem_filter hp)
  valid w hw := usable_valid (by simpa using (List.mem_filter.mp (newestPerKey_subset hw)).2)
  timed p hp := by
    rcases greatest_of_usable hp with hw | ⟨w, hw, hu, hk⟩
    · exact h.timed p hw
    · rw [hhidden w hw hu p hp hk]
      rfl
  usable p hp := h.usable p (hhidden.news hp)
  oneRow a ha b hb := h.oneRow a (hhidden.news ha) b (hhidden.news hb)

theorem hashKey_str {value : Json} {s : String} (h : value.hashKey = (Json.str s).hashKey) : value = .str s := by
  cases value <;> simp [Json.hashKey, Json.number] at h ⊢
  exact h

theorem rowTime_some {db : Database} {p : ParsedInventoryHost} {t : Instant} (h : rowTime db p = some t) :
    ∃ row ∈ db.inventory, p.orgId = .str row.orgId ∧ p.hostId = .str row.inventoryId.toText ∧ row.updated = t := by
  by_cases htexts : ∃ o h, p.orgId = .str o ∧ p.hostId = .str h
  · obtain ⟨o, hid, ho, hh⟩ := htexts
    simp only [rowTime, ho, hh, Option.map_eq_some_iff] at h
    obtain ⟨row, hfind, ht⟩ := h
    have hrow := List.find?_some hfind
    simp only [Bool.and_eq_true, decide_eq_true_eq] at hrow
    exact ⟨row, List.mem_of_find?_eq_some hfind, by rw [ho, hrow.1], by rw [hh, hrow.2], ht⟩
  · unfold rowTime at h
    split at h
    · rename_i ho hh
      exact absurd ⟨_, _, ho, hh⟩ htexts
    · simp at h

theorem older_of_news {db : Database} {p : ParsedInventoryHost} {row : AdvisorInventoryHost} {t : Instant}
    (hp : p.inventoryRow lib = .ok row) (ht : rowTime db p = some t) (hnews : isNews lib db p = true) :
    t < row.updated := by
  have htime := (ParsedInventoryHost.inventoryRow_fields hp).2.2
  obtain ⟨s, hs⟩ := Json.isStr_iff.mp (updated_of_row hp)
  simp only [hs, required, instantOf] at htime
  simp only [isNews, freshness, ht, hs, laterThan] at hnews
  cases hparsed : lib.parseDatetime s <;> simp only [hparsed, Except.ok.injEq] at htime hnews
  · simp at hnews
  · simp at hnews
  · simp at hnews
  · rw [htime] at hnews
    exact of_decide_eq_true hnews

/-- A hidden upsert with news would leave another row than the batch without the one that hides it. -/
theorem unhidden_of_same {db a b : Database} {ps : List ParsedInventoryHost} (h : Accepted lib db ps)
    (husable : Accepted lib db (ps.filter (·.usable lib))) (ha : Stores lib db (news lib db ps) a)
    (hb : Stores lib db (news lib db (ps.filter (·.usable lib))) b)
    (hsame : a.inventory.Same b.inventory) : Unhidden lib db ps := by
  intro w hw hu p hp hk
  rw [isNews_eq (husable.timed p hp), Except.ok.injEq]
  by_contra hnews
  have hnews : isNews lib db p = true := by simpa using hnews
  have hp' : p ∈ news lib db (ps.filter (·.usable lib)) := List.mem_filter.mpr ⟨hp, hnews⟩
  have hstale : isNews lib db w = false := by
    by_contra hc
    have hin := h.usable w (List.mem_filter.mpr ⟨hw, by simpa using hc⟩)
    rw [hu] at hin
    simp at hin
  obtain ⟨t, ht⟩ : ∃ t, rowTime db w = some t := by
    cases ht : rowTime db w with
    | none => simp [isNews, freshness, ht] at hstale
    | some t => exact ⟨t, rfl⟩
  obtain ⟨stored, hstored, horg, hid, htime⟩ := rowTime_some ht
  have hkeys := Prod.ext_iff.mp hk
  simp only [rawKey, horg, hid] at hkeys
  have horg' := hashKey_str hkeys.1
  have hid' := hashKey_str hkeys.2
  have ht' : rowTime db p = some t := by
    rw [← ht]
    simp only [rowTime, horg, hid, horg', hid']
  obtain ⟨row, hrow⟩ := (usable_rows (husable.usable p hp')).1
  have holder := older_of_news hrow ht' hnews
  obtain ⟨hrid, hrorg, -⟩ := ParsedInventoryHost.inventoryRow_fields hrow
  have hkey : row.key = stored.key := by
    rw [horg'] at hrorg
    simp only [hid', required, uuidOf, Uuid.ofText_toText, Except.ok.injEq] at hrid
    rw [AdvisorInventoryHost.key, AdvisorInventoryHost.key, (charOf_str hrorg).1, hrid]
  -- the usable upserts alone leave the row of `p`
  have hrowb : b.inventory.get? stored.key = some row := by
    obtain ⟨rows, hrows, hmany⟩ := hb.inventory
    have hfind : rows.find? (fun r => r.key = stored.key) = some row := by
      have hn : (rows.map AdvisorInventoryHost.key).Nodup :=
        (Table.upsertMany?_isSome _ _ _).mp (Option.isSome_iff_exists.mpr ⟨_, hmany⟩)
      exact Table.get?_eq_some (t := ⟨rows, hn⟩).mpr ⟨(hrows row).mpr ⟨p, hp', hrow⟩, hkey⟩
    rw [Table.get?_upsertMany? hmany, hfind]
    cases db.inventory.get? stored.key <;> rfl
  -- with the others it stays as it was, or is the row of an upsert of the same host
  rw [← Table.same_iff_get?.mp hsame] at hrowb
  obtain ⟨rows, hrows, hmany⟩ := ha.inventory
  rw [Table.get?_upsertMany? hmany] at hrowb
  cases hfind : rows.find? (fun r => r.key = stored.key) with
  | none =>
    simp only [hfind] at hrowb
    rw [Table.mem_iff_get?.mp hstored, Option.some.injEq] at hrowb
    subst hrowb
    rw [htime] at holder
    exact lt_irrefl _ holder
  | some found =>
    obtain ⟨q, hq, hfound⟩ := (hrows found).mp (List.mem_of_find?_eq_some hfind)
    have hfkey : found.key = stored.key := by simpa using List.find?_some hfind
    have hids : uuidOf q.hostId = uuidOf p.hostId := by
      rw [inventoryRow_id hfound, inventoryRow_id hrow]
      exact congrArg Except.ok (congrArg Prod.snd (hfkey.trans hkey.symm))
    have hqp := husable.oneRow q (news_usable h hq) p hp' hids
    subst hqp
    have hqw := greatest_unique (List.mem_of_mem_filter hq) hw hk
    have hqu := h.usable q hq
    rw [hqw, hu] at hqu
    simp at hqu

/-- A batch raises nothing and does what its usable messages alone do exactly if it is harmless. -/
theorem noPoison_iff (db : Database) (messages : List Json) :
    NoPoison lib db messages ↔ Harmless lib db messages := by
  have hfiltered (hdeletes : ∀ d ∈ deletesOf messages, d.usable lib = true) :
      deletesOf (messages.filter (usable lib)) = deletesOf messages ∧
        afterDeletions lib db (messages.filter (usable lib)) = afterDeletions lib db messages := by
    have heq : deletesOf (messages.filter (usable lib)) = deletesOf messages := by
      rw [deletesOf_usable]
      exact List.filter_eq_self.mpr hdeletes
    refine ⟨heq, ?_⟩
    have hkeys : selectedKeys lib (messages.filter (usable lib)) = selectedKeys lib messages := by
      funext key
      rw [selectedKeys, heq, selectedKeys]
    rw [afterDeletions, hkeys, afterDeletions]
  constructor
  · rintro ⟨hquiet, husable, hsame⟩
    obtain ⟨hdeletes, haccepted⟩ := handle_quiet.mp hquiet
    obtain ⟨heq, hafter⟩ := hfiltered hdeletes
    have haccepted' := (handle_quiet.mp husable).2
    have hstores := handle_stores hquiet
    have hstores' := handle_stores husable
    rw [hafter, upsertsOf_usable] at haccepted' hstores'
    exact ⟨hdeletes, haccepted, unhidden_of_same haccepted haccepted' hstores hstores' hsame.inventory⟩
  · rintro ⟨hdeletes, haccepted, hhidden⟩
    obtain ⟨heq, hafter⟩ := hfiltered hdeletes
    have hquiet := handle_quiet.mpr ⟨hdeletes, haccepted⟩
    have husable : (handleInventoryEvent lib db (messages.filter (usable lib))).raised = none := by
      apply handle_quiet.mpr
      rw [heq, hafter, upsertsOf_usable]
      exact ⟨hdeletes, haccepted.filter hhidden⟩
    refine ⟨hquiet, husable, ?_⟩
    have hstores' := handle_stores husable
    rw [hafter, upsertsOf_usable] at hstores'
    exact (handle_stores hquiet).same hstores' fun p => ⟨news_usable haccepted, hhidden.news⟩

/-- A delete whose id is no UUID, and one id under two orgs: nothing of the batch is stored. -/
theorem noPoison_badDelete_twoOrgs :
    (handleInventoryEvent isoLibrary .empty [firstOrg.body, deletedBody "1234" "host-1"]).raised =
        some .validationError ∧
      (handleInventoryEvent isoLibrary .empty [firstOrg.body, deletedBody "1234" "host-1"]).db.hosts.rows = [] ∧
      (handleInventoryEvent isoLibrary .empty [firstOrg.body, secondOrg.body]).raised =
        some .cardinalityViolation ∧
      ¬ NoPoison isoLibrary .empty [firstOrg.body, deletedBody "1234" "host-1"] ∧
      ¬ NoPoison isoLibrary .empty [firstOrg.body, secondOrg.body] := by
  have hdelete : (handleInventoryEvent isoLibrary .empty [firstOrg.body, deletedBody "1234" "host-1"]).raised =
      some .validationError := by decide +kernel
  have horgs : (handleInventoryEvent isoLibrary .empty [firstOrg.body, secondOrg.body]).raised =
      some .cardinalityViolation := by decide +kernel
  refine ⟨hdelete, by decide +kernel, horgs, fun h => ?_, fun h => ?_⟩
  · have hquiet := h.quiet
    rw [hdelete] at hquiet
    simp at hquiet
  · have hquiet := h.quiet
    rw [horgs] at hquiet
    simp at hquiet

end Advisor.Inventory
