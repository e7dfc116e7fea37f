import Advisor.Inventory.Handler

/-! The handler seen from one inventory id. Batches act on every id separately, except
that one id with two rows to store makes the database refuse the upserts of all. -/

namespace Advisor

open Python Django Relational

namespace Database

/-- The tables that depend on a host are those of `db` without the rows of `gone` hosts. -/
structure PurgedFrom (db' db : Database) (gone : Uuid → Bool) : Prop where
  uploads : db'.uploads = (db.purge gone).uploads
  reports : db'.reports = (db.purge gone).reports
  hostAcks : db'.hostAcks = (db.purge gone).hostAcks

theorem purge_purge (db : Database) (g g' : Uuid → Bool) :
    (db.purge g).purge g' = db.purge fun u => g u || g' u := by
  have hreports (row : CurrentReport) :
      ((g row.host || (db.uploads.get? row.upload).any fun upload => g upload.host) ||
        (g' row.host || ((db.purge g).uploads.get? row.upload).any fun upload => g' upload.host)) =
      ((g row.host || g' row.host) ||
        (db.uploads.get? row.upload).any fun upload => g upload.host || g' upload.host) := by
    rw [purge, Table.get?_deleteWhere]
    cases db.uploads.get? row.upload with
    | none => cases g row.host <;> cases g' row.host <;> rfl
    | some upload =>
      cases hu : g upload.host <;> cases g row.host <;> cases g' row.host <;> simp [hu, Option.filter]
  have hcombined := congrArg db.reports.deleteWhere (funext hreports)
  rw [← Table.deleteWhere_deleteWhere] at hcombined
  unfold purge at hcombined ⊢
  simp only [Table.deleteWhere_deleteWhere] at hcombined ⊢
  rw [hcombined]

theorem purge_none (db : Database) : (db.purge fun _ => false) = db := by
  have hany {α : Type} (o : Option α) : (o.any fun _ => false) = false := by cases o <;> rfl
  simp only [purge, hany, Bool.or_false]
  simp only [Table.deleteWhere, Bool.not_false, List.filter_true]

theorem PurgedFrom.refl (db : Database) : db.PurgedFrom db fun _ => false := by
  have h := purge_none db
  exact ⟨by rw [h], by rw [h], by rw [h]⟩

theorem PurgedFrom.trans {db db' db'' : Database} {g g' : Uuid → Bool}
    (h : db'.PurgedFrom db g) (h' : db''.PurgedFrom db' g') :
    db''.PurgedFrom db fun u => g u || g' u := by
  obtain ⟨hu, hr, ha⟩ := h
  have hp := purge_purge db g g'
  refine ⟨?_, ?_, ?_⟩
  · rw [h'.uploads, ← hp]
    simp only [purge] at hu ⊢
    rw [hu]
  · rw [h'.reports, ← hp]
    simp only [purge] at hu hr ⊢
    rw [hr, hu]
  · rw [h'.hostAcks, ← hp]
    simp only [purge] at ha ⊢
    rw [ha]

end Database

/-- What the two host tables say about one inventory id. -/
@[ext] structure HostView where
  rows : String → Option AdvisorInventoryHost
  host : Option Host

namespace HostView

variable {lib : Library}

def of (db : Database) (u : Uuid) : HostView := ⟨fun o => db.inventory.get? (o, u), db.hosts.get? u⟩

def gone (v : HostView) (orgs : String → Bool) : Bool := v.host.any fun host => orgs host.orgId

def delete (v : HostView) (orgs : String → Bool) : HostView where
  rows o := if orgs o then none else v.rows o
  host := if v.gone orgs then none else v.host

def storedTime (v : HostView) (e : Inventory.HostEvent lib) : Option Instant :=
  if e.canonical then (v.rows e.orgId).map (·.updated) else none

def accepts (v : HostView) (e : Inventory.HostEvent lib) : Bool :=
  match v.storedTime e with
  | none => true
  | some t => t < e.row.updated

def mergeHost (stored : Option Host) (new : Host) : Host :=
  match stored with
  | some old => { new with branchId := old.branchId }
  | none => new

def store (v : HostView) (e : Inventory.HostEvent lib) : HostView where
  rows o := if e.orgId = o then some e.row else v.rows o
  host := some (mergeHost v.host e.host)

end HostView

theorem Database.same_iff_views {db db' : Database} :
    (db.inventory.Same db'.inventory ∧ db.hosts.Same db'.hosts) ↔
      ∀ u, HostView.of db u = HostView.of db' u := by
  simp only [Table.same_iff_get?, HostView.of, HostView.mk.injEq]
  constructor
  · intro h u
    exact ⟨funext fun o => h.1 (o, u), h.2 u⟩
  · intro h
    exact ⟨fun k => congrFun (h k.2).1 k.1, fun k => (h k).2⟩

namespace Inventory

variable {lib : Library}

def Event.inventoryId : Event lib → Uuid
  | upsert e => e.inventoryId
  | delete d => d.inventoryId

@[simp] theorem Event.inventoryId_upsert (e : HostEvent lib) :
    (Event.upsert e).inventoryId = e.inventoryId := rfl

@[simp] theorem Event.inventoryId_delete (d : DeleteEvent lib) :
    (Event.delete d).inventoryId = d.inventoryId := rfl

def eventsOf (u : Uuid) (es : List (Event lib)) : List (Event lib) :=
  es.filter fun e => e.inventoryId = u

def survivors (u : Uuid) (es : List (Event lib)) (v : HostView) : List (HostEvent lib) :=
  (winners (hostEvents (eventsOf u es))).filter v.accepts

end Inventory

namespace HostView

open Inventory

variable {lib : Library}

def afterDeletes (u : Uuid) (es : List (Event lib)) (v : HostView) : HostView :=
  v.delete fun o => deletedKey es (o, u)

/-- A batch on one id; `none` when the id would have two rows to store. -/
def batch (u : Uuid) (es : List (Event lib)) (v : HostView) : Option HostView :=
  match survivors u es (v.afterDeletes u es) with
  | [] => some (v.afterDeletes u es)
  | [e] => some ((v.afterDeletes u es).store e)
  | _ => none

theorem accepts_of_no_row {v : HostView} {e : HostEvent lib} (h : v.rows e.orgId = none) :
    v.accepts e = true := by
  have hnone : v.storedTime e = none := by simp [storedTime, h]
  rw [accepts, hnone]

theorem of_deleteKeys (db : Database) (selected : String × Uuid → Bool) (u : Uuid) :
    of (db.deleteKeys selected) u = (of db u).delete fun o => selected (o, u) := by
  have hhost : (db.hosts.get? u).filter (fun host => !selected (host.orgId, host.inventoryId)) =
      if (of db u).gone (fun o => selected (o, u)) then none else db.hosts.get? u := by
    unfold gone of
    cases h : db.hosts.get? u with
    | none => rfl
    | some host =>
      have hid := Table.get?_key h
      simp only [Option.filter, hid, Option.any_some]
      by_cases hs : selected (host.orgId, u) = true <;> simp [hs]
  ext1
  · funext o
    simp only [of, delete, Database.deleteKeys, Table.get?_deleteWhere]
    cases h : db.inventory.get? (o, u) with
    | none => simp
    | some row =>
      have hkey := Table.get?_key h
      simp only [Option.filter, hkey]
      by_cases hs : selected (o, u) = true <;> simp [hs]
  · simp only [of, Database.deleteKeys, Table.get?_deleteWhere]
    exact hhost

end HostView

theorem Database.deleteKeys_purged (db : Database) (selected : String × Uuid → Bool) :
    (db.deleteKeys selected).PurgedFrom db fun u => (HostView.of db u).gone fun o => selected (o, u) := by
  have hgone : (fun u => (db.hosts.get? u).any fun host => selected (host.orgId, host.inventoryId)) =
      fun u => (HostView.of db u).gone fun o => selected (o, u) := by
    funext u
    unfold HostView.gone HostView.of
    cases h : db.hosts.get? u with
    | none => rfl
    | some host =>
      have hid := Table.get?_key h
      simp only [Option.any_some, hid]
  rw [← hgone]
  exact ⟨rfl, rfl, rfl⟩

namespace Inventory

open HostView

variable {lib : Library}

theorem mem_winners {es : List (HostEvent lib)} {e : HostEvent lib} :
    e ∈ winners es ↔ newest HostEvent.updated (es.filter fun x => x.key = e.key) = some e :=
  mem_newestPerKey

theorem exists_winner {es : List (HostEvent lib)} {a : HostEvent lib} (h : a ∈ es) :
    ∃ w ∈ winners es, w.key = a.key := by
  have hne : es.filter (fun x => x.key = a.key) ≠ [] :=
    List.ne_nil_of_mem (List.mem_filter.mpr ⟨h, by simp⟩)
  cases hw : newest HostEvent.updated (es.filter fun x => x.key = a.key) with
  | none => exact absurd (newest_eq_none.mp hw) hne
  | some w =>
    have hkey : w.key = a.key := by simpa using (List.mem_filter.mp (newest_mem hw)).2
    exact ⟨w, mem_winners.mpr (by rw [hkey, hw]), hkey⟩

theorem nodup_winners (es : List (HostEvent lib)) : (winners es).Nodup :=
  List.Nodup.of_map _ (nodup_newestPerKey es)

theorem inventoryId_of_key {a b : HostEvent lib} (h : a.key = b.key) : a.inventoryId = b.inventoryId := by
  have ha := a.row_fields.1
  have hb := b.row_fields.1
  have hid : a.hostId = b.hostId := congrArg Prod.snd h
  rw [hid, hb, Option.some.injEq] at ha
  exact ha.symm

theorem hostEvents_eventsOf (u : Uuid) (es : List (Event lib)) :
    hostEvents (eventsOf u es) = (hostEvents es).filter fun e => e.inventoryId = u := by
  induction es with
  | nil => rfl
  | cons e es ih =>
    simp only [hostEvents, eventsOf] at ih ⊢
    cases e with
    | upsert e =>
      by_cases hu : e.inventoryId = u <;> simp [hu, ih]
    | delete d =>
      by_cases hu : d.inventoryId = u <;> simp [hu, ih]

theorem survivors_eq (u : Uuid) (es : List (Event lib)) (db : Database) :
    survivors u es (of db u) =
      ((winners (hostEvents es)).filter (fresh db)).filter fun e => e.inventoryId = u := by
  have hkey : ∀ a b : HostEvent lib, a.key = b.key →
      decide (a.inventoryId = u) = decide (b.inventoryId = u) := by
    intro a b h
    rw [inventoryId_of_key h]
  rw [survivors, hostEvents_eventsOf, winners, ← filter_newestPerKey hkey, List.filter_filter,
    List.filter_filter, winners]
  apply List.filter_congr
  intro e _
  by_cases hu : e.inventoryId = u
  · subst hu
    exact Bool.and_comm _ _
  · simp [hu]

theorem map_host_inventoryId (es : List (HostEvent lib)) :
    (es.map (·.host)).map Host.inventoryId = es.map HostEvent.inventoryId := by
  rw [List.map_map]
  apply List.map_congr_left
  intro e _
  exact e.host_fields.1

theorem upsertRows_isOk {db : Database} {es : List (HostEvent lib)} :
    (∃ db', upsertRows db es = .ok db') ↔ (es.map HostEvent.inventoryId).Nodup := by
  have hkeys : (es.map HostEvent.inventoryId).Nodup → ((es.map (·.row)).map AdvisorInventoryHost.key).Nodup := by
    intro h
    have hsnd : es.map HostEvent.inventoryId = ((es.map (·.row)).map AdvisorInventoryHost.key).map Prod.snd := by
      simp only [List.map_map]
      rfl
    rw [hsnd] at h
    exact List.Nodup.of_map _ h
  have hhosts := Table.upsertMany?_isSome db.hosts Host.merge (es.map (·.host))
  have hinv := Table.upsertMany?_isSome db.inventory AdvisorInventoryHost.merge (es.map (·.row))
  rw [map_host_inventoryId] at hhosts
  unfold upsertRows upsertInstances
  constructor
  · rintro ⟨db', h⟩
    split at h
    · rename_i hosts _ hsome
      exact hhosts.mp (by rw [hsome]; rfl)
    · simp at h
  · intro h
    obtain ⟨hosts, hsome⟩ := Option.isSome_iff_exists.mp (hhosts.mpr h)
    obtain ⟨inventory, hsome'⟩ := Option.isSome_iff_exists.mp (hinv.mpr (hkeys h))
    exact ⟨_, by rw [hsome, hsome']⟩

theorem of_upsertRows {db db' : Database} {es : List (HostEvent lib)} (h : upsertRows db es = .ok db')
    (u : Uuid) :
    of db' u =
      match es.find? fun e => e.inventoryId = u with
      | none => of db u
      | some e => (of db u).store e := by
  have hnodup := upsertRows_isOk.mp ⟨db', h⟩
  unfold upsertRows upsertInstances at h
  split at h
  · rename_i inventory hosts hinv hhosts
    simp only [Except.ok.injEq] at h
    subst h
    have hfindHost : (es.map (·.host)).find? (fun row => row.inventoryId = u) =
        (es.find? fun e => e.inventoryId = u).map (·.host) := by
      rw [List.find?_map]
      congr 2
      funext e
      simp only [Function.comp_apply, e.host_fields.1]
    have hfindRow (o : String) : (es.map (·.row)).find? (fun row => row.key = (o, u)) =
        ((es.find? fun e => e.inventoryId = u).filter fun e => e.orgId = o).map (·.row) := by
      rw [List.find?_map, ← Relational.find?_key_and hnodup]
      congr 2
      funext e
      simp only [Function.comp_apply, e.row_key, Prod.mk.injEq]
      rw [Bool.eq_iff_iff]
      simp only [decide_eq_true_eq, Bool.and_eq_true]
      exact and_comm
    ext1
    · funext o
      simp only [of, Table.get?_upsertMany? hinv, hfindRow]
      cases es.find? fun e => e.inventoryId = u with
      | none => rfl
      | some e =>
        by_cases ho : e.orgId = o
        · simp only [store, ho, Option.filter, decide_true, if_true, Option.map_some]
          cases db.inventory.get? (o, u) <;> rfl
        · simp [store, ho, Option.filter]
    · simp only [of, Table.get?_upsertMany? hhosts, hfindHost]
      cases es.find? fun e => e.inventoryId = u with
      | none => rfl
      | some e =>
        simp only [store, Option.map_some, mergeHost]
        cases db.hosts.get? u <;> rfl
  · simp at h

theorem batch_isSome {u : Uuid} {es : List (Event lib)} {v : HostView} :
    (v.batch u es).isSome ↔ (survivors u es (v.afterDeletes u es)).length ≤ 1 := by
  unfold batch
  rcases survivors u es (v.afterDeletes u es) with _ | ⟨a, _ | ⟨b, rest⟩⟩ <;> simp

theorem of_deleted (db : Database) (es : List (Event lib)) (u : Uuid) :
    of (db.deleteKeys (deletedKey es)) u = (of db u).afterDeletes u es :=
  of_deleteKeys db (deletedKey es) u

theorem raised_of {before : Database} {r : Except Exception Database} :
    (Outcome.of before r).raised = none ↔ ∃ db', r = .ok db' := by
  cases r <;> simp [Outcome.of]

theorem handleEvents_raised {db : Database} {es : List (Event lib)} :
    (handleEvents db es).raised = none ↔ ∀ u, ((of db u).batch u es).isSome := by
  have hnodup {α : Type} (l : List α) (f : α → Uuid) :
      (l.map f).Nodup ↔ ∀ u, (l.filter fun a => f a = u).length ≤ 1 := by
    rw [List.nodup_iff_count_le_one]
    apply forall_congr'
    intro u
    rw [List.count_eq_countP, List.countP_map, List.countP_eq_length_filter]
    simp only [Function.comp_def, beq_eq_decide]
  rw [handleEvents, raised_of, upsertRows_isOk, hnodup]
  apply forall_congr'
  intro u
  rw [batch_isSome, ← of_deleted, survivors_eq]

theorem of_handleEvents {db : Database} {es : List (Event lib)} (h : (handleEvents db es).raised = none)
    (u : Uuid) : (of db u).batch u es = some (of (handleEvents db es).db u) := by
  have hsome := batch_isSome.mp (handleEvents_raised.mp h u)
  obtain ⟨db', hok⟩ := raised_of.mp h
  have hdb : (handleEvents db es).db = db' := by rw [handleEvents, hok]; rfl
  have hview := of_upsertRows hok u
  rw [hdb, hview, batch]
  rw [← of_deleted, survivors_eq] at hsome ⊢
  rw [← List.head?_filter]
  generalize ((winners (hostEvents es)).filter (fresh (db.deleteKeys (deletedKey es)))).filter
    (fun e => e.inventoryId = u) = stored at hsome ⊢
  rcases stored with _ | ⟨a, _ | ⟨b, rest⟩⟩
  · rfl
  · rfl
  · simp at hsome

theorem handleEvents_of_raised {db : Database} {es : List (Event lib)}
    (h : (handleEvents db es).raised ≠ none) : (handleEvents db es).db = db.deleteKeys (deletedKey es) := by
  rw [handleEvents] at h ⊢
  cases hr : upsertRows (db.deleteKeys (deletedKey es))
    ((winners (hostEvents es)).filter (fresh (db.deleteKeys (deletedKey es)))) with
  | error e => rfl
  | ok db' => simp [hr, Outcome.of] at h

theorem handleEvents_purged (db : Database) (es : List (Event lib)) :
    (handleEvents db es).db.PurgedFrom db fun u => (of db u).gone fun o => deletedKey es (o, u) := by
  have hdeleted := db.deleteKeys_purged (deletedKey es)
  rw [handleEvents]
  cases hr : upsertRows (db.deleteKeys (deletedKey es))
    ((winners (hostEvents es)).filter (fresh (db.deleteKeys (deletedKey es)))) with
  | error e => exact hdeleted
  | ok db' =>
    unfold upsertRows upsertInstances at hr
    split at hr
    · simp only [Except.ok.injEq] at hr
      subst hr
      exact ⟨hdeleted.uploads, hdeleted.reports, hdeleted.hostAcks⟩
    · simp at hr

end Inventory

end Advisor
