import Advisor.Inventory.Run
import Mathlib.Data.Fintype.EquivFin

/-! When a batch ends in the tables its events would leave one by one. The handler runs
every delete before every upsert and keeps one upsert per key, so the order of the
events of each inventory id decides. -/

namespace Advisor

open Python Django Relational

namespace HostView

open Inventory

variable {lib : Library}

theorem steps_append (v : HostView) (l m : List (Event lib)) : v.steps (l ++ m) = (v.steps l).steps m :=
  List.foldl_append

theorem goneAlong_append (v : HostView) (l m : List (Event lib)) :
    v.goneAlong (l ++ m) = (v.goneAlong l || (v.steps l).goneAlong m) := by
  induction l generalizing v with
  | nil => rfl
  | cons e l ih =>
    cases e with
    | upsert e =>
      rw [List.cons_append, goneAlong_upsert, goneAlong_upsert, ih, steps_cons]
    | delete d =>
      rw [List.cons_append, goneAlong_delete, goneAlong_delete, ih, steps_cons, Bool.or_assoc]

theorem delete_delete (v : HostView) (p q : String → Bool) :
    (v.delete p).delete q = v.delete fun o => p o || q o := by
  have hhost : (if (v.delete p).gone q then none else (v.delete p).host) =
      if v.gone (fun o => p o || q o) then none else v.host := by
    unfold delete gone
    cases v.host with
    | none => rfl
    | some h => cases hp : p h.orgId <;> cases hq : q h.orgId <;> simp [hp, hq]
  ext1
  · funext o
    cases hp : p o <;> cases hq : q o <;> simp [delete, hp, hq]
  · exact hhost

theorem gone_delete (v : HostView) (p q : String → Bool) :
    (v.gone p || (v.delete p).gone q) = v.gone fun o => p o || q o := by
  unfold delete gone
  cases v.host with
  | none => rfl
  | some h => cases hp : p h.orgId <;> cases hq : q h.orgId <;> simp [hp, hq]

theorem steps_deletes (v : HostView) {l : List (Event lib)} (h : hostEvents l = []) :
    v.steps l = v.delete (fun o => (deleteEvents l).any fun d => d.orgId = o) ∧
      v.goneAlong l = v.gone fun o => (deleteEvents l).any fun d => d.orgId = o := by
  induction l generalizing v with
  | nil => exact ⟨v.delete_none.symm, v.gone_none.symm⟩
  | cons e l ih =>
    cases e with
    | upsert e => simp at h
    | delete d =>
      obtain ⟨hsteps, hgone⟩ := ih (v.delete fun o => d.orgId = o) h
      simp only [deleteEvents_delete, List.any_cons]
      rw [← delete_delete, ← gone_delete, ← hsteps, ← hgone, steps_cons, goneAlong_delete]
      exact ⟨rfl, rfl⟩

structure Absent (v : HostView) (o : String) : Prop where
  row : v.rows o = none
  host : ∀ h, v.host = some h → h.orgId ≠ o

theorem Absent.gone {v : HostView} {o : String} (h : v.Absent o) : v.gone (fun x => o = x) = false := by
  unfold HostView.gone
  cases hh : v.host with
  | none => rfl
  | some host => simpa using fun ho => h.host host hh ho.symm

theorem Absent.delete {v : HostView} {o : String} (h : v.Absent o) : v.delete (fun x => o = x) = v := by
  ext1
  · funext x
    by_cases hx : o = x
    · subst hx
      simp [HostView.delete, h.row]
    · simp [HostView.delete, hx]
  · simp [HostView.delete, h.gone]

theorem Absent.step {v : HostView} {o : String} (h : v.Absent o) {e : HostEvent lib} (ho : e.orgId ≠ o) :
    (v.step (.upsert e)).Absent o := by
  by_cases ha : v.accepts e = true
  · simp only [HostView.step, ha, if_true]
    refine ⟨by simp [store, ho, h.row], ?_⟩
    intro host hhost
    have hmerge : (mergeHost v.host e.host).orgId = e.host.orgId := by
      unfold mergeHost
      cases v.host <;> rfl
    simp only [store, Option.some.injEq] at hhost
    rw [← hhost, hmerge, e.host_fields.2.1]
    exact ho
  · simpa [HostView.step, ha] using h

theorem steps_absent {v : HostView} {l : List (Event lib)}
    (hd : ∀ d ∈ deleteEvents l, v.Absent d.orgId)
    (hu : ∀ d ∈ deleteEvents l, ∀ e ∈ hostEvents l, e.orgId ≠ d.orgId) :
    v.steps l = v.steps ((hostEvents l).map .upsert) ∧ v.goneAlong l = false := by
  induction l generalizing v with
  | nil => exact ⟨rfl, rfl⟩
  | cons e l ih =>
    cases e with
    | upsert e =>
      rw [deleteEvents_upsert] at hd hu
      simp only [hostEvents_upsert, List.mem_cons] at hu
      have hd' : ∀ d ∈ deleteEvents l, (v.step (.upsert e)).Absent d.orgId := fun d hdl =>
        (hd d hdl).step (hu d hdl e (Or.inl rfl))
      obtain ⟨hsteps, hgone⟩ := ih hd' fun d hdl x hx => hu d hdl x (Or.inr hx)
      rw [hostEvents_upsert, List.map_cons, steps_cons, steps_cons, goneAlong_upsert, hsteps, hgone]
      exact ⟨rfl, rfl⟩
    | delete d =>
      simp only [deleteEvents_delete, List.mem_cons, forall_eq_or_imp, hostEvents_delete] at hd hu
      obtain ⟨hsteps, hgone⟩ := ih hd.2 hu.2
      have hstep : v.step (.delete d) = v := hd.1.delete
      rw [hostEvents_delete, steps_cons, goneAlong_delete, hstep, hsteps, hgone, hd.1.gone]
      exact ⟨rfl, rfl⟩

theorem store_store (v : HostView) {a b : HostEvent lib} (h : a.orgId = b.orgId) :
    (v.store a).store b = v.store b := by
  ext1
  · funext o
    by_cases ho : b.orgId = o <;> simp [store, ho, h]
  · have ha := a.host_fields.2.2
    have hb := b.host_fields.2.2
    simp only [store, mergeHost, Option.some.injEq]
    cases v.host with
    | none =>
      simp only [ha, ← hb]
    | some old => rfl

theorem accepts_store {v : HostView} {a b : HostEvent lib} (h : a.key = b.key) (hb : b.canonical = true) :
    (v.store a).accepts b = decide (a.row.updated < b.row.updated) := by
  have horg : a.orgId = b.orgId := congrArg Prod.fst h
  simp [accepts, storedTime, hb, store, horg]

theorem accepts_of_not_canonical {v : HostView} {e : HostEvent lib} (h : e.canonical = false) :
    v.accepts e = true := by
  simp [accepts, storedTime, h]

theorem storedTime_congr (v : HostView) {a b : HostEvent lib} (h : a.key = b.key) :
    v.storedTime a = v.storedTime b := by
  have horg : a.orgId = b.orgId := congrArg Prod.fst h
  have hid : a.hostId = b.hostId := congrArg Prod.snd h
  rw [storedTime, storedTime, HostEvent.canonical, HostEvent.canonical, horg, hid]

theorem accepts_congr {v : HostView} {a b : HostEvent lib} (h : a.key = b.key)
    (ht : a.row.updated = b.row.updated) : v.accepts a = v.accepts b := by
  rw [accepts, accepts, storedTime_congr v h, ht]

theorem accepts_mono {v : HostView} {a b : HostEvent lib} (h : a.key = b.key) (ha : v.accepts a = true)
    (ht : a.row.updated ≤ b.row.updated) : v.accepts b = true := by
  rw [accepts, storedTime_congr v h] at ha
  rw [accepts]
  cases hv : v.storedTime b with
  | none => rfl
  | some t =>
    simp only [hv, decide_eq_true_eq] at ha ⊢
    exact lt_of_lt_of_le ha ht

end HostView

namespace Inventory

open HostView

variable {lib : Library}

/-- The event whose row stays when upserts of one key come one by one. A row is found, and
compared with, only if the key has the id in its canonical text. -/
def lastStored (es : List (HostEvent lib)) : Option (HostEvent lib) :=
  if es.all HostEvent.canonical then newest (fun e => e.row.updated) es else es.getLast?

theorem lastStored_mem {es : List (HostEvent lib)} {c : HostEvent lib} (h : lastStored es = some c) :
    c ∈ es := by
  unfold lastStored at h
  split at h
  · exact newest_mem h
  · exact List.mem_of_getLast? h

theorem lastStored_eq_none {es : List (HostEvent lib)} : lastStored es = none ↔ es = [] := by
  unfold lastStored
  split
  · exact newest_eq_none
  · exact List.getLast?_eq_none_iff

def storeIfNewer (v : HostView) (e : Option (HostEvent lib)) : HostView :=
  match e with
  | none => v
  | some e => if v.accepts e then v.store e else v

theorem steps_upserts {v : HostView} {es : List (HostEvent lib)}
    (h : ∀ a ∈ es, ∀ b ∈ es, a.key = b.key) :
    v.steps (es.map .upsert) =
      storeIfNewer v (lastStored es) := by
  unfold storeIfNewer
  induction es using List.reverseRecOn with
  | nil => rfl
  | append_singleton es e ih =>
    have hes : ∀ a ∈ es, a.key = e.key := fun a ha => h a (by simp [ha]) e (by simp)
    have hcanonical : ∀ a ∈ es, a.canonical = e.canonical := by
      intro a ha
      rw [HostEvent.canonical, HostEvent.canonical, show a.hostId = e.hostId from congrArg Prod.snd (hes a ha)]
    have hprev := ih fun a ha b hb => (hes a ha).trans (hes b hb).symm
    have hstep : v.steps ((es ++ [e]).map .upsert) = (v.steps (es.map .upsert)).step (.upsert e) := by
      rw [List.map_append, List.map_singleton, steps_append, steps_cons, steps_nil]
    rw [hstep, hprev]
    cases hc : e.canonical with
    | false =>
      have hlast : lastStored (es ++ [e]) = some e := by
        simp [lastStored, hc]
      simp only [hlast, step, accepts_of_not_canonical hc, if_true]
      cases hp : lastStored es with
      | none => rfl
      | some c =>
        by_cases ha : v.accepts c = true
        · simp only [ha, if_true]
          exact v.store_store (congrArg Prod.fst (hes c (lastStored_mem hp)))
        · simp [ha]
    | true =>
      have hall : es.all HostEvent.canonical = true := by
        rw [List.all_eq_true]
        intro a ha
        rw [hcanonical a ha, hc]
      have hlast : lastStored (es ++ [e]) = newer (fun e => e.row.updated) (lastStored es) e := by
        have hall' : (es ++ [e]).all HostEvent.canonical = true := by simp [hall, hc]
        rw [lastStored, if_pos hall', lastStored, if_pos hall, newest_concat]
      rw [hlast]
      cases hp : lastStored es with
      | none => rfl
      | some c =>
        have hkey := hes c (lastStored_mem hp)
        by_cases hlt : c.row.updated < e.row.updated
        · simp only [newer, hlt, if_true]
          by_cases ha : v.accepts c = true
          · have he := accepts_mono hkey ha hlt.le
            simp only [ha, he, if_true, step, accepts_store hkey hc, hlt, decide_true]
            exact v.store_store (congrArg Prod.fst hkey)
          · simp [ha, step]
        · simp only [newer, hlt, if_false]
          by_cases ha : v.accepts c = true
          · simp [ha, step, accepts_store hkey hc, hlt]
          · have he : ¬ v.accepts e = true := fun he => ha (accepts_mono hkey.symm he (not_lt.mp hlt))
            simp [ha, he, step]

def Event.isDelete : Event lib → Bool
  | upsert _ => false
  | delete _ => true

def leadingDeletes (es : List (Event lib)) : List (DeleteEvent lib) :=
  deleteEvents (es.takeWhile Event.isDelete)

def trailingDeletes (es : List (Event lib)) : List (DeleteEvent lib) :=
  deleteEvents (es.dropWhile Event.isDelete)

/-- The upserts of one id have one key, and a delete after the first of them repeats an
earlier one for another org. -/
structure Separable (es : List (Event lib)) : Prop where
  oneKey : ∀ a ∈ hostEvents es, ∀ b ∈ hostEvents es, a.key = b.key
  otherOrg : ∀ d ∈ trailingDeletes es, ∀ e ∈ hostEvents es, e.orgId ≠ d.orgId
  repeated : ∀ d ∈ trailingDeletes es, ∃ d' ∈ leadingDeletes es, d'.orgId = d.orgId

/-- The order of one id's events is irrelevant: the greatest `updated` text belongs to an
event that stores what the last one stored one by one does. -/
structure Reorderable (es : List (Event lib)) : Prop extends Separable es where
  sameRow : ∀ w c, newest HostEvent.updated (hostEvents es) = some w →
    lastStored (hostEvents es) = some c → w.row = c.row ∧ w.host = c.host

theorem hostEvents_append (l m : List (Event lib)) : hostEvents (l ++ m) = hostEvents l ++ hostEvents m :=
  List.filterMap_append

theorem deleteEvents_append (l m : List (Event lib)) :
    deleteEvents (l ++ m) = deleteEvents l ++ deleteEvents m :=
  List.filterMap_append

theorem hostEvents_leading (es : List (Event lib)) : hostEvents (es.takeWhile Event.isDelete) = [] := by
  induction es with
  | nil => rfl
  | cons e es ih =>
    cases e with
    | upsert e => rfl
    | delete d => exact ih

theorem hostEvents_trailing (es : List (Event lib)) :
    hostEvents (es.dropWhile Event.isDelete) = hostEvents es := by
  have h := congrArg hostEvents (List.takeWhile_append_dropWhile (p := Event.isDelete) (l := es))
  rw [hostEvents_append, hostEvents_leading] at h
  exact h

theorem deleteEvents_split (es : List (Event lib)) :
    deleteEvents es = leadingDeletes es ++ trailingDeletes es := by
  have h := congrArg deleteEvents (List.takeWhile_append_dropWhile (p := Event.isDelete) (l := es))
  rw [deleteEvents_append] at h
  exact h.symm

theorem steps_split (v : HostView) (es : List (Event lib)) :
    v.steps es = (v.delete fun o => (leadingDeletes es).any fun d => d.orgId = o).steps
        (es.dropWhile Event.isDelete) ∧
      v.goneAlong es = ((v.gone fun o => (leadingDeletes es).any fun d => d.orgId = o) ||
        (v.delete fun o => (leadingDeletes es).any fun d => d.orgId = o).goneAlong
          (es.dropWhile Event.isDelete)) := by
  obtain ⟨hsteps, hgone⟩ := steps_deletes v (hostEvents_leading es)
  have hsplit := (List.takeWhile_append_dropWhile (p := Event.isDelete) (l := es)).symm
  constructor
  · conv_lhs => rw [hsplit, steps_append, hsteps]
    rfl
  · conv_lhs => rw [hsplit, goneAlong_append, hgone, hsteps]
    rfl

theorem absent_of_deleted {v : HostView} {orgs : String → Bool} {o : String} (h : orgs o = true) :
    (v.delete orgs).Absent o := by
  refine ⟨by simp [HostView.delete, h], ?_⟩
  intro host hhost ho
  unfold HostView.delete gone at hhost
  cases hv : v.host with
  | none => simp [hv] at hhost
  | some old =>
    by_cases hold : orgs old.orgId = true
    · simp [hv, hold] at hhost
    · simp only [hv, Option.any_some, hold, Bool.false_eq_true, if_false, Option.some.injEq] at hhost
      rw [hhost, ho] at hold
      exact hold h

theorem any_deletes {es : List (Event lib)}
    (h : ∀ d ∈ trailingDeletes es, ∃ d' ∈ leadingDeletes es, d'.orgId = d.orgId) (o : String) :
    ((deleteEvents es).any fun d => d.orgId = o) = (leadingDeletes es).any fun d => d.orgId = o := by
  rw [deleteEvents_split, List.any_append]
  cases hl : (leadingDeletes es).any fun d => decide (d.orgId = o) with
  | true => rfl
  | false =>
    simp only [Bool.false_or, List.any_eq_false, decide_eq_true_eq]
    intro d hd ho
    obtain ⟨d', hd', he⟩ := h d hd
    have hfalse := List.any_eq_false.mp hl d' hd'
    simp [he, ho] at hfalse

theorem deletedKey_local {u : Uuid} {es : List (Event lib)} (h : ∀ e ∈ es, e.inventoryId = u) (o : String) :
    deletedKey es (o, u) = (deleteEvents es).any fun d => d.orgId = o := by
  rw [deletedKey, Bool.eq_iff_iff, List.any_eq_true, List.any_eq_true]
  apply exists_congr
  intro d
  apply and_congr_right
  intro hd
  have hid : d.inventoryId = u := h _ (mem_deleteEvents.mp hd)
  simp [hid]

theorem eventsOf_self {u : Uuid} {es : List (Event lib)} (h : ∀ e ∈ es, e.inventoryId = u) :
    eventsOf u es = es :=
  List.filter_eq_self.mpr fun e he => by simpa using h e he

namespace Separable

variable {u : Uuid} {es : List (Event lib)} (h : Separable es)

include h

theorem deletedKey_eq (hu : ∀ e ∈ es, e.inventoryId = u) :
    (fun o => deletedKey es (o, u)) = fun o => (leadingDeletes es).any fun d => d.orgId = o := by
  funext o
  rw [deletedKey_local hu, any_deletes h.repeated]

theorem steps_trailing (v : HostView) :
    v.steps es = storeIfNewer (v.delete fun o => (leadingDeletes es).any fun d => d.orgId = o)
        (lastStored (hostEvents es)) ∧
      v.goneAlong es = v.gone fun o => (leadingDeletes es).any fun d => d.orgId = o := by
  have habsent : ∀ d ∈ trailingDeletes es,
      (v.delete fun o => (leadingDeletes es).any fun d => d.orgId = o).Absent d.orgId := by
    intro d hd
    obtain ⟨d', hd', he⟩ := h.repeated d hd
    exact absent_of_deleted (List.any_eq_true.mpr ⟨d', hd', by simp [he]⟩)
  have hrest := steps_absent habsent (by rw [hostEvents_trailing]; exact h.otherOrg)
  rw [hostEvents_trailing, steps_upserts h.oneKey] at hrest
  obtain ⟨hsteps, hgone⟩ := steps_split v es
  rw [hsteps, hgone, hrest.1, hrest.2, Bool.or_false]
  exact ⟨rfl, rfl⟩

theorem batch_winner (hu : ∀ e ∈ es, e.inventoryId = u) (v : HostView) :
    v.batch u es = some (storeIfNewer (v.delete fun o => (leadingDeletes es).any fun d => d.orgId = o)
      (newest HostEvent.updated (hostEvents es))) := by
  have hafter : v.afterDeletes u es = v.delete fun o => (leadingDeletes es).any fun d => d.orgId = o := by
    rw [afterDeletes, h.deletedKey_eq hu]
  have hwinners : winners (hostEvents es) = (newest HostEvent.updated (hostEvents es)).toList :=
    newestPerKey_of_oneKey h.oneKey
  rw [batch, survivors, hafter, eventsOf_self hu, hwinners]
  cases newest HostEvent.updated (hostEvents es) with
  | none => rfl
  | some w =>
    by_cases ha : (v.delete fun o => (leadingDeletes es).any fun d => d.orgId = o).accepts w = true
    · simp only [storeIfNewer, Option.toList_some, List.filter_cons, List.filter_nil, ha, if_true]
    · simp only [storeIfNewer, Option.toList_some, List.filter_cons, List.filter_nil, ha,
        Bool.false_eq_true, if_false]

end Separable

/-- The local half: batch and events one by one agree on an id whose events are reorderable. -/
theorem Reorderable.batch_eq {u : Uuid} {es : List (Event lib)} (h : Reorderable es)
    (hu : ∀ e ∈ es, e.inventoryId = u) (v : HostView) :
    v.batch u es = some (v.steps es) ∧ (v.gone fun o => deletedKey es (o, u)) = v.goneAlong es := by
  obtain ⟨hsteps, hgone⟩ := h.steps_trailing v
  rw [h.batch_winner hu, hsteps, hgone, h.deletedKey_eq hu]
  refine ⟨?_, rfl⟩
  cases hw : newest HostEvent.updated (hostEvents es) with
  | none =>
    rw [lastStored_eq_none.mpr (newest_eq_none.mp hw)]
  | some w =>
    cases hc : lastStored (hostEvents es) with
    | none =>
      rw [newest_eq_none.mpr (lastStored_eq_none.mp hc)] at hw
      simp at hw
    | some c =>
      obtain ⟨hrow, hhost⟩ := h.sameRow w c hw hc
      have hkey := h.oneKey w (newest_mem hw) c (lastStored_mem hc)
      have horg : w.orgId = c.orgId := congrArg Prod.fst hkey
      simp only [storeIfNewer, store, accepts_congr hkey (congrArg (·.updated) hrow), hrow, hhost, horg]

/-- A batch and its events one by one both go through, to the same tables. -/
structure EndsSame (db : Database) (es : List (Event lib)) : Prop where
  batch : (handleEvents db es).raised = none
  each : (runEvents db (es.map fun e => [e])).raised = none
  same : (handleEvents db es).db.Same (runEvents db (es.map fun e => [e])).db

theorem runEvents_each (db : Database) (es : List (Event lib)) :
    (runEvents db (es.map fun e => [e])).raised = none := by
  rw [runEvents_raised]
  intro u
  rw [run_singletons]
  rfl

theorem deletedKey_eventsOf (u : Uuid) (es : List (Event lib)) (o : String) :
    deletedKey (eventsOf u es) (o, u) = deletedKey es (o, u) := by
  rw [deletedKey, deletedKey, Bool.eq_iff_iff, List.any_eq_true, List.any_eq_true]
  constructor
  · rintro ⟨d, hd, hkey⟩
    exact ⟨d, mem_deleteEvents.mpr (List.mem_of_mem_filter (mem_deleteEvents.mp hd)), hkey⟩
  · rintro ⟨d, hd, hkey⟩
    have hid : d.inventoryId = u := congrArg Prod.snd (of_decide_eq_true hkey)
    exact ⟨d, mem_deleteEvents.mpr (List.mem_filter.mpr ⟨mem_deleteEvents.mp hd, decide_eq_true hid⟩), hkey⟩

theorem mem_eventsOf {u : Uuid} {es : List (Event lib)} : ∀ e ∈ eventsOf u es, e.inventoryId = u := by
  intro e he
  simpa using (List.mem_filter.mp he).2

theorem batch_eventsOf (u : Uuid) (es : List (Event lib)) (v : HostView) :
    v.batch u (eventsOf u es) = v.batch u es := by
  have hafter : v.afterDeletes u (eventsOf u es) = v.afterDeletes u es := by
    rw [afterDeletes, afterDeletes]
    simp only [deletedKey_eventsOf]
  rw [batch, batch, survivors, survivors, eventsOf_self mem_eventsOf, hafter]

theorem same_of_purged {db a b : Database} {g : Uuid → Bool} (ha : a.PurgedFrom db g)
    (hb : b.PurgedFrom db g) (hv : ∀ u, of a u = of b u) : a.Same b := by
  obtain ⟨hinv, hhosts⟩ := Database.same_iff_views.mpr hv
  refine ⟨hinv, hhosts, ?_, ?_, ?_⟩
  · rw [ha.uploads, hb.uploads]
    exact Table.Same.refl _
  · rw [ha.reports, hb.reports]
    exact Table.Same.refl _
  · rw [ha.hostAcks, hb.hostAcks]
    exact Table.Same.refl _

theorem endsSame_of_local {db : Database} {es : List (Event lib)}
    (h : ∀ u, (of db u).batch u es = some ((of db u).steps (eventsOf u es)) ∧
      ((of db u).gone fun o => deletedKey es (o, u)) = (of db u).goneAlong (eventsOf u es)) :
    EndsSame db es := by
  have hbatch : (handleEvents db es).raised = none := by
    rw [handleEvents_raised]
    intro u
    rw [(h u).1]
    rfl
  have heach := runEvents_each db es
  have hgone : (fun u => (of db u).gone fun o => deletedKey es (o, u)) =
      fun u => (of db u).everGone u (es.map fun e => [e]) := by
    funext u
    rw [(h u).2, everGone_singletons]
  refine ⟨hbatch, heach, same_of_purged (handleEvents_purged db es) ?_ ?_⟩
  · rw [hgone]
    exact runEvents_purged heach
  · intro u
    have hb := of_handleEvents hbatch u
    have he := of_runEvents heach u
    rw [run_singletons] at he
    rw [(h u).1, he, Option.some.injEq] at hb
    exact hb.symm

theorem EndsSame.view {db : Database} {es : List (Event lib)} (h : EndsSame db es) (u : Uuid) :
    (of db u).batch u (eventsOf u es) = some ((of db u).steps (eventsOf u es)) := by
  have he := of_runEvents h.each u
  rw [run_singletons] at he
  rw [batch_eventsOf, of_handleEvents h.batch u, he]
  exact congrArg some (Database.same_iff_views.mp ⟨h.same.inventory, h.same.hosts⟩ u)

theorem EndsSame.gone {db : Database} {es : List (Event lib)} (h : EndsSame db es) {upload : Upload}
    (hm : upload ∈ db.uploads) :
    ((of db upload.host).gone fun o => deletedKey (eventsOf upload.host es) (o, upload.host)) =
      (of db upload.host).goneAlong (eventsOf upload.host es) := by
  have hsame := h.same.uploads upload
  rw [(handleEvents_purged db es).uploads, (runEvents_purged h.each).uploads] at hsame
  simp only [Database.purge, Table.mem_deleteWhere, hm, true_and, everGone_singletons] at hsame
  simp only [deletedKey_eventsOf]
  rw [Bool.eq_iff_iff, ← not_iff_not, Bool.not_eq_true, Bool.not_eq_true]
  exact hsame

def hostOnly (u : Uuid) (o : String) : Database :=
  { Database.empty with
    hosts := .single { inventoryId := u, account := none, orgId := o }
    uploads := .single { id := 0, host := u, account := none, orgId := o, systemType := 0, source := "", checkedOn := 0 } }

theorem hostOnly_referential (u : Uuid) (o : String) : (hostOnly u o).Referential := by
  refine ⟨?_, ?_, ?_, ?_⟩
  · intro row hrow
    simp only [hostOnly, Table.mem_single] at hrow
    simp [hostOnly, hrow, Table.get?_single]
  all_goals
    intro row hrow
    simp [hostOnly, Database.empty, Table.mem_def, Table.empty] at hrow

theorem empty_referential : Database.empty.Referential := by
  refine ⟨?_, ?_, ?_, ?_⟩
  all_goals
    intro row hrow
    simp [Database.empty, Table.mem_def, Table.empty] at hrow

theorem goneAlong_hosted {v : HostView} {es : List (Event lib)} {o : String} {host : Host}
    (hhost : v.host = some host) (ho : host.orgId = o) (hes : ∀ e ∈ hostEvents es, e.orgId = o) :
    v.goneAlong es = (deleteEvents es).any fun d => d.orgId = o := by
  induction es generalizing v host with
  | nil => rfl
  | cons e es ih =>
    cases e with
    | upsert e =>
      simp only [hostEvents_upsert, List.mem_cons, forall_eq_or_imp] at hes
      rw [goneAlong_upsert, deleteEvents_upsert]
      by_cases ha : v.accepts e = true
      · have hstep : (v.step (.upsert e)).host = some (mergeHost v.host e.host) := by
          simp [step, ha, store]
        have horg : (mergeHost v.host e.host).orgId = o := by
          rw [hhost, mergeHost, ← hes.1, ← e.host_fields.2.1]
        exact ih hstep horg hes.2
      · have hstep : (v.step (.upsert e)).host = some host := by simpa [step, ha] using hhost
        exact ih hstep ho hes.2
    | delete d =>
      have hgone : (v.gone fun x => d.orgId = x) = decide (d.orgId = o) := by
        rw [HostView.gone, hhost, Option.any_some, ho]
      rw [deleteEvents_delete, List.any_cons, goneAlong_delete, hgone]
      by_cases hd : d.orgId = o
      · simp [hd]
      · have hstep : (v.step (.delete d)).host = some host := by
          simp only [step, HostView.delete, hgone, hd, decide_false, Bool.false_eq_true, if_false, hhost]
        rw [ih hstep ho hes]

theorem dropWhile_isDelete (es : List (Event lib)) :
    es.dropWhile Event.isDelete = [] ∨ ∃ e rest, es.dropWhile Event.isDelete = .upsert e :: rest := by
  induction es with
  | nil => exact Or.inl rfl
  | cons e es ih =>
    cases e with
    | upsert e => exact Or.inr ⟨e, es, rfl⟩
    | delete d => exact ih

/-- From a host alone under an org no leading delete names, the events one by one delete it
exactly if a delete after the first upsert names the upserts' org. -/
theorem goneAlong_hostOnly {u : Uuid} {es : List (Event lib)} {o a : String}
    (ho : ∀ d ∈ leadingDeletes es, d.orgId ≠ o) (ha : ∀ e ∈ hostEvents es, e.orgId = a) :
    (of (hostOnly u o) u).goneAlong es = (trailingDeletes es).any fun d => d.orgId = a := by
  have hview : of (hostOnly u o) u = ⟨fun _ => none, some { inventoryId := u, account := none, orgId := o }⟩ := by
    simp [of, hostOnly, Table.get?_single, Database.empty]
  have hany : ((leadingDeletes es).any fun d => decide (d.orgId = o)) = false := by
    simpa [List.any_eq_false] using ho
  have hkeep : ((of (hostOnly u o) u).gone fun x => (leadingDeletes es).any fun d => decide (d.orgId = x)) =
      false := by
    rw [hview]
    exact hany
  rw [(steps_split _ es).2, hkeep, Bool.false_or, trailingDeletes]
  rcases dropWhile_isDelete es with hd | ⟨e, rest, hd⟩
  · rw [hd]
    rfl
  · have hmem : ∀ x ∈ hostEvents (Event.upsert e :: rest), x.orgId = a := by
      rw [← hd, hostEvents_trailing]
      exact ha
    rw [hd, goneAlong]
    have hacc : ((of (hostOnly u o) u).delete fun x =>
        (leadingDeletes es).any fun d => decide (d.orgId = x)).accepts e = true := by
      apply accepts_of_no_row
      simp [HostView.delete, hview]
    have hstep : (((of (hostOnly u o) u).delete fun x =>
        (leadingDeletes es).any fun d => decide (d.orgId = x)).step (.upsert e)).host =
          some (mergeHost (some { inventoryId := u, account := none, orgId := o }) e.host) := by
      have hhost : ((of (hostOnly u o) u).delete fun x =>
          (leadingDeletes es).any fun d => decide (d.orgId = x)).host = (of (hostOnly u o) u).host := by
        simp [HostView.delete, hkeep]
      rw [step, hacc, if_pos rfl, store, hhost, hview]
    have horg : (mergeHost (some { inventoryId := u, account := none, orgId := o }) e.host).orgId = a := by
      rw [mergeHost, ← hmem e (by simp [hostEvents]), ← e.host_fields.2.1]
    exact goneAlong_hosted hstep horg fun x hx => hmem x (List.mem_cons_of_mem _ hx)

theorem exists_fresh (l : List String) : ∃ o, ∀ x ∈ l, x ≠ o := by
  have hinfinite : Infinite String := by
    refine Infinite.of_injective (fun n : Nat => String.ofList (List.replicate n 'a')) ?_
    intro m n h
    simpa using congrArg (fun s : String => s.toList.length) h
  obtain ⟨o, ho⟩ := Infinite.exists_notMem_finset l.toFinset
  exact ⟨o, fun x hx he => ho (List.mem_toFinset.mpr (he ▸ hx))⟩

theorem empty_delete (u : Uuid) (orgs : String → Bool) : (of Database.empty u).delete orgs = of Database.empty u := by
  ext1
  · funext o
    simp [HostView.delete, of, Database.empty]
  · simp [HostView.delete, HostView.gone, of, Database.empty]

theorem empty_accepts (u : Uuid) (e : HostEvent lib) : (of Database.empty u).accepts e = true := by
  apply accepts_of_no_row
  simp [of, Database.empty]

theorem trailingDeletes_of_no_host {es : List (Event lib)} (hes : hostEvents es = []) : trailingDeletes es = [] := by
  rcases dropWhile_isDelete es with hd | ⟨e, rest, hd⟩
  · rw [trailingDeletes, hd]
    rfl
  · have hsplit := hostEvents_trailing es
    rw [hd, hes] at hsplit
    simp [hostEvents] at hsplit

section EndsSame

variable {es : List (Event lib)} (h : ∀ db : Database, db.Referential → EndsSame db es) {u : Uuid}

include h

theorem key_of_endsSame {a b : HostEvent lib} (ha : a ∈ hostEvents (eventsOf u es)) (hb : b ∈ hostEvents (eventsOf u es)) :
    a.key = b.key := by
  have hsome : ((of Database.empty u).batch u (eventsOf u es)).isSome := by
    rw [(h Database.empty empty_referential).view u]
    rfl
  rw [batch_isSome, survivors, eventsOf_self mem_eventsOf, afterDeletes, empty_delete,
    List.filter_eq_self.mpr fun e _ => empty_accepts u e] at hsome
  obtain ⟨wa, hwa, hka⟩ := exists_winner ha
  obtain ⟨wb, hwb, hkb⟩ := exists_winner hb
  rcases hl : winners (hostEvents (eventsOf u es)) with _ | ⟨w, _ | ⟨w', rest⟩⟩
  · simp [hl] at hwa
  · simp only [hl, List.mem_singleton] at hwa hwb
    rw [← hka, ← hkb, hwa, hwb]
  · simp [hl] at hsome

theorem orgs_of_endsSame {e : HostEvent lib} (he : e ∈ hostEvents (eventsOf u es)) :
    ∀ x ∈ hostEvents (eventsOf u es), x.orgId = e.orgId :=
  fun _ hx => congrArg Prod.fst (key_of_endsSame h hx he)

theorem goneAlong_of_endsSame (o : String) :
    ((deleteEvents (eventsOf u es)).any fun d => d.orgId = o) =
      (of (hostOnly u o) u).goneAlong (eventsOf u es) := by
  have hg := (h _ (hostOnly_referential u o)).gone (Table.mem_single.mpr rfl)
  refine Eq.trans ?_ hg
  simp [HostView.gone, of, hostOnly, Table.get?_single, deletedKey_local mem_eventsOf]

/-- A delete after an upsert is for another organisation: a host of a further one would survive the batch and not the
single messages. -/
theorem other_of_endsSame {d : DeleteEvent lib} (hd : d ∈ trailingDeletes (eventsOf u es)) {e : HostEvent lib}
    (he : e ∈ hostEvents (eventsOf u es)) : e.orgId ≠ d.orgId := by
  intro horg
  obtain ⟨o, ho⟩ := exists_fresh ((deleteEvents (eventsOf u es)).map (·.orgId))
  have hfree : ∀ d ∈ deleteEvents (eventsOf u es), d.orgId ≠ o := fun d hd =>
    ho d.orgId (List.mem_map.mpr ⟨d, hd, rfl⟩)
  have hlead : ∀ d ∈ leadingDeletes (eventsOf u es), d.orgId ≠ o := by
    intro x hx
    exact hfree x (by rw [deleteEvents_split]; exact List.mem_append_left _ hx)
  have hfalse : ((deleteEvents (eventsOf u es)).any fun d => decide (d.orgId = o)) = false := by
    simpa [List.any_eq_false] using hfree
  have htrue : ((trailingDeletes (eventsOf u es)).any fun d => decide (d.orgId = e.orgId)) = true :=
    List.any_eq_true.mpr ⟨d, hd, by simp [horg]⟩
  rw [← goneAlong_hostOnly hlead (orgs_of_endsSame h he), ← goneAlong_of_endsSame h, hfalse] at htrue
  simp at htrue

theorem repeated_of_endsSame {d : DeleteEvent lib} (hd : d ∈ trailingDeletes (eventsOf u es)) :
    ∃ d' ∈ leadingDeletes (eventsOf u es), d'.orgId = d.orgId := by
  by_contra hno
  have hlead : ∀ x ∈ leadingDeletes (eventsOf u es), x.orgId ≠ d.orgId := fun x hx he => hno ⟨x, hx, he⟩
  have hhit : ((deleteEvents (eventsOf u es)).any fun x => decide (x.orgId = d.orgId)) = true :=
    List.any_eq_true.mpr ⟨d, by rw [deleteEvents_split]; exact List.mem_append_right _ hd, by simp⟩
  cases hes : hostEvents (eventsOf u es) with
  | nil => simp [trailingDeletes_of_no_host hes] at hd
  | cons e rest =>
    have hm : e ∈ hostEvents (eventsOf u es) := by simp [hes]
    rw [goneAlong_of_endsSame h, goneAlong_hostOnly hlead (orgs_of_endsSame h hm), List.any_eq_true] at hhit
    obtain ⟨x, hx, he⟩ := hhit
    exact other_of_endsSame h hx hm (of_decide_eq_true he).symm

theorem reorderable_of_endsSame (u : Uuid) : Reorderable (eventsOf u es) := by
  have hids : ∀ e ∈ eventsOf u es, e.inventoryId = u := mem_eventsOf
  have hempty := (h Database.empty empty_referential).view u
  have hseparable : Separable (eventsOf u es) :=
    ⟨fun a ha b hb => key_of_endsSame h ha hb, fun d hd e he => other_of_endsSame h hd he,
      fun d hd => repeated_of_endsSame h hd⟩
  refine ⟨hseparable, ?_⟩
  intro w c hw hc
  rw [hseparable.batch_winner hids, (hseparable.steps_trailing _).1, empty_delete, hw, hc, Option.some.injEq] at hempty
  simp only [storeIfNewer, empty_accepts, if_true] at hempty
  have horg : w.orgId = c.orgId := congrArg Prod.fst (key_of_endsSame h (newest_mem hw) (lastStored_mem hc))
  have hrow := congrFun (congrArg HostView.rows hempty) c.orgId
  have hhost := congrArg HostView.host hempty
  refine ⟨?_, ?_⟩
  · simpa [store, horg] using hrow
  · simpa [store, mergeHost, of, Database.empty] using hhost

end EndsSame

theorem map_bodies (ms : List (Message lib)) :
    (ms.map fun m => [m.body]) = (ms.map fun m => [m]).map fun ms => ms.map (·.body) := by
  simp

theorem map_events (ms : List (Message lib)) :
    ((ms.map fun m => [m]).map fun ms => ms.map (·.event)) = (ms.map (·.event)).map fun e => [e] := by
  simp

/-- For every database, a batch ends in the tables that its messages, handled one by one,
end in: exactly when the events of each inventory id are reorderable. -/
theorem batch_oneByOne_iff (ms : List (Message lib)) :
    (∀ db : Database, db.Referential →
      (handleInventoryEvent lib db (ms.map (·.body))).raised = none ∧
        (runBatches lib db (ms.map fun m => [m.body])).raised = none ∧
        (handleInventoryEvent lib db (ms.map (·.body))).db.Same
          (runBatches lib db (ms.map fun m => [m.body])).db) ↔
      ∀ u, Reorderable (eventsOf u (ms.map (·.event))) := by
  simp only [handleInventoryEvent_bodies, map_bodies, runBatches_bodies, map_events]
  constructor
  · intro h
    exact reorderable_of_endsSame fun db hdb => ⟨(h db hdb).1, (h db hdb).2.1, (h db hdb).2.2⟩
  · intro h db _
    have hends : EndsSame db (ms.map (·.event)) := by
      apply endsSame_of_local
      intro u
      have heq := (h u).batch_eq mem_eventsOf (of db u)
      rw [batch_eventsOf] at heq
      simpa only [deletedKey_eventsOf] using heq
    exact ⟨hends.batch, hends.each, hends.same⟩

theorem createdBody_reads :
    (Message.read? (createdBody "1234" "00112233-4455-6677-8899-aabbccddeeff" "2024-05-01T10:00:00+00:00") :
      Option (Message isoLibrary)).isSome = true := by
  decide +kernel

theorem deletedBody_reads :
    (Message.read? (deletedBody "1234" "00112233-4455-6677-8899-aabbccddeeff") :
      Option (Message isoLibrary)).isSome = true := by
  decide +kernel

def createdThenDeleted : List (Message isoLibrary) :=
  [.ofBody (createdBody "1234" "00112233-4455-6677-8899-aabbccddeeff" "2024-05-01T10:00:00+00:00") createdBody_reads,
    .ofBody (deletedBody "1234" "00112233-4455-6677-8899-aabbccddeeff") deletedBody_reads]

theorem batch_oneByOne_created_deleted :
    (handleInventoryEvent isoLibrary .empty (createdThenDeleted.map (·.body))).db.hosts.rows.length = 1 ∧
      (runBatches isoLibrary .empty (createdThenDeleted.map fun m => [m.body])).db.hosts.rows = [] ∧
      ¬ (handleInventoryEvent isoLibrary .empty (createdThenDeleted.map (·.body))).db.Same
        (runBatches isoLibrary .empty (createdThenDeleted.map fun m => [m.body])).db := by
  have hbatch : (handleInventoryEvent isoLibrary .empty
      (createdThenDeleted.map (·.body))).db.hosts.rows.length = 1 := by decide +kernel
  have heach : (runBatches isoLibrary .empty
      (createdThenDeleted.map fun m => [m.body])).db.hosts.rows = [] := by decide +kernel
  refine ⟨hbatch, heach, fun hsame => ?_⟩
  obtain ⟨host, hhost⟩ := List.exists_mem_of_length_pos (by rw [hbatch]; exact Nat.one_pos)
  have hm := (hsame.hosts host).mp hhost
  rw [Table.mem_def, heach] at hm
  simp at hm

end Inventory

end Advisor
