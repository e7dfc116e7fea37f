import Advisor.Inventory.View

/-! Sequences of batches. The dispatcher stops at the first one whose handler raises. -/

namespace Advisor

open Python Django Relational

namespace Inventory

variable {lib : Library}

def runBatches (lib : Library) (db : Database) : List (List Json) → Outcome
  | [] => ⟨db, none⟩
  | messages :: rest =>
    match (handleInventoryEvent lib db messages).raised with
    | some e => ⟨(handleInventoryEvent lib db messages).db, some e⟩
    | none => runBatches lib (handleInventoryEvent lib db messages).db rest

def runEvents (db : Database) : List (List (Event lib)) → Outcome
  | [] => ⟨db, none⟩
  | es :: rest =>
    match (handleEvents db es).raised with
    | some e => ⟨(handleEvents db es).db, some e⟩
    | none => runEvents (handleEvents db es).db rest

theorem runBatches_bodies (db : Database) (batches : List (List (Message lib))) :
    runBatches lib db (batches.map fun ms => ms.map (·.body)) =
      runEvents db (batches.map fun ms => ms.map (·.event)) := by
  induction batches generalizing db with
  | nil => rfl
  | cons ms rest ih =>
    simp only [List.map_cons, runBatches, runEvents, handleInventoryEvent_bodies, ih]

theorem runBatches_concat {db : Database} {pre : List (List Json)} {messages : List Json}
    (h : (runBatches lib db pre).raised = none) :
    runBatches lib db (pre ++ [messages]) =
      handleInventoryEvent lib (runBatches lib db pre).db messages := by
  induction pre generalizing db with
  | nil =>
    simp only [List.nil_append, runBatches]
    generalize handleInventoryEvent lib db messages = outcome
    obtain ⟨db', raised⟩ := outcome
    cases raised <;> rfl
  | cons first rest ih =>
    simp only [List.cons_append, runBatches] at h ⊢
    cases hr : (handleInventoryEvent lib db first).raised with
    | some e => simp [hr] at h
    | none =>
      simp only [hr] at h
      exact ih h

end Inventory

namespace HostView

open Inventory

variable {lib : Library}

def run (u : Uuid) (v : HostView) (batches : List (List (Event lib))) : Option HostView :=
  batches.foldlM (fun v es => v.batch u es) v

/-- Whether some batch of the run deletes the `Host` row. -/
def everGone (u : Uuid) (v : HostView) : List (List (Event lib)) → Bool
  | [] => false
  | es :: rest =>
    (v.gone fun o => deletedKey es (o, u)) ||
      match v.batch u es with
      | some v' => everGone u v' rest
      | none => false

end HostView

namespace Inventory

open HostView

variable {lib : Library}

theorem runEvents_cons {db : Database} {es : List (Event lib)} {rest : List (List (Event lib))} :
    (runEvents db (es :: rest)).raised = none ↔
      (handleEvents db es).raised = none ∧ (runEvents (handleEvents db es).db rest).raised = none := by
  simp only [runEvents]
  cases h : (handleEvents db es).raised <;> simp

theorem runEvents_cons_db {db : Database} {es : List (Event lib)} {rest : List (List (Event lib))}
    (h : (handleEvents db es).raised = none) :
    runEvents db (es :: rest) = runEvents (handleEvents db es).db rest := by
  simp only [runEvents, h]

theorem runEvents_raised {db : Database} {batches : List (List (Event lib))} :
    (runEvents db batches).raised = none ↔ ∀ u, ((of db u).run u batches).isSome := by
  induction batches generalizing db with
  | nil => simp [runEvents, run]
  | cons es rest ih =>
    rw [runEvents_cons, ih]
    constructor
    · rintro ⟨h, hrest⟩ u
      rw [run, List.foldlM_cons, of_handleEvents h u]
      exact hrest u
    · intro h
      have hfirst : (handleEvents db es).raised = none := by
        rw [handleEvents_raised]
        intro u
        have hu := h u
        rw [run, List.foldlM_cons] at hu
        cases hb : (of db u).batch u es with
        | none => simp [hb] at hu
        | some v => rfl
      refine ⟨hfirst, fun u => ?_⟩
      have hu := h u
      rw [run, List.foldlM_cons, of_handleEvents hfirst u] at hu
      exact hu

theorem of_runEvents {db : Database} {batches : List (List (Event lib))}
    (h : (runEvents db batches).raised = none) (u : Uuid) :
    (of db u).run u batches = some (of (runEvents db batches).db u) := by
  induction batches generalizing db with
  | nil => rfl
  | cons es rest ih =>
    obtain ⟨hfirst, hrest⟩ := runEvents_cons.mp h
    rw [run, List.foldlM_cons, of_handleEvents hfirst u, runEvents_cons_db hfirst]
    exact ih hrest

theorem runEvents_purged {db : Database} {batches : List (List (Event lib))}
    (h : (runEvents db batches).raised = none) :
    (runEvents db batches).db.PurgedFrom db fun u => (of db u).everGone u batches := by
  induction batches generalizing db with
  | nil => exact Database.PurgedFrom.refl db
  | cons es rest ih =>
    obtain ⟨hfirst, hrest⟩ := runEvents_cons.mp h
    have hp := (handleEvents_purged db es).trans (ih hrest)
    have hgone : (fun u => (of db u).everGone u (es :: rest)) = fun u =>
        ((of db u).gone fun o => deletedKey es (o, u)) ||
          (of (handleEvents db es).db u).everGone u rest := by
      funext u
      rw [everGone, of_handleEvents hfirst u]
    rw [hgone, runEvents_cons_db hfirst]
    exact hp

end Inventory

namespace HostView

open Inventory

variable {lib : Library}

def step (v : HostView) : Event lib → HostView
  | .upsert e => if v.accepts e then v.store e else v
  | .delete d => v.delete fun o => d.orgId = o

def steps (v : HostView) (es : List (Event lib)) : HostView := es.foldl step v

def goneAlong (v : HostView) : List (Event lib) → Bool
  | [] => false
  | .upsert e :: rest => (v.step (.upsert e)).goneAlong rest
  | .delete d :: rest => (v.gone fun o => d.orgId = o) || (v.step (.delete d)).goneAlong rest

@[simp] theorem steps_nil (v : HostView) : v.steps ([] : List (Event lib)) = v := rfl

theorem steps_cons (v : HostView) (e : Event lib) (es : List (Event lib)) :
    v.steps (e :: es) = (v.step e).steps es := rfl

theorem goneAlong_upsert (v : HostView) (e : HostEvent lib) (es : List (Event lib)) :
    v.goneAlong (.upsert e :: es) = (v.step (.upsert e)).goneAlong es := rfl

theorem goneAlong_delete (v : HostView) (d : DeleteEvent lib) (es : List (Event lib)) :
    v.goneAlong (.delete d :: es) =
      ((v.gone fun o => d.orgId = o) || (v.step (.delete d)).goneAlong es) := rfl

theorem delete_none (v : HostView) : (v.delete fun _ => false) = v := by
  have hgone : v.gone (fun _ => false) = false := by unfold gone; cases v.host <;> rfl
  ext1
  · rfl
  · simp [delete, hgone]

theorem gone_none (v : HostView) : v.gone (fun _ => false) = false := by
  unfold gone
  cases v.host <;> rfl

theorem deletedKey_singleton_upsert (e : HostEvent lib) (key : String × Uuid) :
    deletedKey [.upsert e] key = false := rfl

theorem deletedKey_singleton_delete (d : DeleteEvent lib) (o : String) (u : Uuid) :
    deletedKey [.delete d] (o, u) = (decide (d.orgId = o) && decide (d.inventoryId = u)) := by
  simp [deletedKey, deleteEvents]

theorem batch_singleton (u : Uuid) (v : HostView) (e : Event lib) :
    v.batch u [e] = some (if e.inventoryId = u then v.step e else v) := by
  cases e with
  | upsert e =>
    have hafter : v.afterDeletes u [Event.upsert e] = v := v.delete_none
    by_cases hu : e.inventoryId = u
    · have hlocal : eventsOf u [Event.upsert e] = [Event.upsert e] := by simp [eventsOf, hu]
      have hwin : winners [e] = [e] := rfl
      by_cases ha : v.accepts e = true
      · simp [batch, survivors, hafter, hlocal, hostEvents, hwin, ha, hu, step]
      · simp [batch, survivors, hafter, hlocal, hostEvents, hwin, ha, hu, step]
    · have hlocal : eventsOf u [Event.upsert e] = [] := by simp [eventsOf, hu]
      have hwin : winners ([] : List (HostEvent lib)) = [] := rfl
      simp [batch, survivors, hafter, hlocal, hostEvents, hwin, hu]
  | delete d =>
    have hnone : hostEvents (eventsOf u [Event.delete d]) = [] := by
      by_cases hu : d.inventoryId = u <;> simp [eventsOf, hostEvents, hu]
    have hwin : winners ([] : List (HostEvent lib)) = [] := rfl
    have hafter : v.afterDeletes u [Event.delete d] =
        if d.inventoryId = u then v.step (.delete d) else v := by
      simp only [afterDeletes, deletedKey_singleton_delete]
      by_cases hu : d.inventoryId = u
      · simp [hu, step]
      · simpa [hu] using v.delete_none
    by_cases hu : d.inventoryId = u <;> simp [batch, survivors, hnone, hwin, hafter, hu]

theorem run_singletons (u : Uuid) (v : HostView) (es : List (Event lib)) :
    v.run u (es.map fun e => [e]) = some (v.steps (eventsOf u es)) := by
  induction es generalizing v with
  | nil => rfl
  | cons e es ih =>
    rw [List.map_cons, run, List.foldlM_cons, batch_singleton]
    refine (ih _).trans ?_
    by_cases hu : e.inventoryId = u <;> simp [eventsOf, hu, steps]

theorem everGone_singletons (u : Uuid) (v : HostView) (es : List (Event lib)) :
    v.everGone u (es.map fun e => [e]) = v.goneAlong (eventsOf u es) := by
  induction es generalizing v with
  | nil => rfl
  | cons e es ih =>
    rw [List.map_cons, everGone, batch_singleton]
    by_cases hu : e.inventoryId = u
    · have hlocal : eventsOf u (e :: es) = e :: eventsOf u es := by simp [eventsOf, hu]
      rw [hlocal]
      cases e with
      | upsert e =>
        simp only [deletedKey_singleton_upsert, gone_none, Bool.false_or, hu, if_true, ih, goneAlong]
      | delete d =>
        have hd : d.inventoryId = u := hu
        simp only [deletedKey_singleton_delete, hd, decide_true, Bool.and_true, hu, if_true, ih,
          goneAlong]
    · have hlocal : eventsOf u (e :: es) = eventsOf u es := by simp [eventsOf, hu]
      rw [hlocal]
      cases e with
      | upsert e =>
        simp only [deletedKey_singleton_upsert, gone_none, Bool.false_or, hu, if_false, ih]
      | delete d =>
        have hd : ¬ d.inventoryId = u := hu
        simp only [deletedKey_singleton_delete, hd, decide_false, Bool.and_false, gone_none,
          Bool.false_or, hu, if_false, ih]

end HostView

end Advisor
