import Advisor.Inventory.OneByOne

/-! Handling the same batches a second time. The staleness filter knows only the rows that
are stored, so a row that was deleted can come back; it does no harm to an id whose deleted
orgs are never stored, nor to one that has a single org. -/

namespace Advisor

open Python Django Relational

namespace HostView

open Inventory

variable {lib : Library}

theorem delete_of_absent {v : HostView} {orgs : String → Bool} (h : ∀ o, orgs o = true → v.Absent o) :
    v.delete orgs = v ∧ v.gone orgs = false := by
  have hgone : v.gone orgs = false := by
    unfold HostView.gone
    cases hv : v.host with
    | none => rfl
    | some host =>
      by_contra hdel
      have hdel' : orgs host.orgId = true := by simpa using hdel
      exact (h host.orgId hdel').host host hv rfl
  refine ⟨?_, hgone⟩
  ext1
  · funext o
    by_cases ho : orgs o = true
    · simp [HostView.delete, ho, (h o ho).row]
    · simp [HostView.delete, ho]
  · simp [HostView.delete, hgone]

theorem Absent.delete_any {v : HostView} {o : String} (h : v.Absent o) (orgs : String → Bool) :
    (v.delete orgs).Absent o := by
  refine ⟨by by_cases ho : orgs o = true <;> simp [HostView.delete, ho, h.row], ?_⟩
  intro host hhost
  unfold HostView.delete at hhost
  by_cases hg : v.gone orgs = true
  · simp [hg] at hhost
  · exact h.host host (by simpa [hg] using hhost)

theorem mergeHost_orgId (stored : Option Host) (e : HostEvent lib) :
    (mergeHost stored e.host).orgId = e.orgId := by
  rw [← e.host_fields.2.1]
  unfold mergeHost
  cases stored <;> rfl

theorem Absent.store {v : HostView} {o : String} (h : v.Absent o) {e : HostEvent lib} (ho : e.orgId ≠ o) :
    (v.store e).Absent o := by
  refine ⟨by simp [HostView.store, ho, h.row], ?_⟩
  intro host hhost
  simp only [HostView.store, Option.some.injEq] at hhost
  rw [← hhost, mergeHost_orgId]
  exact ho

end HostView

namespace Inventory

open HostView

variable {lib : Library}

/-- The events of one id a batch may store, the newest text of each key. -/
def candidates (u : Uuid) (es : List (Event lib)) : List (HostEvent lib) :=
  winners (hostEvents (eventsOf u es))

theorem batch_cases {u : Uuid} {es : List (Event lib)} {v v' : HostView} (h : v.batch u es = some v') :
    ((∀ e ∈ candidates u es, (v.afterDeletes u es).accepts e = false) ∧ v' = v.afterDeletes u es) ∨
    ∃ e ∈ candidates u es, (v.afterDeletes u es).accepts e = true ∧
      (∀ x ∈ candidates u es, (v.afterDeletes u es).accepts x = true → x = e) ∧
      v' = (v.afterDeletes u es).store e := by
  have hmem (x : HostEvent lib) : x ∈ survivors u es (v.afterDeletes u es) ↔
      x ∈ candidates u es ∧ (v.afterDeletes u es).accepts x = true := List.mem_filter
  rw [batch] at h
  rcases hs : survivors u es (v.afterDeletes u es) with _ | ⟨e, _ | ⟨e', rest⟩⟩
  · simp only [hs, Option.some.injEq] at h
    refine Or.inl ⟨fun x hx => ?_, h.symm⟩
    by_contra ha
    have hin := (hmem x).mpr ⟨hx, by simpa using ha⟩
    simp [hs] at hin
  · simp only [hs, Option.some.injEq] at h
    obtain ⟨he, ha⟩ := (hmem e).mp (by simp [hs])
    refine Or.inr ⟨e, he, ha, fun x hx hax => ?_, h.symm⟩
    have hin := (hmem x).mpr ⟨hx, hax⟩
    simpa [hs] using hin
  · simp [hs] at h

theorem batch_of_none {u : Uuid} {es : List (Event lib)} {v : HostView}
    (h : ∀ e ∈ candidates u es, (v.afterDeletes u es).accepts e = false) :
    v.batch u es = some (v.afterDeletes u es) := by
  have hnil : survivors u es (v.afterDeletes u es) = [] := by
    apply List.filter_eq_nil_iff.mpr
    intro e he
    simp [h e he]
  rw [batch, hnil]

theorem candidates_subset {u : Uuid} {es : List (Event lib)} {e : HostEvent lib} (h : e ∈ candidates u es) :
    .upsert e ∈ eventsOf u es :=
  mem_hostEvents.mp (newestPerKey_subset h)

/-- The batch deletes an id only under dead orgs, and stores it only under others. -/
structure Sparing (dead : String → Prop) (u : Uuid) (es : List (Event lib)) : Prop where
  deletes : ∀ o, deletedKey es (o, u) = true → dead o
  stores : ∀ e ∈ candidates u es, ¬ dead e.orgId

section NoChurn

variable {dead : String → Prop} {u : Uuid} {es : List (Event lib)} {v v' : HostView}

theorem Sparing.absent (h : Sparing dead u es) (hb : v.batch u es = some v') {o : String} (ho : dead o)
    (hv : v.Absent o ∨ deletedKey es (o, u) = true) : v'.Absent o := by
  have hafter : (v.afterDeletes u es).Absent o := by
    rcases hv with hv | hv
    · exact hv.delete_any _
    · exact absent_of_deleted hv
  rcases batch_cases hb with ⟨-, rfl⟩ | ⟨e, he, -, -, rfl⟩
  · exact hafter
  · exact hafter.store fun heo => h.stores e he (heo ▸ ho)

theorem Sparing.afterDeletes (h : Sparing dead u es) (hv : ∀ o, dead o → deletedKey es (o, u) = true → v.Absent o) :
    v.afterDeletes u es = v ∧ (v.gone fun o => deletedKey es (o, u)) = false :=
  delete_of_absent fun o ho => hv o (h.deletes o ho) ho

def Dominated (v : HostView) (e : HostEvent lib) : Prop :=
  ∃ row, v.rows e.orgId = some row ∧ e.row.updated ≤ row.updated

theorem Dominated.not_accepts {e : HostEvent lib} (h : Dominated v e) (hc : e.canonical = true) :
    v.accepts e = false := by
  obtain ⟨row, hrow, hle⟩ := h
  have htime : v.storedTime e = some row.updated := by
    simp [HostView.storedTime, hc, hrow]
  simp only [accepts, htime, decide_eq_false_iff_not]
  exact not_lt.mpr hle

theorem dominated_of_not_accepts {e : HostEvent lib} (h : v.accepts e = false) : Dominated v e := by
  unfold HostView.accepts HostView.storedTime at h
  by_cases hc : e.canonical = true
  · cases hrow : v.rows e.orgId with
    | none => simp [hc, hrow] at h
    | some row =>
      simp only [hc, hrow, if_true, Option.map_some, decide_eq_false_iff_not] at h
      exact ⟨row, hrow, not_lt.mp h⟩
  · simp [hc] at h

theorem Sparing.dominated (h : Sparing dead u es) (hc : ∀ e ∈ candidates u es, e.canonical = true)
    (hb : v.batch u es = some v') {e : HostEvent lib} (he : ¬ dead e.orgId)
    (hv : Dominated v e ∨ e ∈ candidates u es) : Dominated v' e := by
  have hkeep : (v.afterDeletes u es).rows e.orgId = v.rows e.orgId := by
    have hno : deletedKey es (e.orgId, u) = false := by
      by_contra hdel
      exact he (h.deletes e.orgId (by simpa using hdel))
    simp [HostView.afterDeletes, HostView.delete, hno]
  rcases batch_cases hb with ⟨hnone, rfl⟩ | ⟨w, hw, ha, honly, rfl⟩
  · rcases hv with ⟨row, hrow, hle⟩ | hm
    · exact ⟨row, hkeep.trans hrow, hle⟩
    · exact dominated_of_not_accepts (hnone e hm)
  · by_cases horg : w.orgId = e.orgId
    · refine ⟨w.row, by simp [HostView.store, horg], ?_⟩
      rcases hv with ⟨row, hrow, hle⟩ | hm
      · by_contra hlt
        have hdom : Dominated (v.afterDeletes u es) w :=
          ⟨row, by rw [horg, hkeep, hrow], ((not_le.mp hlt).le).trans hle⟩
        rw [hdom.not_accepts (hc w hw)] at ha
        simp at ha
      · cases hacc : (v.afterDeletes u es).accepts e with
        | true => rw [honly e hm hacc]
        | false =>
          obtain ⟨row, hrow, hle⟩ := dominated_of_not_accepts hacc
          by_contra hlt
          have hdom : Dominated (v.afterDeletes u es) w :=
            ⟨row, by rw [horg, hrow], ((not_le.mp hlt).le).trans hle⟩
          rw [hdom.not_accepts (hc w hw)] at ha
          simp at ha
    · have hrows : ((v.afterDeletes u es).store w).rows e.orgId = (v.afterDeletes u es).rows e.orgId := by
        simp [HostView.store, horg]
      rcases hv with ⟨row, hrow, hle⟩ | hm
      · exact ⟨row, by rw [hrows, hkeep, hrow], hle⟩
      · cases hacc : (v.afterDeletes u es).accepts e with
        | true => exact absurd (congrArg HostEvent.orgId (honly e hm hacc)).symm horg
        | false =>
          obtain ⟨row, hrow, hle⟩ := dominated_of_not_accepts hacc
          exact ⟨row, by rw [hrows, hrow], hle⟩

end NoChurn

theorem run_cons {u : Uuid} {es : List (Event lib)} {rest : List (List (Event lib))} {v w : HostView} :
    v.run u (es :: rest) = some w ↔ ∃ v', v.batch u es = some v' ∧ v'.run u rest = some w := by
  rw [run, List.foldlM_cons, Option.bind_eq_bind, Option.bind_eq_some_iff]
  rfl

theorem sparing_run {dead : String → Prop} {u : Uuid} {batches : List (List (Event lib))} {v v' : HostView}
    (h : ∀ es ∈ batches, Sparing dead u es) (hrun : v.run u batches = some v') :
    (∀ o, dead o → (v.Absent o ∨ ∃ es ∈ batches, deletedKey es (o, u) = true) → v'.Absent o) ∧
      ((∀ es ∈ batches, ∀ e ∈ candidates u es, e.canonical = true) → ∀ e, ¬ dead e.orgId →
        (Dominated v e ∨ ∃ es ∈ batches, e ∈ candidates u es) → Dominated v' e) := by
  induction batches generalizing v with
  | nil =>
    simp only [run, List.foldlM_nil, Option.pure_def, Option.some.injEq] at hrun
    subst hrun
    refine ⟨fun o _ hv => ?_, fun _ e _ hv => ?_⟩
    · simpa using hv
    · simpa using hv
  | cons es rest ih =>
    obtain ⟨w, hb, hrest⟩ := run_cons.mp hrun
    have hes := h es (by simp)
    obtain ⟨habsent, hdominated⟩ := ih (fun x hx => h x (by simp [hx])) hrest
    refine ⟨fun o ho hv => habsent o ho ?_, fun hc e he hv => ?_⟩
    · rcases hv with hv | ⟨x, hx, hdel⟩
      · exact Or.inl (hes.absent hb ho (Or.inl hv))
      · rcases List.mem_cons.mp hx with rfl | hx'
        · exact Or.inl (hes.absent hb ho (Or.inr hdel))
        · exact Or.inr ⟨x, hx', hdel⟩
    · apply hdominated (fun x hx => hc x (by simp [hx])) e he
      rcases hv with hv | ⟨x, hx, hm⟩
      · exact Or.inl (hes.dominated (hc es (by simp)) hb he (Or.inl hv))
      · rcases List.mem_cons.mp hx with rfl | hx'
        · exact Or.inl (hes.dominated (hc x (by simp)) hb he (Or.inr hm))
        · exact Or.inr ⟨x, hx', hm⟩

theorem run_fixed {u : Uuid} {batches : List (List (Event lib))} {v : HostView}
    (h : ∀ es ∈ batches, v.batch u es = some v ∧ (v.gone fun o => deletedKey es (o, u)) = false) :
    v.run u batches = some v ∧ v.everGone u batches = false := by
  induction batches with
  | nil => exact ⟨rfl, rfl⟩
  | cons es rest ih =>
    obtain ⟨hb, hg⟩ := h es (by simp)
    obtain ⟨hrun, hgone⟩ := ih fun x hx => h x (by simp [hx])
    exact ⟨run_cons.mpr ⟨v, hb, hrun⟩, by rw [everGone, hg, hb]; exact hgone⟩

theorem replay_canonical {dead : String → Prop} {u : Uuid} {batches : List (List (Event lib))}
    {v v' : HostView} (h : ∀ es ∈ batches, Sparing dead u es)
    (hc : ∀ es ∈ batches, ∀ e ∈ candidates u es, e.canonical = true) (hrun : v.run u batches = some v') :
    v'.run u batches = some v' ∧ v'.everGone u batches = false := by
  obtain ⟨habsent, hdominated⟩ := sparing_run h hrun
  apply run_fixed
  intro es hes
  obtain ⟨hafter, hgone⟩ := (h es hes).afterDeletes (v := v') fun o ho hdel =>
    habsent o ho (Or.inr ⟨es, hes, hdel⟩)
  refine ⟨?_, hgone⟩
  have hnone : ∀ e ∈ candidates u es, (v'.afterDeletes u es).accepts e = false := by
    intro e he
    rw [hafter]
    exact (hdominated hc e ((h es hes).stores e he) (Or.inr ⟨es, hes, he⟩)).not_accepts (hc es hes e he)
  rw [batch_of_none hnone, hafter]

def allCandidates (u : Uuid) (batches : List (List (Event lib))) : List (HostEvent lib) :=
  batches.flatMap (candidates u)

def storeAll (v : HostView) (ws : List (HostEvent lib)) : HostView := ws.foldl HostView.store v

/-- The rows and the `Host` row are those the last of some events for them have stored. -/
structure HoldsLast (ws : List (HostEvent lib)) (v : HostView) : Prop where
  rows : ∀ o w, (ws.filter fun x => x.orgId = o).getLast? = some w → v.rows o = some w.row
  host : ∀ w, ws.getLast? = some w → ∃ stored, v.host = some (mergeHost stored w.host)

theorem mergeHost_mergeHost (stored : Option Host) (a b : HostEvent lib) :
    mergeHost (some (mergeHost stored a.host)) b.host = mergeHost stored b.host := by
  have ha := a.host_fields.2.2
  have hb := b.host_fields.2.2
  simp only [mergeHost]
  cases stored with
  | none => simp only [ha, ← hb]
  | some old => rfl

theorem storeAll_rows (v : HostView) (ws : List (HostEvent lib)) (o : String) :
    (storeAll v ws).rows o =
      match (ws.filter fun x => x.orgId = o).getLast? with
      | some w => some w.row
      | none => v.rows o := by
  induction ws using List.reverseRecOn with
  | nil => rfl
  | append_singleton ws w ih =>
    rw [storeAll, List.foldl_append]
    by_cases ho : w.orgId = o
    · simp [ho, HostView.store]
    · simpa [storeAll, ho, HostView.store, List.filter_append] using ih

theorem storeAll_host (v : HostView) (ws : List (HostEvent lib)) :
    (storeAll v ws).host =
      match ws.getLast? with
      | some w => some (mergeHost v.host w.host)
      | none => v.host := by
  induction ws using List.reverseRecOn with
  | nil => rfl
  | append_singleton ws w ih =>
    have hstep : (storeAll v (ws ++ [w])).host = some (mergeHost (storeAll v ws).host w.host) := by
      rw [storeAll, List.foldl_append]
      rfl
    rw [hstep, ih, List.getLast?_concat]
    cases ws.getLast? with
    | none => rfl
    | some a => exact congrArg some (mergeHost_mergeHost v.host a w)

theorem HoldsLast.storeAll_eq {ws : List (HostEvent lib)} {v : HostView} (h : HoldsLast ws v) :
    storeAll v ws = v := by
  ext1
  · funext o
    rw [storeAll_rows]
    cases hl : (ws.filter fun x => x.orgId = o).getLast? with
    | none => rfl
    | some w => exact (h.rows o w hl).symm
  · rw [storeAll_host]
    cases hl : ws.getLast? with
    | none => rfl
    | some w =>
      obtain ⟨stored, hs⟩ := h.host w hl
      simp only [hs]
      rw [mergeHost_mergeHost]

theorem batch_uncanonical {u : Uuid} {es : List (Event lib)} {v v' : HostView}
    (hc : ∀ e ∈ candidates u es, e.canonical = false) (hb : v.batch u es = some v') :
    (candidates u es).length ≤ 1 ∧ v' = storeAll (v.afterDeletes u es) (candidates u es) := by
  have hacc : ∀ x ∈ candidates u es, (v.afterDeletes u es).accepts x = true := fun x hx =>
    accepts_of_not_canonical (hc x hx)
  have hsurvivors : survivors u es (v.afterDeletes u es) = candidates u es :=
    List.filter_eq_self.mpr hacc
  rw [batch, hsurvivors] at hb
  rcases hs : candidates u es with _ | ⟨e, _ | ⟨e', rest⟩⟩
  · simp only [hs, Option.some.injEq] at hb
    exact ⟨by simp, hb.symm⟩
  · simp only [hs, Option.some.injEq] at hb
    exact ⟨by simp, hb.symm⟩
  · simp [hs] at hb

theorem batch_of_uncanonical {u : Uuid} {es : List (Event lib)} (v : HostView)
    (hc : ∀ e ∈ candidates u es, e.canonical = false) (hl : (candidates u es).length ≤ 1) :
    v.batch u es = some (storeAll (v.afterDeletes u es) (candidates u es)) := by
  have hsurvivors : survivors u es (v.afterDeletes u es) = candidates u es :=
    List.filter_eq_self.mpr fun x hx => accepts_of_not_canonical (hc x hx)
  rw [batch, hsurvivors]
  rcases hs : candidates u es with _ | ⟨e, _ | ⟨e', rest⟩⟩
  · rfl
  · rfl
  · simp [hs] at hl

theorem HoldsLast.append {ws xs : List (HostEvent lib)} {v : HostView} (h : HoldsLast ws v) :
    HoldsLast (ws ++ xs) (storeAll v xs) := by
  refine ⟨fun o w hw => ?_, fun w hw => ?_⟩
  · rw [storeAll_rows]
    rw [List.filter_append, List.getLast?_append] at hw
    cases hx : (xs.filter fun x => x.orgId = o).getLast? with
    | none =>
      rw [hx] at hw
      exact h.rows o w (by simpa using hw)
    | some x =>
      rw [hx] at hw
      simp only [Option.some_or, Option.some.injEq] at hw
      rw [hw]
  · rw [storeAll_host]
    rw [List.getLast?_append] at hw
    cases hx : xs.getLast? with
    | none =>
      rw [hx] at hw
      exact h.host w (by simpa using hw)
    | some x =>
      rw [hx] at hw
      simp only [Option.some_or, Option.some.injEq] at hw
      exact ⟨v.host, by rw [hw]⟩

theorem Sparing.holdsLast {dead : String → Prop} {u : Uuid} {es : List (Event lib)} {v : HostView}
    (h : Sparing dead u es) {ws : List (HostEvent lib)} (hws : ∀ w ∈ ws, ¬ dead w.orgId)
    (hv : HoldsLast ws v) : HoldsLast ws (v.afterDeletes u es) := by
  have hno : ∀ o, ¬ dead o → deletedKey es (o, u) = false := by
    intro o ho
    by_contra hdel
    exact ho (h.deletes o (by simpa using hdel))
  refine ⟨fun o w hw => ?_, fun w hw => ?_⟩
  · have hm := List.mem_filter.mp (List.mem_of_getLast? hw)
    have horg : w.orgId = o := of_decide_eq_true hm.2
    have hdel := hno o (horg ▸ hws w hm.1)
    simp [HostView.afterDeletes, HostView.delete, hdel, hv.rows o w hw]
  · obtain ⟨stored, hs⟩ := hv.host w hw
    have hdel := hno w.orgId (hws w (List.mem_of_getLast? hw))
    have hgone : (v.gone fun o => deletedKey es (o, u)) = false := by
      simp [HostView.gone, hs, mergeHost_orgId, hdel]
    exact ⟨stored, by simp [HostView.afterDeletes, HostView.delete, hgone, hs]⟩

theorem run_holdsLast {dead : String → Prop} {u : Uuid} {batches : List (List (Event lib))} {v v' : HostView}
    (h : ∀ es ∈ batches, Sparing dead u es)
    (hc : ∀ es ∈ batches, ∀ e ∈ candidates u es, e.canonical = false) (hrun : v.run u batches = some v')
    {ws : List (HostEvent lib)} (hws : ∀ w ∈ ws, ¬ dead w.orgId) (hv : HoldsLast ws v) :
    HoldsLast (ws ++ allCandidates u batches) v' ∧
      ∀ es ∈ batches, (candidates u es).length ≤ 1 := by
  induction batches generalizing v ws with
  | nil =>
    simp only [run, List.foldlM_nil, Option.pure_def, Option.some.injEq] at hrun
    subst hrun
    simpa [allCandidates] using hv
  | cons es rest ih =>
    obtain ⟨w, hb, hrest⟩ := run_cons.mp hrun
    have hes := h es (by simp)
    obtain ⟨hl, rfl⟩ := batch_uncanonical (hc es (by simp)) hb
    have hws' : ∀ w ∈ ws ++ candidates u es, ¬ dead w.orgId := by
      intro w hw
      rcases List.mem_append.mp hw with hm | hm
      · exact hws w hm
      · exact hes.stores w hm
    obtain ⟨hlast, hlength⟩ := ih (fun x hx => h x (by simp [hx])) (fun x hx => hc x (by simp [hx])) hrest hws'
      (hes.holdsLast hws hv).append
    refine ⟨by simpa [allCandidates] using hlast, ?_⟩
    intro x hx
    rcases List.mem_cons.mp hx with rfl | hx'
    · exact hl
    · exact hlength x hx'

theorem run_uncanonical {dead : String → Prop} {u : Uuid} {batches : List (List (Event lib))} {v : HostView}
    (h : ∀ es ∈ batches, Sparing dead u es)
    (hc : ∀ es ∈ batches, ∀ e ∈ candidates u es, e.canonical = false)
    (hl : ∀ es ∈ batches, (candidates u es).length ≤ 1)
    (hv : ∀ es ∈ batches, ∀ o, deletedKey es (o, u) = true → v.Absent o) :
    v.run u batches = some (storeAll v (allCandidates u batches)) ∧ v.everGone u batches = false := by
  induction batches generalizing v with
  | nil => exact ⟨rfl, rfl⟩
  | cons es rest ih =>
    have hes := h es (by simp)
    obtain ⟨hafter, hgone⟩ := hes.afterDeletes (v := v) fun o _ hdel => hv es (by simp) o hdel
    have hb := batch_of_uncanonical v (hc es (by simp)) (hl es (by simp))
    rw [hafter] at hb
    obtain ⟨hrun, hever⟩ := ih (v := storeAll v (candidates u es)) (fun x hx => h x (by simp [hx]))
      (fun x hx => hc x (by simp [hx])) (fun x hx => hl x (by simp [hx])) (by
        intro x hx o hdel
        exact hes.absent hb ((h x (by simp [hx])).deletes o hdel) (Or.inl (hv x (by simp [hx]) o hdel)))
    refine ⟨run_cons.mpr ⟨_, hb, ?_⟩, by rw [everGone, hgone, hb]; exact hever⟩
    rw [hrun]
    simp [storeAll, allCandidates, List.foldl_append]

theorem replay_uncanonical {dead : String → Prop} {u : Uuid} {batches : List (List (Event lib))}
    {v v' : HostView} (h : ∀ es ∈ batches, Sparing dead u es)
    (hc : ∀ es ∈ batches, ∀ e ∈ candidates u es, e.canonical = false) (hrun : v.run u batches = some v') :
    v'.run u batches = some v' ∧ v'.everGone u batches = false := by
  have hempty : HoldsLast ([] : List (HostEvent lib)) v := ⟨by simp, by simp⟩
  obtain ⟨hlast, hl⟩ := run_holdsLast h hc hrun (by simp) hempty
  obtain ⟨habsent, -⟩ := sparing_run h hrun
  obtain ⟨hrun', hever⟩ := run_uncanonical (v := v') h hc hl fun es hes o hdel =>
    habsent o ((h es hes).deletes o hdel) (Or.inr ⟨es, hes, hdel⟩)
  rw [hrun', HoldsLast.storeAll_eq (by simpa using hlast)]
  exact ⟨rfl, hever⟩

section OneOrg

variable {o : String} {u : Uuid} {es : List (Event lib)}

/-- Two states of an id that differ at most in what they hold under one org. -/
structure SameBut (o : String) (v w : HostView) : Prop where
  rows : ∀ o', o' ≠ o → v.rows o' = w.rows o'
  left : ∀ host, v.host = some host → host.orgId = o
  right : ∀ host, w.host = some host → host.orgId = o

/-- The batch is about one org and one key of the id. -/
structure OneKey (o : String) (u : Uuid) (es : List (Event lib)) : Prop where
  deletes : ∀ o', deletedKey es (o', u) = true → o' = o
  stores : ∀ e ∈ candidates u es, e.orgId = o
  single : (candidates u es).length ≤ 1

theorem isSome_of_oneKey (h : OneKey o u es) (v : HostView) : (v.batch u es).isSome := by
  rw [batch_isSome]
  exact (List.length_filter_le _ _).trans h.single

theorem host_store {v : HostView} {e : HostEvent lib} (he : e.orgId = o) :
    ∀ host, (v.store e).host = some host → host.orgId = o := by
  intro host hhost
  simp only [HostView.store, Option.some.injEq] at hhost
  rw [← hhost, mergeHost_orgId, he]

theorem host_batch (h : OneKey o u es) {v v' : HostView} (hb : v.batch u es = some v')
    (hv : ∀ host, v.host = some host → host.orgId = o) : ∀ host, v'.host = some host → host.orgId = o := by
  rcases batch_cases hb with ⟨-, rfl⟩ | ⟨e, he, -, -, rfl⟩
  · intro host hhost
    simp only [HostView.afterDeletes, HostView.delete] at hhost
    split at hhost
    · simp at hhost
    · exact hv host hhost
  · exact host_store (h.stores e he)

theorem rows_batch (h : OneKey o u es) {v v' : HostView} (hb : v.batch u es = some v') {o' : String}
    (ho : o' ≠ o) : v'.rows o' = v.rows o' := by
  have hno : deletedKey es (o', u) = false := by
    by_contra hdel
    exact ho (h.deletes o' (by simpa using hdel))
  have hafter : (v.afterDeletes u es).rows o' = v.rows o' := by
    simp [HostView.afterDeletes, HostView.delete, hno]
  rcases batch_cases hb with ⟨-, rfl⟩ | ⟨e, he, -, -, rfl⟩
  · exact hafter
  · have hne : e.orgId ≠ o' := fun heo => ho (heo.symm.trans (h.stores e he))
    simpa [HostView.store, hne] using hafter

theorem afterDeletes_sameBut {v w : HostView} (hvw : SameBut o v w)
    (hdel : deletedKey es (o, u) = true) : v.afterDeletes u es = w.afterDeletes u es := by
  have hhost {x : HostView} (hx : ∀ host, x.host = some host → host.orgId = o) :
      (x.afterDeletes u es).host = none := by
    cases hxh : x.host with
    | none => simp [HostView.afterDeletes, HostView.delete, hxh]
    | some host => simp [HostView.afterDeletes, HostView.delete, HostView.gone, hxh, hx host hxh, hdel]
  ext1
  · funext o'
    by_cases ho : o' = o
    · simp [HostView.afterDeletes, HostView.delete, ho, hdel]
    · simp [HostView.afterDeletes, HostView.delete, hvw.rows o' ho]
  · rw [hhost hvw.left, hhost hvw.right]

theorem run_oneOrg {batches : List (List (Event lib))} (h : ∀ es ∈ batches, OneKey o u es)
    {v w v' : HostView} (hvw : SameBut o v w) (hrun : v.run u batches = some v') :
    ∃ w', w.run u batches = some w' ∧ SameBut o v' w' ∧
      ((∃ es ∈ batches, deletedKey es (o, u) = true) → v' = w') := by
  induction batches generalizing v w with
  | nil =>
    simp only [run, List.foldlM_nil, Option.pure_def, Option.some.injEq] at hrun
    subst hrun
    exact ⟨w, rfl, hvw, by simp⟩
  | cons es rest ih =>
    obtain ⟨a, hb, hrest⟩ := run_cons.mp hrun
    have hes := h es (by simp)
    obtain ⟨b, hb'⟩ := Option.isSome_iff_exists.mp (isSome_of_oneKey hes w)
    have hab : SameBut o a b := by
      refine ⟨fun o' ho => ?_, host_batch hes hb hvw.left, host_batch hes hb' hvw.right⟩
      rw [rows_batch hes hb ho, rows_batch hes hb' ho, hvw.rows o' ho]
    obtain ⟨w', hrun', hsame, heq⟩ := ih (fun x hx => h x (by simp [hx])) hab hrest
    refine ⟨w', run_cons.mpr ⟨b, hb', hrun'⟩, hsame, ?_⟩
    rintro ⟨x, hx, hdel⟩
    rcases List.mem_cons.mp hx with rfl | hx'
    · have hafter := afterDeletes_sameBut hvw hdel
      have hsame' : a = b := by
        rw [batch, hafter] at hb
        rw [batch, hb, Option.some.injEq] at hb'
        exact hb'
      rw [← hsame', hrest, Option.some.injEq] at hrun'
      exact hrun'
    · exact heq ⟨x, hx', hdel⟩

theorem everGone_oneOrg {batches : List (List (Event lib))} (h : ∀ es ∈ batches, OneKey o u es)
    (hdel : ∃ es ∈ batches, deletedKey es (o, u) = true) {v v' : HostView}
    (hrun : v.run u batches = some v') {host : Host} (hhost : v.host = some host) (ho : host.orgId = o) :
    v.everGone u batches = true := by
  induction batches generalizing v host with
  | nil => simp at hdel
  | cons es rest ih =>
    obtain ⟨a, hb, hrest⟩ := run_cons.mp hrun
    by_cases hes : deletedKey es (o, u) = true
    · have hgone : (v.gone fun x => deletedKey es (x, u)) = true := by
        simp [HostView.gone, hhost, ho, hes]
      rw [everGone, hgone, Bool.true_or]
    · have hgone : (v.gone fun x => deletedKey es (x, u)) = false := by
        simpa [HostView.gone, hhost, ho] using hes
      have hafter : (v.afterDeletes u es).host = some host := by
        simp [HostView.afterDeletes, HostView.delete, hgone, hhost]
      have hdel' : ∃ es ∈ rest, deletedKey es (o, u) = true := by
        obtain ⟨x, hx, hxdel⟩ := hdel
        rcases List.mem_cons.mp hx with rfl | hx'
        · exact absurd hxdel hes
        · exact ⟨x, hx', hxdel⟩
      rw [everGone, hb, hgone, Bool.false_or]
      have ha : ∃ host', a.host = some host' ∧ host'.orgId = o := by
        rcases batch_cases hb with ⟨-, rfl⟩ | ⟨e, he, -, -, rfl⟩
        · exact ⟨host, hafter, ho⟩
        · refine ⟨mergeHost (v.afterDeletes u es).host e.host, rfl, ?_⟩
          rw [mergeHost_orgId, (h es (by simp)).stores e he]
      obtain ⟨host', hhost', ho'⟩ := ha
      exact ih (fun x hx => h x (by simp [hx])) hdel' hrest hhost' ho'

theorem run_sameBut {batches : List (List (Event lib))} (h : ∀ es ∈ batches, OneKey o u es)
    {v v' : HostView} (hrun : v.run u batches = some v')
    (hv : ∀ host, v.host = some host → host.orgId = o) : SameBut o v v' := by
  induction batches generalizing v with
  | nil =>
    simp only [run, List.foldlM_nil, Option.pure_def, Option.some.injEq] at hrun
    subst hrun
    exact ⟨fun _ _ => rfl, hv, hv⟩
  | cons es rest ih =>
    obtain ⟨a, hb, hrest⟩ := run_cons.mp hrun
    have hes := h es (by simp)
    have ha := ih (fun x hx => h x (by simp [hx])) hrest (host_batch hes hb hv)
    exact ⟨fun o' ho => (rows_batch hes hb ho).symm.trans (ha.rows o' ho), hv, ha.right⟩

end OneOrg

/-- The events of one id that can be handled twice: they spell the id one way, and either no
org both deletes and stores it, or only one org, the one of its `Host` row, is concerned. -/
structure Replayable (v : HostView) (es : List (Event lib)) : Prop where
  oneSpelling : ∀ a ∈ hostEvents es, ∀ b ∈ hostEvents es, a.hostId = b.hostId
  orgs : (∀ d ∈ deleteEvents es, ∀ e ∈ hostEvents es, d.orgId ≠ e.orgId) ∨
    ∃ o, (∀ e ∈ hostEvents es, e.orgId = o) ∧ (∀ d ∈ deleteEvents es, d.orgId = o) ∧
      ∀ host, v.host = some host → host.orgId = o

theorem hostEvents_flatten {u : Uuid} {batches : List (List (Event lib))} {es : List (Event lib)}
    (hes : es ∈ batches) {e : HostEvent lib} (he : e ∈ candidates u es) :
    e ∈ hostEvents (eventsOf u batches.flatten) := by
  obtain ⟨hm, hu⟩ := List.mem_filter.mp (candidates_subset he)
  exact mem_hostEvents.mpr (List.mem_filter.mpr ⟨List.mem_flatten.mpr ⟨es, hes, hm⟩, hu⟩)

theorem deleteEvents_flatten {u : Uuid} {batches : List (List (Event lib))} {es : List (Event lib)}
    (hes : es ∈ batches) {o : String} (hdel : deletedKey es (o, u) = true) :
    ∃ d ∈ deleteEvents (eventsOf u batches.flatten), d.orgId = o := by
  obtain ⟨d, hd, hkey⟩ := List.any_eq_true.mp hdel
  have hkey' := of_decide_eq_true hkey
  have hid : d.inventoryId = u := congrArg Prod.snd hkey'
  refine ⟨d, mem_deleteEvents.mpr (List.mem_filter.mpr ⟨?_, decide_eq_true hid⟩), congrArg Prod.fst hkey'⟩
  exact List.mem_flatten.mpr ⟨es, hes, mem_deleteEvents.mp hd⟩

theorem replay_sparing {dead : String → Prop} {u : Uuid} {batches : List (List (Event lib))} {v v' : HostView}
    (h : ∀ es ∈ batches, Sparing dead u es)
    (hspelling : ∀ a ∈ hostEvents (eventsOf u batches.flatten), ∀ b ∈ hostEvents (eventsOf u batches.flatten),
      a.hostId = b.hostId)
    (hrun : v.run u batches = some v') : v'.run u batches = some v' ∧ v'.everGone u batches = false := by
  by_cases hc : ∀ e ∈ hostEvents (eventsOf u batches.flatten), e.canonical = true
  · exact replay_canonical h (fun es hes e he => hc e (hostEvents_flatten hes he)) hrun
  · simp only [not_forall] at hc
    obtain ⟨x, hx, hxc⟩ := hc
    refine replay_uncanonical h (fun es hes e he => ?_) hrun
    rw [HostEvent.canonical, hspelling e (hostEvents_flatten hes he) x hx]
    simpa [HostEvent.canonical] using hxc

/-- The local half: a second pass changes nothing for the id, and deletes its `Host` row only
if the first pass did or there was none. -/
theorem Replayable.run_again {u : Uuid} {batches : List (List (Event lib))} {v v' : HostView}
    (h : Replayable v (eventsOf u batches.flatten)) (hrun : v.run u batches = some v') :
    v'.run u batches = some v' ∧
      (v'.everGone u batches = true → v.everGone u batches = true ∨ v.host = none) := by
  rcases h.orgs with hchurn | ⟨o, hstores, hdeletes, hhost⟩
  · have hsparing : ∀ es ∈ batches,
        Sparing (fun o => ∃ d ∈ deleteEvents (eventsOf u batches.flatten), d.orgId = o) u es := by
      intro es hes
      refine ⟨fun o hdel => deleteEvents_flatten hes hdel, ?_⟩
      rintro e he ⟨d, hd, horg⟩
      exact hchurn d hd e (hostEvents_flatten hes he) horg
    obtain ⟨hagain, hgone⟩ := replay_sparing hsparing h.oneSpelling hrun
    exact ⟨hagain, by simp [hgone]⟩
  · have hone : ∀ es ∈ batches, OneKey o u es := by
      intro es hes
      refine ⟨fun o' hdel => ?_, fun e he => hstores e (hostEvents_flatten hes he), ?_⟩
      · obtain ⟨d, hd, rfl⟩ := deleteEvents_flatten hes hdel
        exact hdeletes d hd
      · have hnodup : ((candidates u es).map HostEvent.key).Nodup := nodup_newestPerKey _
        have hkey : ∀ a ∈ candidates u es, ∀ b ∈ candidates u es, a.key = b.key := by
          intro a ha b hb
          have ha' := hostEvents_flatten hes ha
          have hb' := hostEvents_flatten hes hb
          exact Prod.ext ((hstores a ha').trans (hstores b hb').symm) (h.oneSpelling a ha' b hb')
        rcases hc : candidates u es with _ | ⟨a, _ | ⟨b, rest⟩⟩
        · simp
        · simp
        · have hab := hkey a (by simp [hc]) b (by simp [hc])
          simp [hc, hab] at hnodup
    by_cases hdel : ∃ es ∈ batches, deletedKey es (o, u) = true
    · obtain ⟨w, hagain, -, heq⟩ := run_oneOrg hone (run_sameBut hone hrun hhost) hrun
      refine ⟨by rw [hagain, heq hdel], fun _ => ?_⟩
      cases hv : v.host with
      | none => exact Or.inr rfl
      | some host => exact Or.inl (everGone_oneOrg hone hdel hrun hv (hhost host hv))
    · have hsparing : ∀ es ∈ batches, Sparing (fun _ => False) u es := by
        intro es hes
        refine ⟨fun o' hdel' => hdel ⟨es, hes, ?_⟩, fun _ _ => not_false⟩
        rw [← (hone es hes).deletes o' hdel']
        exact hdel'
      obtain ⟨hagain, hgone⟩ := replay_sparing hsparing h.oneSpelling hrun
      exact ⟨hagain, by simp [hgone]⟩

end Inventory

namespace Database

theorem purge_again {db db' : Database} {g g' : Uuid → Bool} (hdb : db.Referential)
    (h : db'.PurgedFrom db g) (hg : ∀ u, g' u = true → g u = true ∨ db.hosts.get? u = none) :
    (db'.purge g').uploads.Same db'.uploads ∧ (db'.purge g').reports.Same db'.reports ∧
      (db'.purge g').hostAcks.Same db'.hostAcks := by
  have hkept : ∀ {u}, (db.hosts.get? u).isSome → g u = false → g' u = false := by
    intro u hsome hgu
    by_contra hgu'
    rcases hg u (by simpa using hgu') with hx | hx
    · simp [hgu] at hx
    · simp [hx] at hsome
  have huploads : ∀ row ∈ db'.uploads, g' row.host = false := by
    intro row hrow
    rw [h.uploads] at hrow
    obtain ⟨hm, hgone⟩ := Table.mem_deleteWhere.mp hrow
    exact hkept (hdb.uploads row hm) hgone
  refine ⟨fun row => ?_, fun row => ?_, fun row => ?_⟩
  · simp only [purge, Table.mem_deleteWhere]
    exact ⟨And.left, fun hrow => ⟨hrow, huploads row hrow⟩⟩
  · simp only [purge, Table.mem_deleteWhere]
    refine ⟨And.left, fun hrow => ⟨hrow, ?_⟩⟩
    have hrow' := hrow
    rw [h.reports] at hrow'
    obtain ⟨hm, hgone⟩ := Table.mem_deleteWhere.mp hrow'
    have hhost := hkept (hdb.reports row hm) (Bool.or_eq_false_iff.mp hgone).1
    rw [hhost, Bool.false_or]
    cases hu : db'.uploads.get? row.upload with
    | none => rfl
    | some upload => exact huploads upload (Table.get?_eq_some.mp hu).1
  · simp only [purge, Table.mem_deleteWhere]
    refine ⟨And.left, fun hrow => ⟨hrow, ?_⟩⟩
    rw [h.hostAcks] at hrow
    obtain ⟨hm, hgone⟩ := Table.mem_deleteWhere.mp hrow
    exact hkept (hdb.hostAcks row hm) hgone

end Database

namespace Inventory

open HostView

variable {lib : Library}

theorem runEvents_again {db : Database} {batches : List (List (Event lib))} (hdb : db.Referential)
    (h : ∀ u, Replayable (of db u) (eventsOf u batches.flatten)) (hok : (runEvents db batches).raised = none) :
    (runEvents (runEvents db batches).db batches).raised = none ∧
      (runEvents (runEvents db batches).db batches).db.Same (runEvents db batches).db := by
  have hlocal := fun u => (h u).run_again (of_runEvents hok u)
  have hagain : (runEvents (runEvents db batches).db batches).raised = none := by
    rw [runEvents_raised]
    intro u
    rw [(hlocal u).1]
    rfl
  have hviews : ∀ u, of (runEvents (runEvents db batches).db batches).db u = of (runEvents db batches).db u := by
    intro u
    have hsecond := of_runEvents hagain u
    rw [(hlocal u).1, Option.some.injEq] at hsecond
    exact hsecond.symm
  obtain ⟨hinv, hhosts⟩ := Database.same_iff_views.mpr hviews
  have hpurged := runEvents_purged hagain
  obtain ⟨huploads, hreports, hacks⟩ := Database.purge_again hdb (runEvents_purged hok)
    fun u hu => (hlocal u).2 hu
  refine ⟨hagain, hinv, hhosts, ?_, ?_, ?_⟩
  · rw [hpurged.uploads]
    exact huploads
  · rw [hpurged.reports]
    exact hreports
  · rw [hpurged.hostAcks]
    exact hacks

/-- Batches that went through go through again, and change nothing. -/
theorem replay_same {db : Database} {batches : List (List (Message lib))} (hdb : db.Referential)
    (h : ∀ u, Replayable (of db u) (eventsOf u (batches.flatten.map (·.event))))
    (hok : (runBatches lib db (batches.map fun ms => ms.map (·.body))).raised = none) :
    let first := (runBatches lib db (batches.map fun ms => ms.map (·.body))).db
    let second := runBatches lib first (batches.map fun ms => ms.map (·.body))
    second.raised = none ∧ second.db.Same first := by
  have hflat : batches.flatten.map (·.event) = (batches.map fun ms => ms.map (·.event)).flatten := by
    rw [List.map_flatten]
  rw [runBatches_bodies] at hok
  simp only [runBatches_bodies]
  exact runEvents_again hdb (by simpa only [hflat] using h) hok

theorem replay_same_deleted :
    let bodies := [[firstOrg.body], [firstOrgDeleted.body]]
    let first := (runBatches isoLibrary .empty bodies).db
    (runBatches isoLibrary first bodies).raised = none ∧ (runBatches isoLibrary first bodies).db.Same first := by
  have hstores : (hostEvents ([[firstOrg], [firstOrgDeleted]].flatten.map (·.event))).all
      (fun e => e.orgId = "1234" ∧ e.hostId = "00112233-4455-6677-8899-aabbccddeeff") = true := by decide +kernel
  have hdeletes : (deleteEvents ([[firstOrg], [firstOrgDeleted]].flatten.map (·.event))).all
      (fun d => d.orgId = "1234") = true := by decide +kernel
  refine @replay_same _ _ [[firstOrg], [firstOrgDeleted]] empty_referential (fun u => ?_) (by decide +kernel)
  have hstored : ∀ e ∈ hostEvents (eventsOf u ([[firstOrg], [firstOrgDeleted]].flatten.map (·.event))),
      e.orgId = "1234" ∧ e.hostId = "00112233-4455-6677-8899-aabbccddeeff" := by
    intro e he
    rw [hostEvents_eventsOf] at he
    exact of_decide_eq_true (List.all_eq_true.mp hstores e (List.mem_of_mem_filter he))
  refine ⟨fun a ha b hb => ?_, Or.inr ⟨"1234", fun e he => (hstored e he).1, fun d hd => ?_, ?_⟩⟩
  · rw [(hstored a ha).2, (hstored b hb).2]
  · have hd' := mem_deleteEvents.mpr (List.mem_of_mem_filter (mem_deleteEvents.mp hd))
    exact of_decide_eq_true (List.all_eq_true.mp hdeletes d hd')
  · simp [of, Database.empty]

/-- The first org's row is deleted after the host has moved, and comes back in the replay. -/
theorem replay_org_move :
    let bodies := [[firstOrg.body], [secondOrg.body], [firstOrgDeleted.body]]
    let first := runBatches isoLibrary .empty bodies
    let second := runBatches isoLibrary first.db bodies
    first.raised = none ∧ second.raised = none ∧ first.db.hosts.rows.map (·.orgId) = ["5678"] ∧
      second.db.hosts.rows = [] ∧ ¬ second.db.Same first.db := by
  intro bodies first second
  have hfirst : first.db.hosts.rows.map (·.orgId) = ["5678"] := by decide +kernel
  have hsecond : second.db.hosts.rows = [] := by decide +kernel
  refine ⟨by decide +kernel, by decide +kernel, hfirst, hsecond, fun hsame => ?_⟩
  obtain ⟨host, hhost, -⟩ := List.mem_map.mp (show "5678" ∈ first.db.hosts.rows.map (·.orgId) by simp [hfirst])
  have hm := (hsame.hosts host).mpr hhost
  rw [Table.mem_def, hsecond] at hm
  simp at hm

end Inventory

end Advisor
