import Advisor.Inventory.Run

/-! The two host tables hold the same pairs of id and org, and what depends on a host names
the host's org, as long as an id does not turn up under a second org while its old row stays. -/

namespace Advisor

open Python Django Relational

namespace HostView

open Inventory

variable {lib : Library}

def Agrees (v : HostView) : Prop :=
  ∀ o, (v.rows o).isSome ↔ ∃ host, v.host = some host ∧ host.orgId = o

theorem Agrees.delete {v : HostView} (h : v.Agrees) (orgs : String → Bool) : (v.delete orgs).Agrees := by
  intro o
  unfold HostView.delete gone
  cases hv : v.host with
  | none =>
    have hnone : v.rows o = none := by
      rw [← Option.not_isSome_iff_eq_none, h o]
      simp [hv]
    simp [hnone]
  | some host =>
    have ho := h o
    simp only [hv, Option.some.injEq, exists_eq_left'] at ho
    by_cases hdel : orgs o = true
    · by_cases horg : host.orgId = o
      · simp [hdel, horg]
      · cases hx : orgs host.orgId <;> simp [hdel, horg, hx]
    · by_cases horg : host.orgId = o
      · simp [hdel, ho, horg]
      · cases hx : orgs host.orgId <;> simp [hdel, ho, horg, hx]

theorem Agrees.store {v : HostView} {e : HostEvent lib} (h : ∀ o, o ≠ e.orgId → v.rows o = none) :
    (v.store e).Agrees := by
  intro o
  have horg : (mergeHost v.host e.host).orgId = e.orgId := by
    rw [← e.host_fields.2.1]
    unfold mergeHost
    cases v.host <;> rfl
  simp only [HostView.store, Option.some.injEq, exists_eq_left', horg]
  by_cases ho : e.orgId = o
  · simp [ho]
  · simp [ho, h o (Ne.symm ho)]

end HostView

namespace Inventory

open HostView

variable {lib : Library}

/-- No event of the batch brings an id under an org while a row under another org stays. -/
def Settled (db : Database) (es : List (Event lib)) : Prop :=
  ∀ e ∈ hostEvents es, ∀ row ∈ db.inventory, row.inventoryId = e.inventoryId → row.orgId ≠ e.orgId →
    deletedKey es row.key = true

/-- Every row of the two host tables has its counterpart in the other. -/
structure Agreement (db : Database) : Prop where
  hostOf : ∀ row ∈ db.inventory, ∃ host ∈ db.hosts, host.inventoryId = row.inventoryId ∧ host.orgId = row.orgId
  rowOf : ∀ host ∈ db.hosts, ∃ row ∈ db.inventory, row.inventoryId = host.inventoryId ∧ row.orgId = host.orgId

structure Attached (db : Database) : Prop where
  uploads : ∀ row ∈ db.uploads, ∃ host ∈ db.hosts, host.inventoryId = row.host ∧ host.orgId = row.orgId
  reports : ∀ row ∈ db.reports, ∃ host ∈ db.hosts, host.inventoryId = row.host ∧ host.orgId = row.orgId
  hostAcks : ∀ row ∈ db.hostAcks, ∃ host ∈ db.hosts, host.inventoryId = row.host ∧ host.orgId = row.orgId

theorem agreement_iff {db : Database} : Agreement db ↔ ∀ u, (of db u).Agrees := by
  constructor
  · intro h u o
    constructor
    · intro hrow
      obtain ⟨row, hrow⟩ := Option.isSome_iff_exists.mp hrow
      obtain ⟨hm, hk⟩ := Table.get?_eq_some.mp hrow
      obtain ⟨host, hhost, hid, horg⟩ := h.hostOf row hm
      have hrid : row.inventoryId = u := congrArg Prod.snd hk
      have hro : row.orgId = o := congrArg Prod.fst hk
      exact ⟨host, Table.get?_eq_some.mpr ⟨hhost, hid.trans hrid⟩, horg.trans hro⟩
    · rintro ⟨host, hhost, horg⟩
      obtain ⟨hm, hid⟩ := Table.get?_eq_some.mp hhost
      obtain ⟨row, hrow, hrid, hro⟩ := h.rowOf host hm
      have hget : db.inventory.get? (o, u) = some row :=
        Table.get?_eq_some.mpr ⟨hrow, Prod.ext (hro.trans horg) (hrid.trans hid)⟩
      exact Option.isSome_iff_exists.mpr ⟨row, hget⟩
  · intro h
    refine ⟨fun row hrow => ?_, fun host hhost => ?_⟩
    · have hget : db.inventory.get? (row.orgId, row.inventoryId) = some row := Table.mem_iff_get?.mp hrow
      have hsome : ((of db row.inventoryId).rows row.orgId).isSome := by
        simp [of, hget]
      obtain ⟨host, hhost, horg⟩ := (h row.inventoryId row.orgId).mp hsome
      obtain ⟨hm, hid⟩ := Table.get?_eq_some.mp hhost
      exact ⟨host, hm, hid, horg⟩
    · have hget : (of db host.inventoryId).host = some host := Table.mem_iff_get?.mp hhost
      obtain ⟨row, hrow⟩ := Option.isSome_iff_exists.mp ((h host.inventoryId host.orgId).mpr ⟨host, hget, rfl⟩)
      obtain ⟨hm, hk⟩ := Table.get?_eq_some.mp hrow
      exact ⟨row, hm, congrArg Prod.snd hk, congrArg Prod.fst hk⟩

theorem handleEvents_cases (db : Database) (es : List (Event lib)) (u : Uuid) :
    of (handleEvents db es).db u = (of db u).afterDeletes u es ∨
      ∃ e ∈ hostEvents es, e.inventoryId = u ∧ ((of db u).afterDeletes u es).accepts e = true ∧
        of (handleEvents db es).db u = ((of db u).afterDeletes u es).store e := by
  by_cases h : (handleEvents db es).raised = none
  · have hb := of_handleEvents h u
    rw [batch] at hb
    rcases hs : survivors u es ((of db u).afterDeletes u es) with _ | ⟨e, _ | ⟨e', rest⟩⟩
    · simp only [hs, Option.some.injEq] at hb
      exact Or.inl hb.symm
    · simp only [hs, Option.some.injEq] at hb
      have hm : e ∈ survivors u es ((of db u).afterDeletes u es) := by simp [hs]
      obtain ⟨hw, ha⟩ := List.mem_filter.mp hm
      have hlocal := newestPerKey_subset hw
      rw [hostEvents_eventsOf] at hlocal
      obtain ⟨hes, hu⟩ := List.mem_filter.mp hlocal
      exact Or.inr ⟨e, hes, of_decide_eq_true hu, ha, hb.symm⟩
    · simp [hs] at hb
  · rw [handleEvents_of_raised h, of_deleted]
    exact Or.inl rfl

theorem Settled.rows {db : Database} {es : List (Event lib)} (h : Settled db es) {e : HostEvent lib}
    (he : e ∈ hostEvents es) {o : String} (ho : o ≠ e.orgId) :
    ((of db e.inventoryId).afterDeletes e.inventoryId es).rows o = none := by
  simp only [afterDeletes, HostView.delete, of]
  cases hrow : db.inventory.get? (o, e.inventoryId) with
  | none => simp
  | some row =>
    obtain ⟨hm, hk⟩ := Table.get?_eq_some.mp hrow
    have hid : row.inventoryId = e.inventoryId := congrArg Prod.snd hk
    have horg : row.orgId = o := congrArg Prod.fst hk
    have hdel := h e he row hm hid (by rw [horg]; exact ho)
    rw [hk] at hdel
    simp [hdel]

theorem agreement_step {db : Database} {es : List (Event lib)} (h : Agreement db) (hs : Settled db es) :
    Agreement (handleEvents db es).db := by
  rw [agreement_iff] at h ⊢
  intro u
  rcases handleEvents_cases db es u with hv | ⟨e, he, rfl, -, hv⟩
  · rw [hv]
    exact (h u).delete _
  · rw [hv]
    exact Agrees.store fun o ho => hs.rows he ho

/-- Agreement survives no other batch that goes through. -/
theorem settled_of_agreement {db : Database} {es : List (Event lib)} (h : Agreement db)
    (hok : (handleEvents db es).raised = none) (h' : Agreement (handleEvents db es).db) : Settled db es := by
  intro e he row hrow hid horg
  by_contra hdel
  have hsome : (of db e.inventoryId).rows row.orgId = some row := by
    have hget : db.inventory.get? (row.orgId, row.inventoryId) = some row := Table.mem_iff_get?.mp hrow
    rw [hid] at hget
    exact hget
  have hkept : ((of db e.inventoryId).afterDeletes e.inventoryId es).rows row.orgId = some row := by
    have hk : row.key = (row.orgId, e.inventoryId) := Prod.ext rfl hid
    rw [hk] at hdel
    simp [afterDeletes, HostView.delete, hdel, hsome]
  have hnone : ((of db e.inventoryId).afterDeletes e.inventoryId es).rows e.orgId = none := by
    rw [← Option.not_isSome_iff_eq_none]
    intro hrows
    have hagrees := (agreement_iff.mp h e.inventoryId).delete fun o => deletedKey es (o, e.inventoryId)
    obtain ⟨host, hhost, ho⟩ := (hagrees e.orgId).mp hrows
    obtain ⟨host', hhost', ho'⟩ := (hagrees row.orgId).mp (by
      rw [afterDeletes] at hkept
      rw [hkept]
      rfl)
    rw [hhost, Option.some.injEq] at hhost'
    exact horg (by rw [← ho', ← hhost', ho])
  have hlocal : e ∈ hostEvents (eventsOf e.inventoryId es) := by
    rw [hostEvents_eventsOf]
    exact List.mem_filter.mpr ⟨he, by simp⟩
  obtain ⟨w, hw, hkey⟩ := exists_winner hlocal
  have hworg : w.orgId = e.orgId := congrArg Prod.fst hkey
  have hsurvives : w ∈ survivors e.inventoryId es ((of db e.inventoryId).afterDeletes e.inventoryId es) :=
    List.mem_filter.mpr ⟨hw, accepts_of_no_row (by rw [hworg, hnone])⟩
  have hb := of_handleEvents hok e.inventoryId
  rw [batch] at hb
  rcases hs : survivors e.inventoryId es ((of db e.inventoryId).afterDeletes e.inventoryId es) with
    _ | ⟨x, _ | ⟨y, rest⟩⟩
  · simp [hs] at hsurvives
  · rw [hs, List.mem_singleton] at hsurvives
    simp only [hs, ← hsurvives, Option.some.injEq] at hb
    have hview := agreement_iff.mp h' e.inventoryId
    rw [← hb] at hview
    obtain ⟨host, hhost, ho⟩ := (hview w.orgId).mp (by simp [HostView.store])
    obtain ⟨host', hhost', ho'⟩ := (hview row.orgId).mp (by
      have hne : w.orgId ≠ row.orgId := fun h => horg (h.symm.trans hworg)
      simp [HostView.store, hne, hkept])
    rw [hhost, Option.some.injEq] at hhost'
    exact horg (by rw [← ho', ← hhost', ho, hworg])
  · simp [hs] at hb

theorem host_kept {db : Database} {es : List (Event lib)} (h : Agreement db) (hs : Settled db es)
    {host : Host} (hm : host ∈ db.hosts)
    (hgone : ((of db host.inventoryId).gone fun o => deletedKey es (o, host.inventoryId)) = false) :
    ∃ host' ∈ (handleEvents db es).db.hosts,
      host'.inventoryId = host.inventoryId ∧ host'.orgId = host.orgId := by
  have hget : (of db host.inventoryId).host = some host := Table.mem_iff_get?.mp hm
  have hdel : deletedKey es (host.orgId, host.inventoryId) = false := by
    simpa [HostView.gone, hget] using hgone
  have hafter : ((of db host.inventoryId).afterDeletes host.inventoryId es).host = some host := by
    simp [afterDeletes, HostView.delete, hgone, hget]
  rcases handleEvents_cases db es host.inventoryId with hv | ⟨e, he, hid, -, hv⟩
  · have hfound := congrArg HostView.host hv
    rw [hafter] at hfound
    exact ⟨host, (Table.get?_eq_some.mp hfound).1, rfl, rfl⟩
  · have hfound := congrArg HostView.host hv
    simp only [HostView.store, hafter, mergeHost] at hfound
    obtain ⟨hm', hid'⟩ := Table.get?_eq_some.mp hfound
    refine ⟨_, hm', hid', ?_⟩
    have horg : host.orgId = e.orgId := by
      by_contra hne
      have hnone := hs.rows he hne
      rw [hid] at hnone
      have hrow := (agreement_iff.mp h host.inventoryId host.orgId).mpr ⟨host, hget, rfl⟩
      simp only [afterDeletes, HostView.delete, hdel, Bool.false_eq_true, if_false] at hnone
      simp [hnone] at hrow
    rw [horg]
    exact e.host_fields.2.1

theorem attached_step {db : Database} {es : List (Event lib)} (h : Agreement db) (ha : Attached db)
    (hs : Settled db es) : Attached (handleEvents db es).db := by
  have hpurged := handleEvents_purged db es
  have hkept : ∀ {u o}, (∃ host ∈ db.hosts, host.inventoryId = u ∧ host.orgId = o) →
      ((of db u).gone fun o => deletedKey es (o, u)) = false →
      ∃ host ∈ (handleEvents db es).db.hosts, host.inventoryId = u ∧ host.orgId = o := by
    rintro u o ⟨host, hm, rfl, rfl⟩ hgone
    exact host_kept h hs hm hgone
  refine ⟨?_, ?_, ?_⟩
  · intro row hrow
    rw [hpurged.uploads] at hrow
    obtain ⟨hm, hgone⟩ := Table.mem_deleteWhere.mp hrow
    exact hkept (ha.uploads row hm) hgone
  · intro row hrow
    rw [hpurged.reports] at hrow
    obtain ⟨hm, hgone⟩ := Table.mem_deleteWhere.mp hrow
    exact hkept (ha.reports row hm) (Bool.or_eq_false_iff.mp hgone).1
  · intro row hrow
    rw [hpurged.hostAcks] at hrow
    obtain ⟨hm, hgone⟩ := Table.mem_deleteWhere.mp hrow
    exact hkept (ha.hostAcks row hm) hgone

/-- Other services write what depends on a host under the host's org. -/
structure Written (db db' : Database) : Prop where
  inventory : db'.inventory = db.inventory
  hosts : db'.hosts = db.hosts
  uploads : ∀ row ∈ db'.uploads, row ∈ db.uploads ∨
    ∃ host ∈ db.hosts, host.inventoryId = row.host ∧ host.orgId = row.orgId
  reports : ∀ row ∈ db'.reports, row ∈ db.reports ∨
    ∃ host ∈ db.hosts, host.inventoryId = row.host ∧ host.orgId = row.orgId
  hostAcks : ∀ row ∈ db'.hostAcks, row ∈ db.hostAcks ∨
    ∃ host ∈ db.hosts, host.inventoryId = row.host ∧ host.orgId = row.orgId

theorem Written.attached {db db' : Database} (h : Written db db') (ha : Attached db) : Attached db' := by
  refine ⟨fun row hrow => ?_, fun row hrow => ?_, fun row hrow => ?_⟩
  · rw [h.hosts]
    exact (h.uploads row hrow).elim (ha.uploads row) id
  · rw [h.hosts]
    exact (h.reports row hrow).elim (ha.reports row) id
  · rw [h.hosts]
    exact (h.hostAcks row hrow).elim (ha.hostAcks row) id

/-- Runs from empty tables whose batches are all settled. -/
inductive SettledRun (lib : Library) : Database → Prop where
  | empty : SettledRun lib Database.empty
  | batch {db : Database} (ms : List (Message lib)) : SettledRun lib db →
      Settled db (ms.map (·.event)) → SettledRun lib (handleInventoryEvent lib db (ms.map (·.body))).db
  | written {db db' : Database} : SettledRun lib db → Written db db' → SettledRun lib db'

structure NoRows (db : Database) (o : String) (u : Uuid) : Prop where
  inventory : ∀ row ∈ db.inventory, ¬ (row.inventoryId = u ∧ row.orgId = o)
  hosts : ∀ row ∈ db.hosts, ¬ (row.inventoryId = u ∧ row.orgId = o)
  uploads : ∀ row ∈ db.uploads, ¬ (row.host = u ∧ row.orgId = o)
  reports : ∀ row ∈ db.reports, ¬ (row.host = u ∧ row.orgId = o)
  hostAcks : ∀ row ∈ db.hostAcks, ¬ (row.host = u ∧ row.orgId = o)

theorem SettledRun.inv {db : Database} (h : SettledRun lib db) : Agreement db ∧ Attached db := by
  induction h with
  | empty =>
    refine ⟨⟨?_, ?_⟩, ⟨?_, ?_, ?_⟩⟩
    all_goals
      intro row hrow
      simp [Database.empty, Table.mem_def, Table.empty] at hrow
  | batch ms _ hs ih =>
    rw [handleInventoryEvent_bodies]
    exact ⟨agreement_step ih.1 hs, attached_step ih.1 ih.2 hs⟩
  | written _ hw ih =>
    obtain ⟨⟨hhost, hrow⟩, hattached⟩ := ih
    refine ⟨⟨?_, ?_⟩, hw.attached hattached⟩
    · rw [hw.inventory, hw.hosts]
      exact hhost
    · rw [hw.inventory, hw.hosts]
      exact hrow

theorem noRows_of_agreement {db : Database} (h : Agreement db) (ha : Attached db) {o : String} {u : Uuid}
    (hnone : db.inventory.get? (o, u) = none) : NoRows db o u := by
  have hrows := Table.get?_eq_none.mp hnone
  have hinv : ∀ row ∈ db.inventory, ¬ (row.inventoryId = u ∧ row.orgId = o) := by
    rintro row hrow ⟨hid, horg⟩
    exact hrows row hrow (Prod.ext horg hid)
  have hhosts : ∀ row ∈ db.hosts, ¬ (row.inventoryId = u ∧ row.orgId = o) := by
    rintro host hhost ⟨hid, horg⟩
    obtain ⟨row, hrow, hrid, hro⟩ := h.rowOf host hhost
    exact hinv row hrow ⟨hrid.trans hid, hro.trans horg⟩
  have hdependent : ∀ {u' o'}, (∃ host ∈ db.hosts, host.inventoryId = u' ∧ host.orgId = o') →
      ¬ (u' = u ∧ o' = o) := by
    rintro u' o' ⟨host, hhost, rfl, rfl⟩
    exact hhosts host hhost
  exact ⟨hinv, hhosts, fun row hrow => hdependent (ha.uploads row hrow),
    fun row hrow => hdependent (ha.reports row hrow), fun row hrow => hdependent (ha.hostAcks row hrow)⟩

/-- Along settled runs the host tables agree, no other batch that goes through would keep
them so, and a batch that only deletes an id under an org leaves nothing of the pair. -/
theorem settledRun_agreement {db : Database} (h : SettledRun lib db) :
    Agreement db ∧ ∀ ms : List (Message lib),
      ((handleInventoryEvent lib db (ms.map (·.body))).raised = none →
        (Agreement (handleInventoryEvent lib db (ms.map (·.body))).db ↔ Settled db (ms.map (·.event)))) ∧
      (Settled db (ms.map (·.event)) → ∀ o u, deletedKey (ms.map (·.event)) (o, u) = true →
        (∀ e ∈ hostEvents (ms.map (·.event)), e.row.key ≠ (o, u)) →
        NoRows (handleInventoryEvent lib db (ms.map (·.body))).db o u) := by
  refine ⟨h.inv.1, fun ms => ⟨fun hok => ?_, fun hs o u hdel hno => ?_⟩⟩
  · rw [handleInventoryEvent_bodies] at hok ⊢
    exact ⟨settled_of_agreement h.inv.1 hok, agreement_step h.inv.1⟩
  · have hafter := (SettledRun.batch ms h hs).inv
    apply noRows_of_agreement hafter.1 hafter.2
    rw [handleInventoryEvent_bodies]
    rcases handleEvents_cases db (ms.map (·.event)) u with hv | ⟨e, he, hid, -, hv⟩
    · have hrow := congrFun (congrArg HostView.rows hv) o
      simpa [of, afterDeletes, HostView.delete, hdel] using hrow
    · have hrow := congrFun (congrArg HostView.rows hv) o
      have hne : e.orgId ≠ o := fun ho => hno e he (by rw [e.row_key, ho, hid])
      simpa [of, afterDeletes, HostView.delete, HostView.store, hdel, hne] using hrow

theorem settledRun_agreement_deleted :
    NoRows (handleInventoryEvent isoLibrary (handleInventoryEvent isoLibrary .empty [firstOrg.body]).db
      [firstOrgDeleted.body]).db "1234" 88962710306127702866241727433142015 := by
  have hrun : SettledRun isoLibrary
      (handleInventoryEvent isoLibrary .empty ([firstOrg].map (·.body))).db := by
    refine .batch [firstOrg] .empty fun e _ row hrow => ?_
    simp [Database.empty, Table.mem_def, Table.empty] at hrow
  have hno : hostEvents ([firstOrgDeleted].map (·.event)) = [] := List.isEmpty_iff.mp (by decide +kernel)
  refine ((settledRun_agreement hrun).2 [firstOrgDeleted]).2 ?_ "1234" _ (by decide +kernel) ?_
  · intro e he
    rw [hno] at he
    simp at he
  · intro e he
    rw [hno] at he
    simp at he

/-- A host that reappears under another org keeps its first row, without a `Host` row. -/
theorem agreement_org_move :
    (runBatches isoLibrary .empty [[firstOrg.body], [secondOrg.body]]).raised = none ∧
      (runBatches isoLibrary .empty [[firstOrg.body], [secondOrg.body]]).db.inventory.rows.map (·.orgId) =
        ["1234", "5678"] ∧
      (runBatches isoLibrary .empty [[firstOrg.body], [secondOrg.body]]).db.hosts.rows.map (·.orgId) =
        ["5678"] ∧
      ¬ Agreement (runBatches isoLibrary .empty [[firstOrg.body], [secondOrg.body]]).db := by
  have hrows : (runBatches isoLibrary .empty [[firstOrg.body], [secondOrg.body]]).db.inventory.rows.map
      (·.orgId) = ["1234", "5678"] := by decide +kernel
  have hhosts : (runBatches isoLibrary .empty [[firstOrg.body], [secondOrg.body]]).db.hosts.rows.map
      (·.orgId) = ["5678"] := by decide +kernel
  refine ⟨by decide +kernel, hrows, hhosts, fun h => ?_⟩
  have hfirst : "1234" ∈ (runBatches isoLibrary .empty
      [[firstOrg.body], [secondOrg.body]]).db.inventory.rows.map (·.orgId) := by simp [hrows]
  obtain ⟨row, hrow, horg⟩ := List.mem_map.mp hfirst
  obtain ⟨host, hhost, -, ho⟩ := h.hostOf row hrow
  have hm := List.mem_map_of_mem (f := (·.orgId)) hhost
  rw [hhosts, List.mem_singleton, ho, horg] at hm
  simp at hm

end Inventory

end Advisor
