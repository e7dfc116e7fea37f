import Advisor.Satellite.Additions

/-! Whether the actions of a plan stay with the org of the plan and with its Satellite. -/

namespace Advisor.Satellite

open Python Django Relational

def Inside (orgId : String) (branchId : Uuid) (host : Host) : Prop :=
  host.orgId = orgId ∧ host.branchId = some branchId

/-- Every action of a plan is for a host of the plan's org and Satellite. -/
def Tenanted (w : World) : Prop :=
  ∀ action ∈ w.actions, ∃ plan ∈ w.plans, ∃ host ∈ w.tables.hosts,
    action.plan = plan.id ∧ action.host = host.inventoryId ∧ Inside plan.orgId plan.branchId host

section Adding

variable (castTime : Reports.CastTime)

/-- If the actions can be added at all: every host some entry asks for is inside, or the plan lists it already. -/
def AddsInside (w : Surroundings) (request : Request) (plan : SatMaintenance) (existing : List SatMaintenanceAction)
    (entries : List AddAction) : Prop :=
  (∀ act ∈ existing, (lookupOf w.tables act).isSome = true) → (∀ entry ∈ entries, Readable w request entry) →
    ∀ rule host, Requested castTime w request plan.branchId entries rule host →
      Inside plan.orgId plan.branchId host ∨ Listed w.tables existing rule host

def Step.Clear (w : World) : Step → Prop
  | .create request data => ∀ plan entries, checkCreate request w data = .ok (plan, entries) →
      AddsInside castTime w.toSurroundings request plan [] entries
  | .update request pk data => ∀ plan edit entries, checkUpdate request w pk data = .ok (plan, edit) →
      edit.add = some entries → AddsInside castTime w.toSurroundings request plan
        (shownActions request (edited request w plan edit) plan.1.id) entries
  | .destroy _ _ => True
  | .change surroundings => ∀ action ∈ (w.change surroundings).actions, ∀ host host',
      w.tables.hosts.get? action.host = some host → surroundings.tables.hosts.get? action.host = some host' →
        host'.orgId = host.orgId ∧ host'.branchId = host.branchId

variable {castTime} {w w' : World} {request : Request}

theorem Tenanted.of_subset (h : Tenanted w) (hhosts : w'.tables = w.tables)
    (hactions : ∀ action ∈ w'.actions, action ∈ w.actions)
    (hplans : ∀ action ∈ w'.actions, ∀ plan ∈ w.plans, action.plan = plan.id →
      ∃ plan' ∈ w'.plans, plan'.id = plan.id ∧ plan'.orgId = plan.orgId ∧ plan'.branchId = plan.branchId) :
    Tenanted w' := by
  intro action haction
  obtain ⟨plan, hplan, host, hhost, hid, hon, hinside⟩ := h action (hactions action haction)
  obtain ⟨plan', hplan', hid', horg, hbranch⟩ := hplans action haction plan hplan hid
  refine ⟨plan', hplan', host, by rw [hhosts]; exact hhost, hid.trans hid'.symm, hon, ?_⟩
  rw [horg, hbranch]
  exact hinside

theorem tenanted_bulkCreate {plan : SatMaintenance} {existing : List SatMaintenanceAction} {entries : List AddAction}
    {rows : List (Nat × Uuid)} {pk : Int} (hpk : pk < w.nextPlan) (h : Tenanted w) {stored : SatMaintenance}
    (hplan : stored ∈ w.plans) (hid : stored.id = pk)
    (horg : stored.orgId = plan.orgId) (hbranch : stored.branchId = plan.branchId)
    (hrows : addActions castTime w.toSurroundings request plan existing entries = .ok rows) :
    Tenanted (w.bulkCreate pk hpk rows) ↔
      AddsInside castTime w.toSurroundings request plan existing entries := by
  obtain ⟨-, hstored, hadded⟩ := addActions_rows hrows
  obtain ⟨hlookups, hreadable⟩ := (addActions_isOk castTime plan).mp ⟨rows, hrows⟩
  constructor
  · intro hall _ _ rule host hasked
    by_cases hlisted : Listed w.tables existing rule host
    · exact .inr hlisted
    · refine .inl ?_
      have hrow := (hadded rule hasked.rule_mem host hasked.host_mem).mpr ⟨hasked, hlisted⟩
      obtain ⟨action, hnew, hpair⟩ := mem_newActions.mpr hrow
      obtain ⟨owner, howner, other, hother, howned, hon, hinside⟩ := hall action (mem_bulkCreate.mpr (.inr hnew))
      obtain rfl : other = host :=
        w.tables.hosts.key_injOn hother hasked.host_mem (hon.symm.trans (Prod.mk.inj hpair).2)
      have hsame : owner = stored :=
        w.plans.key_injOn howner hplan (by rw [hid, ← howned, w.plan_newActions hnew])
      rw [← horg, ← hbranch, ← hsame]
      exact hinside
  · intro hinside action haction
    rcases mem_bulkCreate.mp haction with hold | hnew
    · exact h action hold
    · have hrow := mem_newActions.mp ⟨action, hnew, rfl⟩
      obtain ⟨rule, hrule, host, hhost, hpair⟩ := hstored _ hrow
      obtain ⟨hasked, hfree⟩ := (hadded rule hrule host hhost).mp (hpair ▸ hrow)
      refine ⟨stored, hplan, host, hhost, ?_, (Prod.mk.inj hpair).2, ?_⟩
      · rw [w.plan_newActions hnew, hid]
      · rw [horg, hbranch]
        exact (hinside hlookups hreadable rule host hasked).resolve_right hfree

theorem tenanted_create {data : Except Failure AddData} (h : Tenanted w) :
    Tenanted (create castTime request w data).2 ↔ (Step.create request data).Clear castTime w := by
  simp only [create, Step.Clear]
  cases hcheck : checkCreate request w data with
  | error e => simpa using h
  | ok checked =>
    obtain ⟨plan, entries⟩ := checked
    simp only [Except.ok.injEq, Prod.mk.injEq]
    have hexisting : (w.insertPlan plan).actions.rows.filter (fun action => action.plan = (w.nextPlan : Int)) = [] := by
      rw [List.filter_eq_nil_iff]
      intro action haction
      have hlt := w.actionPlans action haction
      simp only [decide_eq_true_eq]
      omega
    rw [hexisting]
    have hsaved : Tenanted (w.insertPlan plan) := by
      refine h.of_subset rfl (fun action haction => haction) ?_
      intro action _ owner howner _
      exact ⟨owner, List.mem_append_left _ howner, rfl, rfl, rfl⟩
    cases hrows : addActions castTime (w.insertPlan plan).toSurroundings request plan [] entries with
    | error e =>
      refine ⟨fun _ => ?_, fun _ => hsaved⟩
      rintro _ _ ⟨rfl, rfl⟩ hlookups hreadable
      obtain ⟨rows, hok⟩ := (addActions_isOk castTime plan).mpr ⟨hlookups, hreadable⟩
      rw [show w.toSurroundings = (w.insertPlan plan).toSurroundings from rfl, hrows] at hok
      cases hok
    | ok rows =>
      have hstored : { plan with id := w.nextPlan } ∈ (w.insertPlan plan).plans :=
        List.mem_append_right _ (List.mem_singleton.mpr rfl)
      refine (tenanted_bulkCreate (Int.lt_succ _) hsaved hstored rfl rfl rfl hrows).trans ?_
      constructor
      · rintro hinside _ _ ⟨rfl, rfl⟩
        exact hinside
      · intro hinside
        exact hinside plan entries ⟨rfl, rfl⟩

theorem apply_kept (request : Request) (edit : EditData) {plan : SatMaintenance} (h : plan.orgId ≠ "") :
    ((edit.apply request).1 plan).id = plan.id ∧ ((edit.apply request).1 plan).orgId = plan.orgId ∧
      ((edit.apply request).1 plan).branchId = plan.branchId :=
  ⟨rfl, if_neg h, rfl⟩

theorem tenanted_edited {plan : SatMaintenance} (edit : EditData) (hplan : plan ∈ w.plans) (horg : plan.orgId ≠ "")
    (h : Tenanted w) : Tenanted (edited request w plan edit) := by
  have hkept := apply_kept request edit horg
  refine h.of_subset (congrArg Surroundings.tables (edited_surroundings request w plan edit))
    (fun action haction => (mem_edited.mp haction).1) ?_
  intro action _ owner howner _
  rw [edited_plans]
  by_cases hsame : owner.id = plan.id
  · obtain rfl := w.plans.key_injOn howner hplan hsame
    exact ⟨(edit.apply request).1 owner, Table.mem_updateWhere.mpr ⟨owner, howner, by simp⟩, hkept⟩
  · exact ⟨owner, Table.mem_updateWhere.mpr ⟨owner, howner, by simp [hsame]⟩, rfl, rfl, rfl⟩

theorem tenanted_update {pk : Int} {data : Except Failure EditData} (h : Tenanted w) :
    Tenanted (update castTime request w pk data).2 ↔ (Step.update request pk data).Clear castTime w := by
  simp only [Step.Clear]
  cases hcheck : checkUpdate request w pk data with
  | error e =>
    rw [update_refused hcheck]
    simpa using h
  | ok checked =>
    obtain ⟨plan, edit⟩ := checked
    obtain ⟨hpk, horg, hsame⟩ := checkUpdate_org hcheck
    have hplanOrg : plan.1.orgId ≠ "" := hsame ▸ horg
    have hedited : Tenanted (edited request w plan edit) := tenanted_edited edit plan.2 hplanOrg h
    have hclear : (∀ plan' edit' entries, (Except.ok (plan, edit) : Except Failure _) = .ok (plan', edit') →
        edit'.add = some entries → AddsInside castTime w.toSurroundings request plan'
          (shownActions request (edited request w plan' edit') plan'.1.id) entries) ↔
        ∀ entries, edit.add = some entries → AddsInside castTime w.toSurroundings request plan
          (shownActions request (edited request w plan edit) plan.1.id) entries := by
      constructor
      · exact fun hall entries => hall plan edit entries rfl
      · rintro hinside _ _ entries ⟨rfl, rfl⟩
        exact hinside entries
    rw [hclear, ← edited_surroundings request w plan edit]
    cases hrows : additions castTime request (edited request w plan edit) plan edit with
    | error e =>
      rw [update_failed hcheck hrows]
      refine iff_of_true hedited ?_
      intro entries hadd hlookups hreadable
      obtain ⟨rows, hok⟩ := (addActions_isOk castTime plan.1).mpr ⟨hlookups, hreadable⟩
      rw [additions, hadd] at hrows
      simp [hrows] at hok
    | ok rows =>
      rw [update_done hcheck hrows]
      cases hadd : edit.add with
      | none =>
        obtain rfl : [] = rows := by simpa [additions, hadd] using hrows
        refine iff_of_true ?_ (by simp)
        intro action haction
        exact hedited action ((mem_updated.mp haction).resolve_right (by simp))
      | some entries =>
        have hstored : (edit.apply request).1 plan.1 ∈ (edited request w plan edit).plans := by
          rw [edited_plans]
          exact Table.mem_updateWhere.mpr ⟨plan.1, plan.2, by simp⟩
        obtain ⟨hid, horgKept, hbranchKept⟩ := apply_kept request edit hplanOrg
        rw [additions, hadd] at hrows
        simp only [Option.some.injEq, forall_eq']
        exact tenanted_bulkCreate (edited_lt plan edit) hedited hstored hid horgKept hbranchKept hrows

theorem tenanted_destroy {pk : Int} (h : Tenanted w) : Tenanted (destroy request w pk).2 := by
  unfold destroy
  by_cases hfound : (w.plans.get? pk).any (·.orgId = request.orgId) = true
  · rw [if_pos hfound]
    refine h.of_subset rfl (fun action haction => (Table.mem_deleteWhere.mp haction).1) ?_
    intro action haction owner howner howned
    have hother := (Table.mem_deleteWhere.mp haction).2
    refine ⟨owner, Table.mem_deleteWhere.mpr ⟨howner, ?_⟩, rfl, rfl, rfl⟩
    simpa [howned] using hother
  · rw [if_neg hfound]
    exact h

theorem tenanted_change {surroundings : Surroundings} (h : Tenanted w) :
    Tenanted (w.change surroundings) ↔ (Step.change surroundings).Clear castTime w := by
  constructor
  · intro hall action haction host host' hold hnew
    obtain ⟨plan, hplan, found, hfound, hid, hon, hinside⟩ := h action (Table.mem_deleteWhere.mp haction).1
    obtain ⟨plan', hplan', found', hfound', hid', hon', hinside'⟩ := hall action haction
    rw [hon] at hold
    rw [hon'] at hnew
    rw [Table.mem_iff_get?] at hfound hfound'
    obtain rfl := Option.some.inj (hfound.symm.trans hold)
    obtain rfl := Option.some.inj (hfound'.symm.trans hnew)
    obtain rfl := w.plans.key_injOn hplan hplan' (hid.symm.trans hid')
    exact ⟨hinside'.1.trans hinside.1.symm, hinside'.2.trans hinside.2.symm⟩
  · intro hclear action haction
    obtain ⟨hold, hkept⟩ := Table.mem_deleteWhere.mp haction
    obtain ⟨plan, hplan, host, hhost, hid, hon, hinside⟩ := h action hold
    cases hnew : surroundings.tables.hosts.get? action.host with
    | none => simp [hnew] at hkept
    | some host' =>
      obtain ⟨hhost', hkey⟩ := Table.get?_eq_some.mp hnew
      obtain ⟨horg, hbranch⟩ := hclear action haction host host' (by rw [hon]; exact Table.mem_iff_get?.mp hhost) hnew
      exact ⟨plan, hplan, host', hhost', hid, hkey.symm, horg.trans hinside.1, hbranch.trans hinside.2⟩

theorem tenanted_step {s : Step} (h : Tenanted w) : Tenanted (step castTime w s) ↔ s.Clear castTime w := by
  cases s with
  | create request data => exact tenanted_create h
  | update request pk data => exact tenanted_update h
  | destroy request pk => exact iff_of_true (tenanted_destroy h) trivial
  | change surroundings => exact tenanted_change h

end Adding

/-- In a run from no plans every action stays with the tenant of its plan exactly when every step meets the
condition. -/
theorem tenanted_iff (castTime : Reports.CastTime) (surroundings : Surroundings) (steps : List Step) :
    (∀ w ∈ states castTime (World.initial surroundings) steps, Tenanted w) ↔
      EachStep castTime (fun w s => s.Clear castTime w) (World.initial surroundings) steps := by
  have hstart : Tenanted (World.initial surroundings) := fun _ haction => absurd haction List.not_mem_nil
  have htrivial : ∀ w steps, EachStep castTime (fun _ _ => True) w steps := by
    intro w steps
    induction steps generalizing w with
    | nil => trivial
    | cons s steps ih => exact ⟨trivial, ih _⟩
  rw [← eachStep_iff (Q := fun _ _ => True) (fun w s h => (and_iff_right trivial).trans (tenanted_step h)) hstart steps]
  exact (and_iff_right (htrivial _ _)).symm

section TwoOrgs

def inventoryOf (orgId : String) (host : Uuid) : AdvisorInventoryHost where
  orgId := orgId
  inventoryId := host
  updated := 0
  columns := [("insights_id", some (.uuid host)), ("display_name", some (.text "web")), ("tags", some (.json (.list []))),
    ("created", some (.instant 0)), ("last_check_in", some (.instant 0)), ("stale_timestamp", some (.instant 0)),
    ("reporter", some (.text "puptoo")), ("per_reporter_staleness", some (.json (.dict []))),
    ("workloads", some (.json (.dict [])))]

theorem complete_inventoryOf (orgId : String) (host : Uuid) : Reports.Complete (inventoryOf orgId host) := by
  rw [Reports.complete_iff]
  intro name hname
  have hnames : Reports.requiredColumns = ["inventory_id", "org_id", "updated", "display_name", "tags", "created",
    "last_check_in", "stale_timestamp", "insights_id", "reporter", "per_reporter_staleness", "workloads"] := by
    decide +kernel
  rw [hnames] at hname
  simp only [List.mem_cons, List.not_mem_nil, or_false] at hname
  rcases hname with rfl | rfl | rfl | rfl | rfl | rfl | rfl | rfl | rfl | rfl | rfl | rfl <;> rfl

def satelliteHosts : List Host :=
  [{ inventoryId := 1, account := none, orgId := "1000001", branchId := some 7 },
    { inventoryId := 2, account := none, orgId := "1000002", branchId := some 8 }]

theorem satelliteHosts_unique : (satelliteHosts.map (·.inventoryId)).Nodup := by decide

theorem inventory_unique :
    ([inventoryOf "1000001" 1, inventoryOf "1000002" 2].map AdvisorInventoryHost.key).Nodup := by decide

theorem inventory_complete :
    ∀ row ∈ [inventoryOf "1000001" 1, inventoryOf "1000002" 2], Reports.Complete row := by
  simp only [List.forall_mem_cons, List.not_mem_nil, false_imp_iff, implies_true, and_true]
  exact ⟨complete_inventoryOf _ _, complete_inventoryOf _ _⟩

def twoOrgs : Surroundings where
  tables :=
    { rules := .single { id := 1, ruleId := "rule|ERROR", active := true }
      categoryOf _ := 1
      reports := .empty
      acks := .empty
      hostAcks := .empty
      hosts := ⟨satelliteHosts, satelliteHosts_unique⟩
      inventory := ⟨_, inventory_unique⟩
      reportRules := fun _ h => absurd h List.not_mem_nil
      reportHosts := fun _ h => absurd h List.not_mem_nil
      complete := inventory_complete }
  deletedAt _ := none
  ruleIds := List.nodup_singleton _

def satelliteUser : Request where
  orgId := "1000001"
  account := none
  username := some "admin"
  branchId := ["00000000000000000000000000000007"]
  now := 0
  filters := .ok ({}, [])

def foreignPlan : Step :=
  .create satelliteUser (.ok { name := "Plan", add := [{ ruleId := "rule|ERROR", systemId := some 2 }] })

theorem foreignPlan_escapes :
    ¬ ∀ (castTime : Reports.CastTime) (surroundings : Surroundings) (steps : List Step),
      ∀ w ∈ states castTime (World.initial surroundings) steps, Tenanted w := by
  intro h
  have htenanted := h (fun _ => none) twoOrgs [foreignPlan] _ (List.mem_cons_of_mem _ (List.mem_singleton.mpr rfl))
  have hrows : (step (fun _ => none) (World.initial twoOrgs) foreignPlan).actions.rows = [⟨1, 1, 1, 2, none, false⟩] ∧
      (step (fun _ => none) (World.initial twoOrgs) foreignPlan).plans.rows.map (·.orgId) = ["1000001"] := by
    decide +kernel
  have haction : (⟨1, 1, 1, 2, none, false⟩ : SatMaintenanceAction) ∈
      (step (fun _ => none) (World.initial twoOrgs) foreignPlan).actions := by
    rw [Table.mem_def, hrows.1]
    exact List.mem_singleton.mpr rfl
  obtain ⟨plan, hplan, host, hhost, -, hon, horg, -⟩ := htenanted _ haction
  have hplanOrg : plan.orgId ∈ ["1000001"] := hrows.2 ▸ List.mem_map_of_mem (Table.mem_def.mp hplan)
  have hhosts : ∀ host ∈ satelliteHosts, host.inventoryId = 2 → host.orgId = "1000002" := by decide
  have hhostOrg := hhosts host hhost hon.symm
  rw [horg, List.mem_singleton.mp hplanOrg] at hhostOrg
  exact absurd hhostOrg (by decide)

end TwoOrgs

end Advisor.Satellite
