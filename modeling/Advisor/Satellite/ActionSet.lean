import Advisor.Satellite.Tenants

/-! Whether the actions of a plan are a set: one for each rule and host, and after an update those that were to be kept
and those that were asked for. -/

namespace Advisor.Satellite

open Python Django Relational

def NoDuplicates (w : World) : Prop :=
  ∀ a ∈ w.actions, ∀ b ∈ w.actions, a.plan = b.plan → a.rule = b.rule → a.host = b.host → a = b

section Creating

variable {w : World} {plan : Int} {rows : List (Nat × Uuid)} {request : Request} {castTime : Reports.CastTime}

theorem newActions_inj (h : rows.Nodup) {a b : SatMaintenanceAction} (ha : a ∈ w.newActions plan rows)
    (hb : b ∈ w.newActions plan rows) (hrule : a.rule = b.rule) (hhost : a.host = b.host) : a = b := by
  have hmap : (w.newActions plan rows).map (fun action => (action.rule, action.host)) = rows := by
    rw [World.newActions, List.map_map]
    exact List.zipIdx_map_fst _ _
  exact List.inj_on_of_nodup_map (hmap.symm ▸ h) ha hb (Prod.ext hrule hhost)

/-- New rows that are all different make no duplicates, unless the plan has an action for one of them. -/
theorem noDuplicates_bulkCreate (hplan : plan < w.nextPlan) (hrows : rows.Nodup) (h : NoDuplicates w) :
    NoDuplicates (w.bulkCreate plan hplan rows) ↔
      ∀ action ∈ w.actions, action.plan = plan → (action.rule, action.host) ∉ rows := by
  constructor
  · intro hall action haction hof hrow
    obtain ⟨new, hnew, hpair⟩ := mem_newActions.mpr hrow
    obtain ⟨hrule, hhost⟩ := Prod.mk.inj hpair
    have hsame := hall action (mem_bulkCreate.mpr (.inl haction)) new (mem_bulkCreate.mpr (.inr hnew))
      (by rw [hof, w.plan_newActions hnew]) hrule.symm hhost.symm
    have hlt := w.actionIds action haction
    have hle := (w.id_newActions hnew).1
    rw [hsame] at hlt
    omega
  · intro hfree a ha b hb hplans hrule hhost
    rcases mem_bulkCreate.mp ha with ha | ha <;> rcases mem_bulkCreate.mp hb with hb | hb
    · exact h a ha b hb hplans hrule hhost
    · refine absurd (mem_newActions.mp ⟨b, hb, ?_⟩) (hfree a ha (by rw [hplans, w.plan_newActions hb]))
      rw [hrule, hhost]
    · refine absurd (mem_newActions.mp ⟨a, ha, ?_⟩) (hfree b hb (by rw [← hplans, w.plan_newActions ha]))
      rw [hrule, hhost]
    · exact newActions_inj hrows ha hb hrule hhost

theorem NoDuplicates.of_subset {w' : World} (h : NoDuplicates w) (hsub : ∀ action ∈ w'.actions, action ∈ w.actions) :
    NoDuplicates w' :=
  fun a ha b hb => h a (hsub a ha) b (hsub b hb)

theorem noDuplicates_create {data : Except Failure AddData} (h : NoDuplicates w) :
    NoDuplicates (create castTime request w data).2 := by
  unfold create
  cases hcheck : checkCreate request w data with
  | error e => exact h
  | ok checked =>
    obtain ⟨plan, entries⟩ := checked
    simp only
    cases hrows : addActions castTime (w.insertPlan plan).toSurroundings request plan
        ((w.insertPlan plan).actions.rows.filter (·.plan = w.nextPlan)) entries with
    | error e => exact h
    | ok rows =>
      refine (noDuplicates_bulkCreate (w := w.insertPlan plan) (Int.lt_succ _) (addActions_rows hrows).1 h).mpr ?_
      intro action haction hof
      have hlt := w.actionPlans action haction
      omega

end Creating

section Update

variable (castTime : Reports.CastTime) (w : World) (request : Request)

def Unchanged (w w' : World) (pk : Int) : Prop :=
  w'.plans.get? pk = w.plans.get? pk ∧ ∀ action, action.plan = pk → (action ∈ w'.actions ↔ action ∈ w.actions)

/-- What an update is to do: the plan keeps the actions to be kept, with new ones for what is requested; if it fails,
nothing has changed. -/
def UpdateExact (pk : Int) (data : Except Failure EditData) : Prop :=
  match update castTime request w pk data with
  | (.error _, w') => Unchanged w w' pk
  | (.ok _, w') => ∀ plan edit, checkUpdate request w pk data = .ok (plan, edit) →
      (∀ action ∈ w.actions, action.plan = pk → (action ∈ w'.actions ↔ edit.keeps action = true)) ∧
        ∀ r u, (∃ action ∈ w'.actions, action.plan = pk ∧ action.rule = r ∧ action.host = u) ↔
          (∃ action ∈ w.actions, action.plan = pk ∧ edit.keeps action = true ∧ action.rule = r ∧ action.host = u) ∨
            ∃ rule host, Requested castTime w.toSurroundings request plan.1.branchId (edit.add.getD []) rule host ∧
              rule.id = r ∧ host.inventoryId = u

/-- The entries can be read, and every action the plan still shows has its rule and its host in the inventory. -/
def Addable (before : World) (plan : SatMaintenance) (edit : EditData) : Prop :=
  edit.add = none ∨
    (∀ act ∈ shownActions request before plan.id, (lookupOf before.tables act).isSome = true) ∧
      ∀ entry ∈ edit.add.getD [], Readable before.toSurroundings request entry

def Named (tables : Reports.Tables) (rule : Nat) : Prop := ∀ row, tables.rules.get? rule = some row → row.totalRisk < 5

variable {castTime w request} {pk : Int} {data : Except Failure EditData} {before : World}
  {plan : SatMaintenance} {edit : EditData}

theorem additions_isOk (castTime : Reports.CastTime) :
    (∃ rows, additions castTime request before plan edit = .ok rows) ↔ Addable request before plan edit := by
  unfold additions Addable
  cases edit.add with
  | none => simp
  | some entries => simpa using addActions_isOk castTime plan

theorem additions_rows {rows : List (Nat × Uuid)} (h : additions castTime request before plan edit = .ok rows) :
    rows.Nodup ∧ ∀ r u, (r, u) ∈ rows ↔ ∃ rule host,
      (Requested castTime before.toSurroundings request plan.branchId (edit.add.getD []) rule host ∧
        ¬ Listed before.tables (shownActions request before plan.id) rule host) ∧ rule.id = r ∧ host.inventoryId = u := by
  unfold additions at h
  cases hadd : edit.add with
  | none =>
    obtain rfl : [] = rows := by simpa [hadd] using h
    simp [Requested]
  | some entries =>
    simp only [hadd] at h
    obtain ⟨hnodup, hstored, hadded⟩ := addActions_rows h
    refine ⟨hnodup, ?_⟩
    intro r u
    constructor
    · intro hrow
      obtain ⟨rule, hrule, host, hhost, hpair⟩ := hstored _ hrow
      obtain ⟨rfl, rfl⟩ := Prod.mk.inj hpair
      exact ⟨rule, host, (hadded rule hrule host hhost).mp hrow, rfl, rfl⟩
    · rintro ⟨rule, host, hasked, rfl, rfl⟩
      exact (hadded rule hasked.1.rule_mem host hasked.1.host_mem).mpr hasked

theorem render_isOk {w : World} :
    (∃ response, render request w pk = .ok response) ↔
      ∀ action ∈ w.actions, shown request w.tables pk action = true → Named w.tables action.rule := by
  have hname : ∀ risk : Nat, (severityNames[risk]?).isSome = true ↔ risk < 5 := by
    intro risk
    rw [Option.isSome_iff_ne_none, ne_eq, List.getElem?_eq_none_iff, Nat.not_le]
    rfl
  unfold render shownActions
  refine Iff.trans ⟨fun hall => mapM_isOk hall, fun hall => mapM_of_isOk hall⟩ ?_
  simp only [List.mem_filter, and_imp]
  refine forall₃_congr fun action _ hshown => ?_
  obtain ⟨rule, hrule⟩ : ∃ rule, w.tables.rules.get? action.rule = some rule := by
    have hactive : (w.tables.rules.get? action.rule).any (·.active) = true := by
      simp only [shown, visible, Bool.and_eq_true] at hshown
      exact hshown.2.1.2
    cases hrule : w.tables.rules.get? action.rule with
    | none => simp [hrule] at hactive
    | some rule => exact ⟨rule, rfl⟩
  simp only [Named, hrule, Option.bind_some, Option.some.injEq, forall_eq', ← hname]
  cases severityNames[rule.totalRisk]? <;> simp

end Update

section Condition

variable (castTime : Reports.CastTime) (w : World) (request : Request)
  (plan : { plan : SatMaintenance // plan ∈ w.plans }) (edit : EditData)

def Asked (rule : Rule) (host : Host) : Prop :=
  Requested castTime w.toSurroundings request plan.1.branchId (edit.add.getD []) rule host

/-- The Insights id of the host is listed for the rule once the edit has taken its actions away. -/
def Taken (rule : Rule) (host : Host) : Prop :=
  Listed w.tables (shownActions request (edited request w plan edit) plan.1.id) rule host

def KeptFor (rule : Rule) (host : Host) : Prop :=
  ∃ action ∈ w.actions, action.plan = plan.1.id ∧ edit.keeps action = true ∧ action.rule = rule.id ∧
    action.host = host.inventoryId

def Answerable : Prop :=
  (∀ action ∈ w.actions, shown request w.tables plan.1.id action = true → edit.keeps action = true →
    Named w.tables action.rule) ∧
  ∀ rule host, Asked castTime w request plan edit rule host → ¬ Taken w request plan edit rule host →
    visible w.tables request.orgId rule.id host.inventoryId = true → rule.totalRisk < 5

def Idle : Prop :=
  (edit.apply request).1 plan = plan ∧
    (∀ action ∈ w.actions, shown request w.tables plan.1.id action = true → edit.keeps action = true) ∧
    (Addable request (edited request w plan edit) plan edit →
      ∀ rule host, Asked castTime w request plan edit rule host → Taken w request plan edit rule host)

/-- What is not to be kept is shown, and an Insights id is listed exactly for the hosts that have a kept action. -/
def Visible : Prop :=
  (∀ action ∈ w.actions, action.plan = plan.1.id →
    shown request w.tables plan.1.id action = true ∨ edit.keeps action = true) ∧
  ∀ rule host, Asked castTime w request plan edit rule host →
    (Taken w request plan edit rule host ↔ KeptFor w plan edit rule host)

/-- The condition on an update: where it can be carried out and answered its plan is visible as far as it matters,
and where it cannot there is nothing to do. -/
def UpdateClear (pk : Int) (data : Except Failure EditData) : Prop :=
  ∀ plan edit, checkUpdate request w pk data = .ok (plan, edit) →
    (Addable request (edited request w plan edit) plan edit ∧ Answerable castTime w request plan edit →
      Visible castTime w request plan edit) ∧
    (¬ (Addable request (edited request w plan edit) plan edit ∧ Answerable castTime w request plan edit) →
      Idle castTime w request plan edit)

end Condition

section Exactness

variable {castTime : Reports.CastTime} {w : World} {request : Request}
  {plan : { plan : SatMaintenance // plan ∈ w.plans }} {edit : EditData} {rows : List (Nat × Uuid)}

theorem mem_edited_iff {action : SatMaintenanceAction} :
    action ∈ (edited request w plan edit).actions ↔
      action ∈ w.actions ∧ (shown request w.tables plan.1.id action = true → edit.keeps action = true) := by
  rw [mem_edited, removed]
  cases shown request w.tables plan.1.id action <;> cases edit.keeps action <;> simp

theorem mem_rows (h : additions castTime request (edited request w plan edit) plan edit = .ok rows) (r : Nat) (u : Uuid) :
    (r, u) ∈ rows ↔ ∃ rule host, (Asked castTime w request plan edit rule host ∧ ¬ Taken w request plan edit rule host) ∧
      rule.id = r ∧ host.inventoryId = u := by
  have hrows := (additions_rows h).2 r u
  rw [edited_surroundings] at hrows
  exact hrows

theorem new_not_old {action : SatMaintenanceAction}
    (h : action ∈ (edited request w plan edit).newActions plan.1.id rows) : action ∉ w.actions := by
  intro hold
  have hle := ((edited request w plan edit).id_newActions h).1
  have hlt := w.actionIds action hold
  have hnext : (edited request w plan edit).nextAction = w.nextAction := by
    unfold edited
    cases edit.delete <;> cases edit.actions <;> rfl
  omega

theorem edited_get? :
    (edited request w plan edit).plans.get? plan.1.id = w.plans.get? plan.1.id ↔ (edit.apply request).1 plan = plan := by
  have hfound : w.plans.get? plan.1.id = some plan.1 := Table.mem_iff_get?.mp plan.2
  rw [edited_plans, Table.get?_updateWhere, hfound]
  simp

theorem unchanged_edited :
    Unchanged w (edited request w plan edit) plan.1.id ↔
      (edit.apply request).1 plan = plan ∧
        ∀ action ∈ w.actions, shown request w.tables plan.1.id action = true → edit.keeps action = true := by
  rw [Unchanged, edited_get?]
  refine and_congr_right fun _ => ?_
  constructor
  · intro hall action haction hshown
    have hof : action.plan = plan.1.id := by
      simp only [shown, Bool.and_eq_true, decide_eq_true_eq] at hshown
      exact hshown.1
    exact (mem_edited_iff.mp ((hall action hof).mpr haction)).2 hshown
  · intro hall action _
    rw [mem_edited_iff, and_iff_left_iff_imp]
    exact fun haction => hall action haction

theorem unchanged_updated :
    Unchanged w (updated request w plan edit rows) plan.1.id ↔
      Unchanged w (edited request w plan edit) plan.1.id ∧ rows = [] := by
  constructor
  · rintro ⟨hplan, hactions⟩
    have hnone : rows = [] := by
      rw [List.eq_nil_iff_forall_not_mem]
      intro row hrow
      obtain ⟨action, hnew, -⟩ := mem_newActions.mpr hrow
      have hof := (edited request w plan edit).plan_newActions hnew
      exact new_not_old hnew ((hactions action hof).mp (mem_updated.mpr (.inr hnew)))
    refine ⟨⟨hplan, ?_⟩, hnone⟩
    intro action hof
    rw [← hactions action hof, mem_updated, hnone]
    simp
  · rintro ⟨⟨hplan, hactions⟩, rfl⟩
    refine ⟨hplan, ?_⟩
    intro action hof
    rw [← hactions action hof, mem_updated]
    simp

theorem render_updated (h : additions castTime request (edited request w plan edit) plan edit = .ok rows) :
    (∃ response, render request (updated request w plan edit rows) plan.1.id = .ok response) ↔
      Answerable castTime w request plan edit := by
  have htables : (updated request w plan edit rows).tables = w.tables :=
    congrArg Surroundings.tables (edited_surroundings request w plan edit)
  rw [render_isOk, htables]
  have hnew : ∀ action ∈ (edited request w plan edit).newActions plan.1.id rows,
      shown request w.tables plan.1.id action = visible w.tables request.orgId action.rule action.host := by
    intro action haction
    simp [shown, (edited request w plan edit).plan_newActions haction]
  constructor
  · intro hall
    refine ⟨?_, ?_⟩
    · intro action haction hshown hkeeps
      exact hall action (mem_updated.mpr (.inl (mem_edited_iff.mpr ⟨haction, fun _ => hkeeps⟩))) hshown
    · intro rule host hasked hfree hvisible
      obtain ⟨action, haction, hpair⟩ := mem_newActions.mpr ((mem_rows h _ _).mpr ⟨rule, host, ⟨hasked, hfree⟩, rfl, rfl⟩)
      obtain ⟨hrule, hhost⟩ := Prod.mk.inj hpair
      have hnamed := hall action (mem_updated.mpr (.inr haction)) (by rw [hnew action haction, hrule, hhost, hvisible])
      rw [hrule] at hnamed
      exact hnamed rule (Table.mem_iff_get?.mp hasked.rule_mem)
  · rintro ⟨hold, hasked⟩ action haction hshown
    rcases mem_updated.mp haction with haction | haction
    · obtain ⟨hstored, hkeeps⟩ := mem_edited_iff.mp haction
      exact hold action hstored hshown (hkeeps hshown)
    · obtain ⟨rule, host, ⟨hfor, hfree⟩, hrule, hhost⟩ := (mem_rows h _ _).mp (mem_newActions.mp ⟨action, haction, rfl⟩)
      rw [hnew action haction, ← hrule, ← hhost] at hshown
      intro row hrow
      rw [← hrule, Table.mem_iff_get?.mp hfor.rule_mem] at hrow
      obtain rfl := Option.some.inj hrow
      exact hasked rule host hfor hfree hshown

def Settled (castTime : Reports.CastTime) (w : World) (request : Request)
    (plan : { plan : SatMaintenance // plan ∈ w.plans }) (edit : EditData) (w' : World) : Prop :=
  (∀ action ∈ w.actions, action.plan = plan.1.id → (action ∈ w'.actions ↔ edit.keeps action = true)) ∧
    ∀ r u, (∃ action ∈ w'.actions, action.plan = plan.1.id ∧ action.rule = r ∧ action.host = u) ↔
      (∃ action ∈ w.actions, action.plan = plan.1.id ∧ edit.keeps action = true ∧ action.rule = r ∧ action.host = u) ∨
        ∃ rule host, Asked castTime w request plan edit rule host ∧ rule.id = r ∧ host.inventoryId = u

theorem old_iff {action : SatMaintenanceAction} (haction : action ∈ w.actions) :
    action ∈ (updated request w plan edit rows).actions ↔
      (shown request w.tables plan.1.id action = true → edit.keeps action = true) := by
  rw [mem_updated, mem_edited_iff, and_iff_right haction, or_iff_left fun hnew => new_not_old hnew haction]

theorem settled_of_visible (h : additions castTime request (edited request w plan edit) plan edit = .ok rows)
    (hvisible : Visible castTime w request plan edit) :
    Settled castTime w request plan edit (updated request w plan edit rows) := by
  obtain ⟨hshown, htaken⟩ := hvisible
  have hold : ∀ action ∈ w.actions, action.plan = plan.1.id →
      (action ∈ (updated request w plan edit rows).actions ↔ edit.keeps action = true) := by
    intro action haction hof
    rw [old_iff haction]
    constructor
    · intro hkept
      exact (hshown action haction hof).elim hkept id
    · exact fun hkeeps _ => hkeeps
  refine ⟨hold, ?_⟩
  intro r u
  constructor
  · rintro ⟨action, haction, hof, rfl, rfl⟩
    rcases mem_updated.mp haction with hbefore | hnew
    · have hstored := (mem_edited_iff.mp hbefore).1
      exact .inl ⟨action, hstored, hof, (hold action hstored hof).mp haction, rfl, rfl⟩
    · obtain ⟨rule, host, ⟨hasked, -⟩, hrule, hhost⟩ := (mem_rows h _ _).mp (mem_newActions.mp ⟨action, hnew, rfl⟩)
      exact .inr ⟨rule, host, hasked, hrule, hhost⟩
  · rintro (⟨action, haction, hof, hkeeps, rfl, rfl⟩ | ⟨rule, host, hasked, rfl, rfl⟩)
    · exact ⟨action, (hold action haction hof).mpr hkeeps, hof, rfl, rfl⟩
    · by_cases hlisted : Taken w request plan edit rule host
      · obtain ⟨action, haction, hof, hkeeps, hrule, hhost⟩ := (htaken rule host hasked).mp hlisted
        exact ⟨action, (hold action haction hof).mpr hkeeps, hof, hrule, hhost⟩
      · obtain ⟨action, hnew, hpair⟩ := mem_newActions.mpr ((mem_rows h _ _).mpr ⟨rule, host, ⟨hasked, hlisted⟩, rfl, rfl⟩)
        obtain ⟨hrule, hhost⟩ := Prod.mk.inj hpair
        exact ⟨action, mem_updated.mpr (.inr hnew), (edited request w plan edit).plan_newActions hnew, hrule, hhost⟩

theorem noDuplicates_updated (h : additions castTime request (edited request w plan edit) plan edit = .ok rows)
    (hw : NoDuplicates w) :
    NoDuplicates (updated request w plan edit rows) ↔
      ∀ action ∈ (edited request w plan edit).actions, action.plan = plan.1.id → (action.rule, action.host) ∉ rows :=
  noDuplicates_bulkCreate (edited_lt plan edit) (additions_rows h).1
    (hw.of_subset fun _ haction => (mem_edited_iff.mp haction).1)

/-- An update that adds these rows leaves a set of what was kept and asked for exactly when its plan is visible. -/
theorem settled_iff (h : additions castTime request (edited request w plan edit) plan edit = .ok rows)
    (hw : NoDuplicates w) :
    Settled castTime w request plan edit (updated request w plan edit rows) ∧
        NoDuplicates (updated request w plan edit rows) ↔ Visible castTime w request plan edit := by
  rw [noDuplicates_updated h hw]
  constructor
  · rintro ⟨⟨hold, hpairs⟩, hfree⟩
    have hshown : ∀ action ∈ w.actions, action.plan = plan.1.id →
        shown request w.tables plan.1.id action = true ∨ edit.keeps action = true := by
      intro action haction hof
      by_cases hshow : shown request w.tables plan.1.id action = true
      · exact .inl hshow
      · refine .inr ((hold action haction hof).mp ((old_iff haction).mpr ?_))
        exact fun hshow' => absurd hshow' hshow
    refine ⟨hshown, ?_⟩
    intro rule host hasked
    constructor
    · intro hlisted
      -- What is taken is not added, so the pair that has to be there is an old one.
      obtain ⟨action, haction, hof, hrule, hhost⟩ :=
        (hpairs rule.id host.inventoryId).mpr (.inr ⟨rule, host, hasked, rfl, rfl⟩)
      rcases mem_updated.mp haction with hbefore | hnew
      · have hstored := (mem_edited_iff.mp hbefore).1
        exact ⟨action, hstored, hof, (hold action hstored hof).mp haction, hrule, hhost⟩
      · obtain ⟨rule', host', ⟨hasked', hfree'⟩, hrule', hhost'⟩ :=
          (mem_rows h _ _).mp (mem_newActions.mp ⟨action, hnew, rfl⟩)
        obtain rfl := w.tables.rules.key_injOn hasked'.rule_mem hasked.rule_mem (hrule'.trans hrule)
        obtain rfl := w.tables.hosts.key_injOn hasked'.host_mem hasked.host_mem (hhost'.trans hhost)
        exact absurd hlisted hfree'
    · rintro ⟨action, haction, hof, hkeeps, hrule, hhost⟩
      by_contra hlisted
      have hrow := (mem_rows h _ _).mpr ⟨rule, host, ⟨hasked, hlisted⟩, rfl, rfl⟩
      rw [← hrule, ← hhost] at hrow
      exact hfree action (mem_edited_iff.mpr ⟨haction, fun _ => hkeeps⟩) hof hrow
  · intro hvisible
    refine ⟨settled_of_visible h hvisible, ?_⟩
    intro action haction hof hrow
    obtain ⟨hshown, htaken⟩ := hvisible
    obtain ⟨hstored, hkept⟩ := mem_edited_iff.mp haction
    obtain ⟨rule, host, ⟨hasked, hlisted⟩, hrule, hhost⟩ := (mem_rows h _ _).mp hrow
    refine hlisted ((htaken rule host hasked).mpr ⟨action, hstored, hof, ?_, hrule.symm, hhost.symm⟩)
    exact (hshown action hstored hof).elim hkept id

theorem rows_eq_nil (h : additions castTime request (edited request w plan edit) plan edit = .ok rows) :
    rows = [] ↔ ∀ rule host, Asked castTime w request plan edit rule host → Taken w request plan edit rule host := by
  constructor
  · rintro rfl rule host hasked
    by_contra hlisted
    exact List.not_mem_nil ((mem_rows h _ _).mpr ⟨rule, host, ⟨hasked, hlisted⟩, rfl, rfl⟩)
  · intro hall
    rw [List.eq_nil_iff_forall_not_mem]
    rintro ⟨r, u⟩ hrow
    obtain ⟨rule, host, ⟨hasked, hlisted⟩, -⟩ := (mem_rows h r u).mp hrow
    exact hlisted (hall rule host hasked)

end Exactness

section Runs

variable {castTime : Reports.CastTime} {w : World} {request : Request} {pk : Int} {data : Except Failure EditData}

theorem updateExact_iff (hw : NoDuplicates w) :
    UpdateExact castTime w request pk data ∧ NoDuplicates (update castTime request w pk data).2 ↔
      UpdateClear castTime w request pk data := by
  cases hcheck : checkUpdate request w pk data with
  | error e =>
    simp only [UpdateExact, UpdateClear, update_refused hcheck, hcheck, reduceCtorEq, false_imp_iff, implies_true,
      iff_true]
    exact ⟨⟨rfl, fun _ _ => Iff.rfl⟩, hw⟩
  | ok checked =>
    obtain ⟨plan, edit⟩ := checked
    have hpk : plan.1.id = pk := (checkUpdate_org hcheck).1
    subst hpk
    have hclear : UpdateClear castTime w request plan.1.id data ↔
        (Addable request (edited request w plan edit) plan edit ∧ Answerable castTime w request plan edit →
          Visible castTime w request plan edit) ∧
        (¬ (Addable request (edited request w plan edit) plan edit ∧ Answerable castTime w request plan edit) →
          Idle castTime w request plan edit) := by
      constructor
      · exact fun hall => hall plan edit hcheck
      · intro hboth plan' edit' hcheck'
        obtain ⟨rfl, rfl⟩ := Prod.mk.inj (Except.ok.inj (hcheck.symm.trans hcheck'))
        exact hboth
    rw [hclear]
    cases hrows : additions castTime request (edited request w plan edit) plan edit with
    | error e =>
      have hadd : ¬ Addable request (edited request w plan edit) plan edit := by
        intro hadd
        obtain ⟨rows, hok⟩ := (additions_isOk castTime).mpr hadd
        rw [hrows] at hok
        cases hok
      have hedited : NoDuplicates (edited request w plan edit) :=
        hw.of_subset fun _ haction => (mem_edited_iff.mp haction).1
      simp only [UpdateExact, update_failed hcheck hrows, and_iff_left hedited, unchanged_edited, hadd, Idle, false_and,
        false_imp_iff, not_false_iff, true_imp_iff, true_and, and_true]
    | ok rows =>
      have hadd : Addable request (edited request w plan edit) plan edit := (additions_isOk castTime).mp ⟨rows, hrows⟩
      have hupdate := update_done hcheck hrows
      cases hrender : render request (updated request w plan edit rows) plan.1.id with
      | ok response =>
        have hanswer := (render_updated hrows).mp ⟨response, hrender⟩
        rw [hrender] at hupdate
        have hexact : UpdateExact castTime w request plan.1.id data ↔
            Settled castTime w request plan edit (updated request w plan edit rows) := by
          simp only [UpdateExact, hupdate]
          constructor
          · exact fun hall => hall plan edit hcheck
          · intro hsettled plan' edit' hcheck'
            obtain ⟨rfl, rfl⟩ := Prod.mk.inj (Except.ok.inj (hcheck.symm.trans hcheck'))
            exact hsettled
        rw [hexact, hupdate, settled_iff hrows hw]
        simp only [hadd, hanswer, and_self, true_imp_iff, not_true_eq_false, false_imp_iff, and_true]
      | error e =>
        have hanswer : ¬ Answerable castTime w request plan edit := by
          intro hanswer
          obtain ⟨response, hok⟩ := (render_updated hrows).mpr hanswer
          rw [hrender] at hok
          cases hok
        rw [hrender] at hupdate
        have hset : Unchanged w (updated request w plan edit rows) plan.1.id →
            NoDuplicates (updated request w plan edit rows) := by
          intro hsame
          rw [(unchanged_updated.mp hsame).2, noDuplicates_updated ((unchanged_updated.mp hsame).2 ▸ hrows) hw]
          simp
        simp only [UpdateExact, hupdate]
        rw [and_iff_left_of_imp hset]
        simp only [unchanged_updated, unchanged_edited, rows_eq_nil hrows, hadd, hanswer, Idle, and_false, false_imp_iff,
          not_false_iff, true_imp_iff, true_and, and_assoc]

def Step.Exact (castTime : Reports.CastTime) (w : World) : Step → Prop
  | .update request pk data => UpdateExact castTime w request pk data
  | _ => True

def Step.Orderly (castTime : Reports.CastTime) (w : World) : Step → Prop
  | .update request pk data => UpdateClear castTime w request pk data
  | _ => True

theorem noDuplicates_destroy (h : NoDuplicates w) : NoDuplicates (destroy request w pk).2 := by
  unfold destroy
  by_cases hfound : (w.plans.get? pk).any (·.orgId = request.orgId) = true
  · rw [if_pos hfound]
    exact h.of_subset fun _ haction => (Table.mem_deleteWhere.mp haction).1
  · rw [if_neg hfound]
    exact h

theorem exact_step {s : Step} (h : NoDuplicates w) :
    s.Exact castTime w ∧ NoDuplicates (step castTime w s) ↔ s.Orderly castTime w := by
  cases s with
  | create request data => exact iff_of_true ⟨trivial, noDuplicates_create h⟩ trivial
  | update request pk data => exact updateExact_iff h
  | destroy request pk => exact iff_of_true ⟨trivial, noDuplicates_destroy h⟩ trivial
  | change surroundings =>
    exact iff_of_true ⟨trivial, h.of_subset fun _ haction => (Table.mem_deleteWhere.mp haction).1⟩ trivial

end Runs

/-- In a run from no plans every update does what it is to do and no state has duplicates exactly when every step
meets the condition. -/
theorem actionSets_iff (castTime : Reports.CastTime) (surroundings : Surroundings) (steps : List Step) :
    (EachStep castTime (fun w s => s.Exact castTime w) (World.initial surroundings) steps ∧
        ∀ w ∈ states castTime (World.initial surroundings) steps, NoDuplicates w) ↔
      EachStep castTime (fun w s => s.Orderly castTime w) (World.initial surroundings) steps :=
  eachStep_iff (fun _ _ h => exact_step h) (fun _ haction => absurd haction List.not_mem_nil) steps

section AckedRule

def theAck : Ack := { rule := 1, account := none, orgId := "1000001" }

def ackedOrgs : Surroundings where
  tables := { twoOrgs.tables with acks := .single theAck }
  deletedAt := twoOrgs.deletedAt
  ruleIds := twoOrgs.ruleIds

def theEntry : AddAction := { ruleId := "rule|ERROR", systemId := some 1 }

/-- A plan for the rule and a system, to which the same is added once the rule is acked. -/
def twiceAdded : List Step :=
  [.create satelliteUser (.ok { name := "Plan", add := [theEntry] }), .change ackedOrgs,
    .update satelliteUser 1 (.ok { add := some [theEntry] })]

theorem twiceAdded_duplicates :
    ¬ ∀ (castTime : Reports.CastTime) (surroundings : Surroundings) (steps : List Step),
      EachStep castTime (fun w s => s.Exact castTime w) (World.initial surroundings) steps ∧
        ∀ w ∈ states castTime (World.initial surroundings) steps, NoDuplicates w := by
  intro h
  have hall := (h (fun _ => none) twoOrgs twiceAdded).2
  let last := twiceAdded.foldl (step fun _ => none) (World.initial twoOrgs)
  have hlast : NoDuplicates last := hall _ (by simp [states, twiceAdded, last])
  have hrows : last.actions.rows = [⟨1, 1, 1, 1, none, false⟩, ⟨2, 1, 1, 1, none, false⟩] := by decide +kernel
  have hin : ∀ id ∈ [1, 2], (⟨id, 1, 1, 1, none, false⟩ : SatMaintenanceAction) ∈ last.actions := by
    intro id hid
    rw [Table.mem_def, hrows]
    simpa using hid
  have hsame := hlast _ (hin 1 (by simp)) _ (hin 2 (by simp)) rfl rfl rfl
  exact absurd hsame (by decide)

end AckedRule

end Advisor.Satellite
