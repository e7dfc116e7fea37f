import Advisor.Python.Raise
import Advisor.Satellite.ClassicPlans
import Advisor.Satellite.Tenants
import Mathlib.Data.List.ReduceOption

/-! The import of Classic plans run again, after it finished or failed or was cut off; and what becomes of the plans it
has brought. -/

namespace Advisor.Satellite

open Python Procedure Django Relational

/-- What a turn of the import writes on a plan that has an id, if its texts can be read. -/
def writesPlan (lib : Library) (entry : Option String × ClassicPlan) : Option (Int × SatMaintenance) :=
  if takesPlan entry.2 then
    (pkOf lib entry.2.maintenanceId).toOption.join.bind fun pk =>
      (planColumns lib entry.1 pk entry.2).toOption.map fun columns => (pk, columns)
  else none

/-- A plan has an id, unless it is left out. -/
def Numbered (entry : Option String × ClassicPlan) : Prop := takesPlan entry.2 = true → entry.2.maintenanceId ≠ none

def Legible (lib : Library) (entry : Option String × ClassicPlan) : Prop :=
  takesPlan entry.2 = true → (writesPlan lib entry).isSome = true

def overwritten (lib : Library) (plan : SatMaintenance) (entry : Option String × ClassicPlan) : SatMaintenance :=
  match writesPlan lib entry with
  | some (pk, columns) => if plan.id = pk then (overwritePlan columns).1 plan else plan
  | none => plan

def settledPlan (lib : Library) (turns : List (Option String × ClassicPlan)) (plan : SatMaintenance) : SatMaintenance :=
  turns.foldl (overwritten lib) plan

variable {lib : Library} {tables tables' : Reports.Tables} {entry : Option String × ClassicPlan}
  {turns : List (Option String × ClassicPlan)} {s s' : Plans} {plan : SatMaintenance}

theorem overwritten_id : (overwritten lib plan entry).id = plan.id := by
  unfold overwritten
  cases writesPlan lib entry with
  | none => rfl
  | some written =>
    by_cases hid : plan.id = written.1
    · simp only [if_pos hid]
      rfl
    · simp only [if_neg hid]

theorem overwritten_orgId : (overwritten lib plan entry).orgId = plan.orgId := by
  unfold overwritten
  cases writesPlan lib entry with
  | none => rfl
  | some written =>
    by_cases hid : plan.id = written.1
    · simp only [if_pos hid]
      rfl
    · simp only [if_neg hid]

theorem settledPlan_id : (settledPlan lib turns plan).id = plan.id := by
  induction turns generalizing plan with
  | nil => rfl
  | cons entry rest ih =>
    show (settledPlan lib rest (overwritten lib plan entry)).id = plan.id
    rw [ih, overwritten_id]

theorem settledPlan_orgId (lib : Library) (turns : List (Option String × ClassicPlan)) (plan : SatMaintenance) :
    (settledPlan lib turns plan).orgId = plan.orgId := by
  induction turns generalizing plan with
  | nil => rfl
  | cons entry rest ih =>
    show (settledPlan lib rest (overwritten lib plan entry)).orgId = plan.orgId
    rw [ih, overwritten_orgId]

theorem settledPlan_concat : settledPlan lib (turns ++ [entry]) plan = overwritten lib (settledPlan lib turns plan) entry := by
  simp [settledPlan, List.foldl_append]

theorem planColumns_own {account : Option String} {pk : Int} {classic : ClassicPlan} {columns : SatMaintenance}
    (h : planColumns lib account pk classic = .ok columns) : columns.id = pk ∧ columns.orgId = "" := by
  simp only [planColumns, bind_eq_ok] at h
  obtain ⟨_, -, _, -, _, -, _, -, _, -, _, -, _, -, _, -, _, -, _, -, _, -, _, -, _, -, _, -, _, -, _, -, _, -, _, -, h⟩ := h
  obtain rfl := Except.ok.inj h
  exact ⟨rfl, rfl⟩

theorem pkOf_ne_none {id : Option String} (h : id ≠ none) : pkOf lib id ≠ .ok none := by
  obtain ⟨text, rfl⟩ := Option.ne_none_iff_exists'.mp h
  intro hpk
  obtain ⟨i, hi, hpk⟩ := bind_eq_ok.mp hpk
  obtain ⟨value, -, rfl⟩ := map_eq_ok.mp (show (integerOf lib (.str text)).map some = .ok i from hi)
  dsimp only at hpk
  split_ifs at hpk
  cases hpk

theorem writesPlan_eq_some {written : Int × SatMaintenance} :
    writesPlan lib entry = some written ↔ takesPlan entry.2 = true ∧ pkOf lib entry.2.maintenanceId = .ok (some written.1) ∧
      planColumns lib entry.1 written.1 entry.2 = .ok written.2 := by
  obtain ⟨pk, columns⟩ := written
  have hok {α : Type} {x : Except Exception α} {a : α} : x.toOption = some a ↔ x = .ok a := by
    cases x <;> simp [Except.toOption]
  unfold writesPlan
  by_cases htakes : takesPlan entry.2 = true
  · rw [if_pos htakes]
    simp only [Option.bind_eq_some_iff, Option.map_eq_some_iff, Option.join_eq_some_iff, hok, Prod.mk.injEq]
    constructor
    · rintro ⟨pk, hpk, columns, hcolumns, rfl, rfl⟩
      exact ⟨htakes, hpk, hcolumns⟩
    · rintro ⟨-, hpk, hcolumns⟩
      exact ⟨pk, hpk, columns, hcolumns, rfl, rfl⟩
  · rw [if_neg htakes]
    constructor
    · intro h
      cases h
    · rintro ⟨htrue, -⟩
      exact absurd htrue htakes

inductive Turned (lib : Library) (entry : Option String × ClassicPlan) (s s' : Plans) : Prop
  | left (htakes : takesPlan entry.2 = false) (h : s' = s)
  | updated {pk : Int} {columns old : SatMaintenance} (hwrites : writesPlan lib entry = some (pk, columns))
    (hold : s.plans.get? pk = some old)
    (h : s' = { s with plans := s.plans.updateWhere (fun row => row.id = pk) (overwritePlan columns) })
  | created {columns : SatMaintenance} {new : List SatMaintenanceAction} (htakes : takesPlan entry.2 = true)
    (hwrites : entry.2.maintenanceId ≠ none → writesPlan lib entry = some (columns.id, columns))
    (horg : columns.orgId = "") (hfree : s.plans.get? columns.id = none)
    (hplans : s.plans.insert? columns = some s'.plans) (hactions : s.actions.insertMany? new = some s'.actions)
    (hnew : ∀ action ∈ new, action.plan = columns.id)

theorem elim_eq_ok {α : Type} {x : Option α} {e : Exception} {a : α} :
    (x.elim (.error e) .ok : Except Exception α) = .ok a ↔ x = some a := by
  cases x with
  | none => simp
  | some b => simp

theorem actionRows_plan {plan next : Int} {rows : List (Option Int × Nat × Uuid)} {row : SatMaintenanceAction}
    (h : row ∈ actionRows plan next rows) : row.plan = plan := by
  induction rows generalizing next with
  | nil => cases h
  | cons action rest ih =>
    obtain ⟨id, rule, host⟩ := action
    cases id with
    | none =>
      rcases List.mem_cons.mp h with rfl | hlater
      · rfl
      · exact ih hlater
    | some id =>
      rcases List.mem_cons.mp h with rfl | hlater
      · rfl
      · exact ih hlater

theorem importTurn_cases (h : importTurn lib tables entry s = (.ok (), s')) : Turned lib entry s s' := by
  unfold importTurn at h
  by_cases htakes : takesPlan entry.2 = true
  · rw [if_pos htakes] at h
    cases himport : importPlan lib tables entry.1 entry.2 s with
    | error e =>
      rw [himport] at h
      cases h
    | ok after =>
      rw [himport] at h
      obtain rfl : after = s' := congrArg Prod.snd h
      simp only [importPlan, bind_eq_ok] at himport
      obtain ⟨pk, hpk, columns, hcolumns, himport⟩ := himport
      obtain ⟨hid, horg⟩ := planColumns_own hcolumns
      cases hstored : pk.bind s.plans.get? with
      | some old =>
        obtain ⟨found, rfl, hold⟩ := Option.bind_eq_some_iff.mp hstored
        have hwrites : writesPlan lib entry = some (found, columns) := writesPlan_eq_some.mpr ⟨htakes, hpk, hcolumns⟩
        rw [hstored] at himport
        obtain rfl := Except.ok.inj himport
        rw [Option.getD_some] at hid
        exact .updated hwrites hold (by rw [hid])
      | none =>
        rw [hstored] at himport
        simp only [bind_eq_ok] at himport
        obtain ⟨plans, hplans, rows, hrows, himport⟩ := himport
        split_ifs at himport
        simp only [bind_eq_ok] at himport
        obtain ⟨actions, hactions, hdone⟩ := himport
        obtain rfl := Except.ok.inj hdone
        have hinsert : s.plans.insert? columns = some plans := elim_eq_ok.mp hplans
        refine .created htakes (fun hsome => ?_) horg (Table.free_of_insert? hinsert) hinsert (elim_eq_ok.mp hactions)
          fun _ => actionRows_plan
        cases pk with
        | none => exact absurd hpk (pkOf_ne_none hsome)
        | some found =>
          rw [Option.getD_some] at hid hcolumns
          exact writesPlan_eq_some.mpr ⟨htakes, hid ▸ hpk, hid ▸ hcolumns⟩
  · rw [if_neg htakes] at h
    exact .left (by simpa using htakes) (congrArg Prod.snd h).symm

theorem importTurn_stored {pk : Int} {columns old : SatMaintenance} (hwrites : writesPlan lib entry = some (pk, columns))
    (hold : s.plans.get? pk = some old) :
    importTurn lib tables entry s =
      (.ok (), { s with plans := s.plans.updateWhere (fun row => row.id = pk) (overwritePlan columns) }) := by
  obtain ⟨htakes, hpk, hcolumns⟩ := writesPlan_eq_some.mp hwrites
  have himport : importPlan lib tables entry.1 entry.2 s =
      .ok { s with plans := s.plans.updateWhere (fun row => row.id = pk) (overwritePlan columns) } := by
    have hid : columns.id = pk := (planColumns_own hcolumns).1
    unfold importPlan
    simp only [hpk, bind, Except.bind, Option.getD_some, hcolumns, Option.bind_some, hold, hid]
    rfl
  rw [importTurn, if_pos htakes, himport]

theorem importTurn_left (htakes : takesPlan entry.2 = false) : importTurn lib tables entry s = (.ok (), s) := by
  rw [importTurn, htakes]
  rfl

/-- Every turn has been taken: its plan is there, and as the last turn for it left it. -/
structure SettledTurns (lib : Library) (turns : List (Option String × ClassicPlan)) (s : Plans) : Prop where
  legible : ∀ entry ∈ turns, Legible lib entry
  stored : ∀ entry ∈ turns, ∀ written, writesPlan lib entry = some written → (s.plans.get? written.1).isSome = true
  fixed : ∀ plan ∈ s.plans, settledPlan lib turns plan = plan

theorem turned_stored (h : Turned lib entry s s') {pk : Int} (hstored : (s.plans.get? pk).isSome = true) :
    (s'.plans.get? pk).isSome = true := by
  cases h with
  | left htakes h => rwa [h]
  | updated hwrites hold h =>
    rw [h, Table.get?_updateWhere, Option.isSome_map]
    exact hstored
  | created htakes hwrites horg hfree hplans hactions hnew =>
    rw [Table.get?_insert? hplans]
    split_ifs
    · rfl
    · exact hstored

/-- A turn that went through can write its plan, and leaves a plan there. -/
theorem Turned.writes (hturn : Turned lib entry s s') (hnumbered : Numbered entry) :
    Legible lib entry ∧ ∀ written, writesPlan lib entry = some written → (s'.plans.get? written.1).isSome = true := by
  cases hturn with
  | left htakes hsame =>
    refine ⟨fun htrue => ?_, fun written hwrites => ?_⟩
    · rw [htakes] at htrue
      cases htrue
    · rw [(writesPlan_eq_some.mp hwrites).1] at htakes
      cases htakes
  | updated hwrites hold hsame =>
    refine ⟨fun _ => by rw [hwrites]; rfl, fun written hwritten => ?_⟩
    obtain rfl := Option.some.inj (hwrites.symm.trans hwritten)
    rw [hsame, Table.get?_updateWhere, Option.isSome_map, hold]
    rfl
  | created htakes hwrites horg hfree hplans hactions hnew =>
    refine ⟨fun _ => by rw [hwrites (hnumbered htakes)]; rfl, fun written hwritten => ?_⟩
    obtain rfl := Option.some.inj ((hwrites (hnumbered htakes)).symm.trans hwritten)
    rw [Table.get?_insert? hplans, if_pos rfl]
    rfl

/-- What an update leaves is what it and the turns before it would write again. -/
theorem settledPlan_overwritten {pk : Int} {columns before : SatMaintenance}
    (hwrites : writesPlan lib entry = some (pk, columns)) (hid : before.id = pk) :
    overwritten lib (settledPlan lib turns ((overwritePlan columns).1 before)) entry = (overwritePlan columns).1 before := by
  have hsame : (settledPlan lib turns ((overwritePlan columns).1 before)).id = pk := by
    rw [settledPlan_id]
    exact hid
  have horg := settledPlan_orgId lib turns ((overwritePlan columns).1 before)
  rw [overwritten, hwrites]
  show (if _ = pk then _ else _) = _
  rw [if_pos hsame]
  show ({ columns with id := _, orgId := _ } : SatMaintenance) = { columns with id := before.id, orgId := before.orgId }
  rw [hsame, horg, hid]
  rfl

/-- A turn for another plan writes nothing to this one. -/
theorem overwritten_other {pk : Int} {columns plan : SatMaintenance}
    (hwrites : writesPlan lib entry = some (pk, columns)) (hid : plan.id ≠ pk) :
    overwritten lib plan entry = plan := by
  rw [overwritten, hwrites]
  show (if plan.id = pk then _ else _) = plan
  rw [if_neg hid]

theorem SettledTurns.turn (h : SettledTurns lib turns s) (hnumbered : Numbered entry) (hturn : Turned lib entry s s') :
    SettledTurns lib (turns ++ [entry]) s' := by
  have hwritten := hturn.writes hnumbered
  refine ⟨?_, ?_, ?_⟩
  · intro other hother
    rcases List.mem_append.mp hother with hbefore | hlast
    · exact h.legible other hbefore
    · obtain rfl := List.mem_singleton.mp hlast
      exact hwritten.1
  · intro other hother written hwrites
    rcases List.mem_append.mp hother with hbefore | hlast
    · exact turned_stored hturn (h.stored other hbefore written hwrites)
    · obtain rfl := List.mem_singleton.mp hlast
      exact hwritten.2 written hwrites
  · intro plan hplan
    rw [settledPlan_concat]
    cases hturn with
    | left htakes hsame =>
      have hnone : writesPlan lib entry = none := by
        rw [writesPlan, htakes]
        rfl
      rw [hsame] at hplan
      rw [h.fixed plan hplan, overwritten, hnone]
    | updated hwrites hold hsame =>
      rename_i pk columns old
      rw [hsame] at hplan
      obtain ⟨before, hbefore, rfl⟩ := Table.mem_updateWhere.mp hplan
      by_cases hid : before.id = pk
      · -- Whatever the earlier turns would make of the plan, this one overwrites all but its id and organisation.
        rw [if_pos (decide_eq_true hid)]
        exact settledPlan_overwritten hwrites hid
      · rw [if_neg (by simpa using hid), h.fixed before hbefore]
        exact overwritten_other hwrites hid
    | created htakes hwrites horg hfree hplans hactions hnew =>
      rename_i columns new
      rcases (Table.mem_insert? hplans plan).mp hplan with hold | rfl
      · have hid : plan.id ≠ columns.id := Table.get?_eq_none.mp hfree plan hold
        rw [h.fixed plan hold]
        exact overwritten_other (hwrites (hnumbered htakes)) hid
      · have hsame : (settledPlan lib turns plan).id = plan.id := settledPlan_id
        have hkept : (settledPlan lib turns plan).orgId = "" := (settledPlan_orgId lib turns plan).trans horg
        rw [overwritten, hwrites (hnumbered htakes)]
        show (if _ = plan.id then _ else _) = _
        rw [if_pos hsame]
        show ({ plan with id := _, orgId := _ } : SatMaintenance) = plan
        rw [hsame, hkept, ← horg]

theorem settledTurns_of_run (hnumbered : ∀ entry ∈ turns, Numbered entry)
    (h : each turns (importTurn lib tables) s = (.ok (), s')) : SettledTurns lib turns s' := by
  induction turns using List.reverseRecOn generalizing s' with
  | nil =>
    obtain rfl : s = s' := congrArg Prod.snd h
    exact ⟨by simp, by simp, fun _ _ => rfl⟩
  | append_singleton turns entry ih =>
    rw [each_append, run_bind_eq_ok] at h
    obtain ⟨_, middle, hbefore, hlast⟩ := h
    rw [each_cons, run_bind_eq_ok] at hlast
    obtain ⟨_, after, hturn, hend⟩ := hlast
    obtain rfl : after = s' := congrArg Prod.snd hend
    have hturns := ih (fun other hother => hnumbered other (by simp [hother])) hbefore
    exact hturns.turn (hnumbered entry (by simp)) (importTurn_cases hturn)

theorem run_stored (tables : Reports.Tables) (hlegible : ∀ entry ∈ turns, Legible lib entry)
    (hstored : ∀ entry ∈ turns, ∀ written, writesPlan lib entry = some written → (s.plans.get? written.1).isSome = true) :
    ∃ plans : Table SatMaintenance.id, each turns (importTurn lib tables) s = (.ok (), { s with plans }) ∧
      plans.rows = s.plans.rows.map (settledPlan lib turns) := by
  induction turns generalizing s with
  | nil => exact ⟨s.plans, rfl, (List.map_id'' (fun _ => rfl) s.plans.rows).symm⟩
  | cons entry rest ih =>
    have hturn : ∃ plans : Table SatMaintenance.id, importTurn lib tables entry s = (.ok (), { s with plans }) ∧
        plans.rows = s.plans.rows.map (overwritten lib · entry) := by
      by_cases htakes : takesPlan entry.2 = true
      · obtain ⟨⟨pk, columns⟩, hwrites⟩ := Option.isSome_iff_exists.mp (hlegible entry (by simp) htakes)
        obtain ⟨old, hold⟩ := Option.isSome_iff_exists.mp (hstored entry (by simp) _ hwrites)
        refine ⟨_, importTurn_stored hwrites hold, ?_⟩
        apply List.map_congr_left
        intro plan _
        rw [overwritten, hwrites]
        simp
      · have hnone : writesPlan lib entry = none := if_neg htakes
        refine ⟨s.plans, importTurn_left (by simpa using htakes), ?_⟩
        have hsame : ∀ plan, overwritten lib plan entry = plan := by
          intro plan
          rw [overwritten, hnone]
        exact (List.map_id'' hsame s.plans.rows).symm
    obtain ⟨plans, hrun, hrows⟩ := hturn
    have hkept : ∀ other ∈ rest, ∀ written, writesPlan lib other = some written →
        (plans.get? written.1).isSome = true := fun other hother written hwritten =>
      turned_stored (importTurn_cases hrun) (hstored other (by simp [hother]) written hwritten)
    obtain ⟨after, hafter, hall⟩ := ih (s := { s with plans }) (fun other hother => hlegible other (by simp [hother])) hkept
    refine ⟨after, ?_, ?_⟩
    · rw [each_cons, bind_of_ok hrun, hafter]
    · rw [hall, hrows, List.map_map]
      rfl

/-- Turns that have been taken change nothing when they are taken again, whatever rules and hosts there are then. -/
theorem run_settled (h : SettledTurns lib turns s) : each turns (importTurn lib tables) s = (.ok (), s) := by
  obtain ⟨plans, hrun, hrows⟩ := run_stored tables h.legible h.stored
  have hplans : plans = s.plans := by
    apply Table.eq_of_rows
    have hfixed : s.plans.rows.map (settledPlan lib turns) = s.plans.rows.map id :=
      List.map_congr_left fun plan hplan => h.fixed plan hplan
    rw [hrows, hfixed, List.map_id]
  rw [hrun, hplans]

theorem importTurn_error {e : Exception} (h : importTurn lib tables entry s = (.error e, s')) : s' = s := by
  unfold importTurn at h
  split_ifs at h
  · split at h
    · cases h
    · exact (congrArg Prod.snd h).symm
  · cases h

theorem run_error {e : Exception} (h : each turns (importTurn lib tables) s = (.error e, s')) :
    ∃ before entry rest, turns = before ++ entry :: rest ∧
      each before (importTurn lib tables) s = (.ok (), s') ∧ importTurn lib tables entry s' = (.error e, s') := by
  induction turns generalizing s with
  | nil => cases h
  | cons entry rest ih =>
    rw [each_cons] at h
    rcases hturn : importTurn lib tables entry s with ⟨_ | _, middle⟩
    · rw [bind_of_error hturn] at h
      obtain rfl := (importTurn_error hturn).symm
      cases h
      exact ⟨[], entry, rest, rfl, rfl, hturn⟩
    · rw [bind_of_ok hturn] at h
      obtain ⟨before, failing, after, rfl, hbefore, hfails⟩ := ih h
      refine ⟨entry :: before, failing, after, rfl, ?_, hfails⟩
      rw [each_cons, bind_of_ok hturn, hbefore]

theorem setval_again {ids : List Int} {next next' : Int} (h : setval ids next = .ok next') : setval ids next' = .ok next' := by
  unfold setval at h ⊢
  cases hlast : ids.max? with
  | none => rfl
  | some last => rwa [hlast] at h

theorem setSequences_again {result : Except Exception Unit} (h : setSequences s = (result, s')) :
    setSequences s' = (result, s') ∧ s'.plans = s.plans ∧ s'.actions = s.actions := by
  unfold setSequences at h
  cases hplan : setval (s.plans.rows.map (·.id)) s.nextPlan with
  | error e =>
    rw [hplan] at h
    obtain ⟨rfl, rfl⟩ := Prod.mk.inj h
    exact ⟨by rw [setSequences, hplan], rfl, rfl⟩
  | ok nextPlan =>
    have hplan' := setval_again hplan
    rw [hplan] at h
    dsimp only at h
    cases haction : setval (s.actions.rows.map (·.id)) s.nextAction with
    | error e =>
      rw [haction] at h
      obtain ⟨rfl, rfl⟩ := Prod.mk.inj h
      exact ⟨by simp only [setSequences, hplan', haction], rfl, rfl⟩
    | ok nextAction =>
      rw [haction] at h
      obtain ⟨rfl, rfl⟩ := Prod.mk.inj h
      exact ⟨by simp only [setSequences, hplan', setval_again haction], rfl, rfl⟩

variable {planFile actionFile : List (List String)}

theorem import_eq (hturns : importTurns planFile actionFile = .ok turns) :
    importClassicPlans lib tables planFile actionFile s = (each turns (importTurn lib tables) >>= fun _ => setSequences) s := by
  rw [importClassicPlans, hturns, lift_ok_bind]

theorem SettledTurns.of_plans (h : SettledTurns lib turns s) (hplans : s'.plans = s.plans) : SettledTurns lib turns s' where
  legible := h.legible
  stored := by
    rw [hplans]
    exact h.stored
  fixed := by
    rw [hplans]
    exact h.fixed

theorem run_again {result : Except Exception Unit} (hnumbered : ∀ entry ∈ turns, Numbered entry)
    (h : (each turns (importTurn lib tables) >>= fun _ => setSequences) s = (result, s')) :
    (each turns (importTurn lib tables) >>= fun _ => setSequences) s' = (result, s') := by
  rcases hrun : each turns (importTurn lib tables) s with ⟨e | _, middle⟩
  · rw [bind_of_error hrun] at h
    obtain ⟨rfl, rfl⟩ := Prod.mk.inj h
    obtain ⟨before, entry, rest, rfl, hbefore, hfails⟩ := run_error hrun
    have hsettled := settledTurns_of_run (fun other hother => hnumbered other (by simp [hother])) hbefore
    have hagain : each (before ++ entry :: rest) (importTurn lib tables) middle = (.error e, middle) := by
      rw [each_append, bind_of_ok (run_settled hsettled), each_cons, bind_of_error hfails]
    rw [bind_of_error hagain]
  · rw [bind_of_ok hrun] at h
    obtain ⟨hagain, hplans, -⟩ := setSequences_again h
    rw [bind_of_ok (run_settled ((settledTurns_of_run hnumbered hrun).of_plans hplans)), hagain]

def Arrived (s s' : Plans) : Prop := ∀ plan ∈ s'.plans, s.plans.get? plan.id = none → plan.orgId = ""

theorem Arrived.turn {middle : Plans} (h : Arrived s middle) (hturn : Turned lib entry middle s') : Arrived s s' := by
  intro plan hplan hnew
  cases hturn with
  | left htakes hsame =>
    rw [hsame] at hplan
    exact h plan hplan hnew
  | updated hwrites hold hsame =>
    rw [hsame] at hplan
    obtain ⟨before, hbefore, rfl⟩ := Table.mem_updateWhere.mp hplan
    split_ifs at hnew ⊢
    · exact h before hbefore hnew
    · exact h before hbefore hnew
  | created htakes hwrites horg hfree hplans hactions hactionPlans =>
    rcases (Table.mem_insert? hplans plan).mp hplan with hbefore | rfl
    · exact h plan hbefore hnew
    · exact horg

theorem arrived_of_run (h : each turns (importTurn lib tables) s = (.ok (), s')) : Arrived s s' := by
  induction turns using List.reverseRecOn generalizing s' with
  | nil =>
    obtain rfl : s = s' := congrArg Prod.snd h
    intro plan hplan hnew
    exact absurd rfl (Table.get?_eq_none.mp hnew plan hplan)
  | append_singleton turns entry ih =>
    rw [each_append, run_bind_eq_ok] at h
    obtain ⟨_, middle, hbefore, hlast⟩ := h
    rw [each_cons, run_bind_eq_ok] at hlast
    obtain ⟨_, after, hturn, hend⟩ := hlast
    obtain rfl : after = s' := congrArg Prod.snd hend
    exact (ih hbefore).turn (importTurn_cases hturn)

theorem arrived_of_import {result : Except Exception Unit}
    (h : importClassicPlans lib tables planFile actionFile s = (result, s')) : Arrived s s' := by
  cases hturns : importTurns planFile actionFile with
  | error e =>
    rw [importClassicPlans, hturns, lift_error_bind] at h
    obtain rfl : s = s' := congrArg Prod.snd h
    intro plan hplan hnew
    exact absurd rfl (Table.get?_eq_none.mp hnew plan hplan)
  | ok turns =>
    rw [import_eq hturns] at h
    rcases hrun : each turns (importTurn lib tables) s with ⟨e | _, middle⟩
    · rw [bind_of_error hrun] at h
      obtain ⟨rfl, rfl⟩ := Prod.mk.inj h
      obtain ⟨before, _, _, _, hbefore, -⟩ := run_error hrun
      exact arrived_of_run hbefore
    · rw [bind_of_ok hrun] at h
      have hplans := (setSequences_again h).2.1
      intro plan hplan hnew
      rw [hplans] at hplan
      exact arrived_of_run hrun plan hplan hnew

section Requests

variable {castTime : Reports.CastTime} {w : World} {request : Request} {pk : Int}

inductive Touched (w : World) : Step → World → Prop
  | kept {step : Step} {w' : World} (hplans : w'.plans = w.plans) (hnext : w'.nextPlan = w.nextPlan) : Touched w step w'
  | made {step : Step} {w' : World} {new : SatMaintenance} (hid : new.id = w.nextPlan)
    (hplans : w'.plans.rows = w.plans.rows ++ [new]) (hnext : w'.nextPlan = w.nextPlan + 1) : Touched w step w'
  | edited {request : Request} {pk : Int} {data : Except Failure EditData} {w' : World} {found : SatMaintenance}
    {edit : EditData} (hfound : findPlan request w none pk = some found)
    (hplans : w'.plans = w.plans.updateWhere (fun row => row.id = pk) (edit.apply request))
    (hnext : w'.nextPlan = w.nextPlan) : Touched w (.update request pk data) w'
  | destroyed {request : Request} {pk : Int} {w' : World} {found : SatMaintenance}
    (hfound : w.plans.get? pk = some found) (horg : found.orgId = request.orgId)
    (hplans : w'.plans = w.plans.deleteWhere fun row => row.id = pk) (hnext : w'.nextPlan = w.nextPlan) :
    Touched w (.destroy request pk) w'

theorem touched_create {data : Except Failure AddData} :
    Touched w (.create request data) (create castTime request w data).2 := by
  unfold create
  cases checkCreate request w data with
  | error e => exact .kept rfl rfl
  | ok checked =>
    obtain ⟨plan, entries⟩ := checked
    dsimp only
    cases addActions castTime (w.insertPlan plan).toSurroundings request plan
        ((w.insertPlan plan).actions.rows.filter (·.plan = w.nextPlan)) entries with
    | error e => exact .made rfl rfl rfl
    | ok rows => exact .made rfl rfl rfl

theorem touched_update {data : Except Failure EditData} :
    Touched w (.update request pk data) (update castTime request w pk data).2 := by
  cases hcheck : checkUpdate request w pk data with
  | error e =>
    rw [update_refused hcheck]
    exact .kept rfl rfl
  | ok checked =>
    obtain ⟨plan, edit⟩ := checked
    obtain ⟨hid, horg, hsame⟩ := checkUpdate_org hcheck
    have hfound : findPlan request w none pk = some plan.1 := by
      have hget : w.plans.get? pk = some plan.1 := Table.get?_eq_some.mpr ⟨plan.2, hid⟩
      rw [findPlan, hget]
      simp [horg, hsame]
    have hplans : (edited request w plan edit).plans =
        w.plans.updateWhere (fun other => other.id = plan.1.id) (edit.apply request) := edited_plans
    have hnext := edited_nextPlan request w plan.1 edit
    rw [hid] at hplans
    cases hrows : additions castTime request (edited request w plan edit) plan edit with
    | error e =>
      rw [update_failed hcheck hrows]
      exact .edited hfound hplans hnext
    | ok rows =>
      rw [update_done hcheck hrows]
      exact .edited hfound hplans hnext

theorem touched_destroy : Touched w (.destroy request pk) (destroy request w pk).2 := by
  unfold destroy
  split_ifs with hany
  · obtain ⟨found, hfound, horg⟩ := (Option.any_eq_true _ _).mp hany
    exact .destroyed hfound (of_decide_eq_true horg) rfl rfl
  · exact .kept rfl rfl

theorem touched_step (castTime : Reports.CastTime) (w : World) (s : Step) : Touched w s (step castTime w s) := by
  cases s with
  | create request data => exact touched_create
  | update request pk data => exact touched_update
  | destroy request pk => exact touched_destroy
  | change surroundings => exact .kept rfl rfl

/-- A plan of no organisation is out of the reach of all requests but a `destroy` that names no organisation. -/
theorem orphan_step (castTime : Reports.CastTime) (s : Step) (horg : plan.orgId = "") (h : w.plans.get? plan.id = some plan) :
    (step castTime w s).plans.get? plan.id = some plan ∨
      (step castTime w s).plans.get? plan.id = none ∧ plan.id < (step castTime w s).nextPlan ∧
        ∃ request, s = .destroy request plan.id ∧ request.orgId = "" := by
  have hmem : plan ∈ w.plans := Table.mem_iff_get?.mpr h
  have hlt : plan.id < w.nextPlan := w.planIds plan hmem
  cases touched_step castTime w s with
  | kept hplans hnext => exact .inl (by rw [hplans, h])
  | made hid hplans hnext =>
    refine .inl (Table.mem_iff_get?.mp ?_)
    rw [Table.mem_def, hplans]
    exact List.mem_append_left _ hmem
  | edited hfound hplans hnext =>
    rename_i request pk data found edit
    obtain ⟨hstored, hid, hsome, hsame, -⟩ := findPlan_eq_some request hfound
    have hother : plan.id ≠ pk := by
      intro heq
      apply hsome
      have hone : plan = found := w.plans.key_injOn hmem hstored (heq.trans hid.symm)
      rw [← hsame, ← hone, horg]
    left
    rw [hplans, Table.get?_updateWhere, h, Option.map_some, if_neg (by simpa using hother)]
  | destroyed hfound hsame hplans hnext =>
    rename_i request pk found
    by_cases hid : plan.id = pk
    · right
      rw [hid] at h
      obtain rfl : found = plan := Option.some.inj (hfound.symm.trans h)
      refine ⟨?_, by omega, request, by rw [hid], by rw [← hsame, horg]⟩
      rw [hplans, Table.get?_eq_none]
      intro row hrow
      simpa [hid] using (Table.mem_deleteWhere.mp hrow).2
    · left
      rw [hplans]
      exact Table.mem_iff_get?.mp (Table.mem_deleteWhere.mpr ⟨hmem, by simpa using hid⟩)

theorem gone_step (castTime : Reports.CastTime) (s : Step) (hgone : w.plans.get? pk = none) (hlt : pk < w.nextPlan) :
    (step castTime w s).plans.get? pk = none ∧ pk < (step castTime w s).nextPlan := by
  rw [Table.get?_eq_none] at hgone ⊢
  cases touched_step castTime w s with
  | kept hplans hnext =>
    rw [hplans, hnext]
    exact ⟨hgone, hlt⟩
  | made hid hplans hnext =>
    refine ⟨?_, by omega⟩
    intro row hrow
    rw [Table.mem_def, hplans] at hrow
    rcases List.mem_append.mp hrow with hold | hnew
    · exact hgone row hold
    · rw [List.mem_singleton.mp hnew, hid]
      omega
  | edited hfound hplans hnext =>
    rw [hplans, hnext]
    refine ⟨?_, hlt⟩
    intro row hrow
    obtain ⟨old, hold, rfl⟩ := Table.mem_updateWhere.mp hrow
    have hkey := hgone old hold
    split_ifs
    · exact hkey
    · exact hkey
  | destroyed hfound hsame hplans hnext =>
    rw [hplans, hnext]
    exact ⟨fun row hrow => hgone row (Table.mem_deleteWhere.mp hrow).1, hlt⟩

theorem gone_run {steps : List Step} (hgone : w.plans.get? pk = none) (hlt : pk < w.nextPlan) :
    ∀ w' ∈ states castTime w steps, w'.plans.get? pk = none := by
  induction steps generalizing w with
  | nil => simpa [states] using hgone
  | cons s steps ih =>
    obtain ⟨hnext, hbound⟩ := gone_step castTime s hgone hlt
    intro w' hw'
    rcases List.mem_cons.mp hw' with rfl | hlater
    · exact hgone
    · exact ih hnext hbound w' hlater

theorem lt_nextPlan_step (castTime : Reports.CastTime) (s : Step) (hlt : pk < w.nextPlan) :
    pk < (step castTime w s).nextPlan := by
  cases touched_step castTime w s with
  | kept hplans hnext => omega
  | made hid hplans hnext => omega
  | edited hfound hplans hnext => omega
  | destroyed hfound hsame hplans hnext => omega

theorem pairwise_gone (castTime : Reports.CastTime) (steps : List Step) (hlt : pk < w.nextPlan) :
    (states castTime w steps).Pairwise fun before after => before.plans.get? pk = none → after.plans.get? pk = none := by
  induction steps generalizing w with
  | nil => exact List.pairwise_singleton _ w
  | cons s steps ih =>
    refine List.pairwise_cons.mpr ⟨fun w' hw' hgone => ?_, ih (lt_nextPlan_step castTime s hlt)⟩
    obtain ⟨hnext, hbound⟩ := gone_step castTime s hgone hlt
    exact gone_run hnext hbound w' hw'

theorem orphan_run (castTime : Reports.CastTime) (steps : List Step) (horg : plan.orgId = "") (h : w.plans.get? plan.id = some plan) :
    ∀ w' ∈ states castTime w steps, w'.plans.get? plan.id = some plan ∨
      w'.plans.get? plan.id = none ∧ ∃ request, Step.destroy request plan.id ∈ steps ∧ request.orgId = "" := by
  induction steps generalizing w with
  | nil => exact fun w' hw' => .inl (by rw [List.mem_singleton.mp hw', h])
  | cons s steps ih =>
    intro w' hw'
    rcases List.mem_cons.mp hw' with rfl | hlater
    · exact .inl h
    · rcases orphan_step castTime s horg h with hkept | ⟨hgone, hlt, request, rfl, hnobody⟩
      · rcases ih hkept w' hlater with hstays | ⟨hgone, request, hdestroy, hnobody⟩
        · exact .inl hstays
        · exact .inr ⟨hgone, request, List.mem_cons_of_mem _ hdestroy, hnobody⟩
      · exact .inr ⟨gone_run hgone hlt w' hlater, request, List.mem_cons_self, hnobody⟩

/-- A plan that an import brings, failed or not, belongs to no organisation. However the API is used after it, no view
finds the plan and no request changes it; only a `destroy` of an identity with an empty organisation takes it away, and
then its id is not given out again. -/
theorem imported_unseen (castTime : Reports.CastTime) {result : Except Exception Unit}
    (himport : importClassicPlans lib tables planFile actionFile s = (result, s')) (hplan : plan ∈ s'.plans)
    (hnew : s.plans.get? plan.id = none) (hw : w.plans = s'.plans) (steps : List Step) :
    (∀ w' ∈ states castTime w steps,
      (∀ request branchId, findPlan request w' branchId plan.id = none) ∧
        (w'.plans.get? plan.id = some plan ∨
          w'.plans.get? plan.id = none ∧ ∃ request, Step.destroy request plan.id ∈ steps ∧ request.orgId = "")) ∧
      (states castTime w steps).Pairwise fun before after =>
        before.plans.get? plan.id = none → after.plans.get? plan.id = none := by
  have horg : plan.orgId = "" := arrived_of_import himport plan hplan hnew
  have hstored : plan ∈ w.plans := by
    rw [hw]
    exact hplan
  have hstart := Table.mem_iff_get?.mp hstored
  refine ⟨?_, pairwise_gone castTime steps (w.planIds plan hstored)⟩
  intro w' hw'
  have hfate := orphan_run castTime steps horg hstart w' hw'
  refine ⟨?_, hfate⟩
  intro request branchId
  cases hfind : findPlan request w' branchId plan.id with
  | none => rfl
  | some found =>
    obtain ⟨hstored, hid, hsome, hsame, -⟩ := findPlan_eq_some request hfind
    rcases hfate with hstays | ⟨hgone, -⟩
    · have hone : w'.plans.get? plan.id = some found := Table.get?_eq_some.mpr ⟨hstored, hid⟩
      obtain rfl : plan = found := Option.some.inj (hstays.symm.trans hone)
      exact absurd (hsame.symm.trans horg) hsome
    · exact absurd hid (Table.get?_eq_none.mp hgone found hstored)

end Requests

section OnePlan

def dumpLibrary : Library where
  parseDatetime _ := .unmatched
  parseDate _ := none
  render _ := ""
  intOfText text := if text = "7" then some 7 else none

def planDump : List (List String) :=
  [["maintenance_id", "account_number", "name", "description", "start", "end", "created_by", "silenced", "hidden",
      "suggestion", "allow_reboot", "remote_branch"],
    ["7", "540155", "Reboots", "NULL", "NULL", "NULL", "admin", "0", "0", "NULL", "1",
      "00000000-0000-0000-0000-000000000007"]]

def actionDump : List (List String) := [["id", "maintenance_id", "rule_id", "system_id"]]

def dumpedPlans : Plans := (importClassicPlans dumpLibrary twoOrgs.tables planDump actionDump { plans := .empty, actions := .empty }).2

def dumpedPlan : SatMaintenance where
  id := 7
  account := "540155"
  orgId := ""
  branchId := 7
  name := some "Reboots"
  description := none
  start := none
  ending := none
  createdBy := some "admin"

theorem dumpedPlans_rows : dumpedPlans.plans.rows = [dumpedPlan] := by decide +kernel

theorem dumpedPlan_id : ∀ plan ∈ (.single dumpedPlan : Table SatMaintenance.id), plan.id < 9 := by
  intro plan hplan
  rw [Table.mem_single.mp hplan]
  decide

theorem noAction_id : ∀ action ∈ (.empty : Table SatMaintenanceAction.id), action.id < 1 := by
  intro action haction
  cases haction

theorem noAction_plan : ∀ action ∈ (.empty : Table SatMaintenanceAction.id), action.plan < 9 := by
  intro action haction
  cases haction

def dumpedWorld : World where
  toSurroundings := twoOrgs
  plans := .single dumpedPlan
  actions := .empty
  nextPlan := 9
  nextAction := 1
  planIds := dumpedPlan_id
  actionIds := noAction_id
  actionPlans := noAction_plan

theorem imported_unseen_dumped :
    dumpedPlan ∈ dumpedPlans.plans ∧
      (∀ w' ∈ states (fun _ => none) dumpedWorld
          [.update satelliteUser 7 (.ok { name := some (some "Mine") }), .destroy satelliteUser 7],
        (∀ request branchId, findPlan request w' branchId dumpedPlan.id = none) ∧
          (w'.plans.get? dumpedPlan.id = some dumpedPlan ∨
            w'.plans.get? dumpedPlan.id = none ∧ ∃ request, Step.destroy request dumpedPlan.id ∈
              [.update satelliteUser 7 (.ok { name := some (some "Mine") }), .destroy satelliteUser 7] ∧
                request.orgId = "")) ∧
      (states (fun _ => none) dumpedWorld
          [.update satelliteUser 7 (.ok { name := some (some "Mine") }), .destroy satelliteUser 7]).Pairwise
        fun before after => before.plans.get? dumpedPlan.id = none → after.plans.get? dumpedPlan.id = none := by
  have hplan : dumpedPlan ∈ dumpedPlans.plans := by
    rw [Table.mem_def, dumpedPlans_rows]
    exact List.mem_singleton.mpr rfl
  have himport : importClassicPlans dumpLibrary twoOrgs.tables planDump actionDump { plans := .empty, actions := .empty } =
      ((importClassicPlans dumpLibrary twoOrgs.tables planDump actionDump
        { plans := .empty, actions := .empty }).1, dumpedPlans) := by
    rw [dumpedPlans]
  have hnew : (Table.empty : Table SatMaintenance.id).get? dumpedPlan.id = none := Table.get?_empty _
  have hw : dumpedWorld.plans = dumpedPlans.plans := (Table.eq_of_rows dumpedPlans_rows).symm
  exact ⟨hplan, imported_unseen (fun _ => none) himport hplan hnew hw _⟩

end OnePlan

end Advisor.Satellite
