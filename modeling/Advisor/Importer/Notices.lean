import Advisor.Importer.ApiRuns
import Advisor.Importer.Management
import Mathlib.Data.List.Dedup

/-! Whom the imports of one process tell of which deactivated rules. What is to be told is kept by the process, and
nothing takes it out again. -/

namespace Advisor.Importer.Api

open Python Procedure Django Relational

variable {env : Environment} {settings : Settings}

def eventsFor (notices : List Notice) (orgId : String) : List Event :=
  ((notices.find? fun notice => notice.orgId = orgId).map Notice.ruleInfo).getD []

theorem eventsFor_addEvent (account : Option String) (orgId : String) (event : Event) (notices : List Notice)
    (other : String) :
    eventsFor (addEvent account orgId event notices) other =
      if orgId = other then eventsFor notices other ++ [event] else eventsFor notices other := by
  induction notices with
  | nil => by_cases h : orgId = other <;> simp [addEvent, eventsFor, h]
  | cons notice rest ih =>
    unfold eventsFor at ih
    by_cases hn : notice.orgId = orgId
    · by_cases h : orgId = other
      · simp [addEvent, eventsFor, hn, h]
      · simp [addEvent, eventsFor, hn, h]
    · by_cases ho : notice.orgId = other
      · have hne : orgId ≠ other := fun hc => hn (ho.trans hc.symm)
        simp [addEvent, eventsFor, ho, hne, hne.symm]
      · simpa [addEvent, eventsFor, hn, ho] using ih

/-- There is one entry for an organisation, and it has something to tell. -/
structure Kept (notices : List Notice) : Prop where
  orgs : (notices.map Notice.orgId).Nodup
  told : ∀ notice ∈ notices, notice.ruleInfo ≠ []

theorem orgs_addEvent (account : Option String) (orgId : String) (event : Event) (notices : List Notice) :
    (addEvent account orgId event notices).map Notice.orgId =
      if orgId ∈ notices.map Notice.orgId then notices.map Notice.orgId else notices.map Notice.orgId ++ [orgId] := by
  induction notices with
  | nil => rfl
  | cons notice rest ih =>
    by_cases hn : notice.orgId = orgId
    · simp [addEvent, hn]
    · have hne : orgId ≠ notice.orgId := fun h => hn h.symm
      rw [addEvent, if_neg hn, List.map_cons, ih, List.map_cons]
      by_cases hm : orgId ∈ rest.map Notice.orgId
      · rw [if_pos hm, if_pos (List.mem_cons_of_mem _ hm)]
      · rw [if_neg hm, if_neg (by simp only [List.mem_cons, hne, hm, or_self, not_false_eq_true]), List.cons_append]

theorem told_addEvent {account : Option String} {orgId : String} {event : Event} {notices : List Notice}
    (h : ∀ notice ∈ notices, notice.ruleInfo ≠ []) :
    ∀ notice ∈ addEvent account orgId event notices, notice.ruleInfo ≠ [] := by
  induction notices with
  | nil => simp [addEvent]
  | cons first rest ih =>
    intro notice hm
    rw [addEvent] at hm
    split at hm
    · rcases List.mem_cons.mp hm with rfl | hm
      · simp
      · exact h notice (by simp [hm])
    · rcases List.mem_cons.mp hm with rfl | hm
      · exact h _ (by simp)
      · exact ih (fun n hn => h n (by simp [hn])) notice hm

theorem Kept.addEvent {account : Option String} {orgId : String} {event : Event} {notices : List Notice}
    (h : Kept notices) : Kept (addEvent account orgId event notices) where
  orgs := by
    rw [orgs_addEvent]
    split
    · exact h.orgs
    · rename_i hn
      exact h.orgs.append (List.nodup_singleton _) (by simpa using hn)
  told := told_addEvent h.told

theorem Kept.entry {notices : List Notice} (h : Kept notices) (orgId : String) :
    (notices.filter fun notice => notice.orgId = orgId) = [] ∧ eventsFor notices orgId = [] ∨
      ∃ notice, (notices.filter fun notice => notice.orgId = orgId) = [notice] ∧
        eventsFor notices orgId = notice.ruleInfo ∧ notice.ruleInfo ≠ [] := by
  rw [filter_eq_toList_find? h.orgs, eventsFor]
  cases hfind : notices.find? fun notice => notice.orgId = orgId with
  | none => exact Or.inl ⟨rfl, rfl⟩
  | some notice => exact Or.inr ⟨notice, rfl, rfl, h.told notice (List.mem_of_find?_eq_some hfind)⟩

def counts (notices : List Notice) (ruleId orgId : String) : List Nat :=
  ((eventsFor notices orgId).filter fun event => event.ruleId = ruleId).map Event.affectedSystems

/-- The reports of a rule an organisation sees, which are none once it has acked the rule. -/
def unacked (db : Database) (ruleId orgId : String) : List CurrentReport :=
  db.reports.filter fun report => report.rule = ruleId && report.orgId = orgId &&
    !db.acks.any fun ack => ack.rule = ruleId && ack.orgId = orgId

def affectedSystems (db : Database) (ruleId orgId : String) : Nat :=
  ((unacked db ruleId orgId).map CurrentReport.host).dedup.length

def groupsOf (db : Database) (ruleId orgId : String) : List Nat :=
  ((affectedAccounts db ruleId).filter fun e => e.2.1 = orgId).map fun e => e.2.2

theorem affectedAccounts_congr {db db' : Database} {ruleId : String} (hreports : db'.reports = db.reports)
    (hacks : (db'.acks.filter fun ack => ack.rule = ruleId) = db.acks.filter fun ack => ack.rule = ruleId) :
    affectedAccounts db' ruleId = affectedAccounts db ruleId := by
  have hany : ∀ (acks : List Ack) (orgId : String), (acks.any fun ack => ack.rule = ruleId && ack.orgId = orgId) =
      (acks.filter fun ack => ack.rule = ruleId).any fun ack => ack.orgId = orgId := by
    intro acks orgId
    rw [List.any_filter]
  have hsame : ∀ orgId, (db'.acks.any fun ack => ack.rule = ruleId && ack.orgId = orgId) =
      db.acks.any fun ack => ack.rule = ruleId && ack.orgId = orgId := by
    intro orgId
    rw [hany, hacks, hany]
  simp only [affectedAccounts, hreports, hsame]

theorem groupsOf_congr {db db' : Database} {ruleId : String} (hreports : db'.reports = db.reports)
    (hacks : (db'.acks.filter fun ack => ack.rule = ruleId) = db.acks.filter fun ack => ack.rule = ruleId)
    (orgId : String) : groupsOf db' ruleId orgId = groupsOf db ruleId orgId := by
  rw [groupsOf, affectedAccounts_congr hreports hacks, groupsOf]

theorem unacked_eq (db : Database) (ruleId orgId : String) :
    unacked db ruleId orgId = (db.reports.filter fun report => report.rule = ruleId &&
      !db.acks.any fun ack => ack.rule = ruleId && ack.orgId = report.orgId).filter fun report => report.orgId = orgId := by
  rw [unacked, List.filter_filter]
  refine List.filter_congr fun report _ => ?_
  by_cases h : report.orgId = orgId
  · simp [h]
  · simp [h]

theorem groupsOf_eq (db : Database) (ruleId orgId : String) :
    groupsOf db ruleId orgId = ((groupBy (fun report : CurrentReport => (report.account, report.orgId))
      (db.reports.filter fun report => report.rule = ruleId &&
        !db.acks.any fun ack => ack.rule = ruleId && ack.orgId = report.orgId)).filter
          fun group => group.1.2 = orgId).map fun group => group.2.length := by
  rw [groupsOf, affectedAccounts, List.filter_map, List.map_map]
  rfl

theorem groupsOf_of_account {db : Database} {ruleId orgId : String}
    (h : ∀ report ∈ unacked db ruleId orgId, ∀ other ∈ unacked db ruleId orgId, report.account = other.account) :
    groupsOf db ruleId orgId = if (unacked db ruleId orgId).isEmpty then [] else [(unacked db ruleId orgId).length] := by
  rw [groupsOf_eq]
  rw [unacked_eq] at h ⊢
  generalize (db.reports.filter fun report => report.rule = ruleId &&
    !db.acks.any fun ack => ack.rule = ruleId && ack.orgId = report.orgId) = reports at h ⊢
  have hkeys : ∀ report ∈ reports, ∀ other ∈ reports, report.orgId = orgId → other.orgId = orgId →
      (report.account, report.orgId) = (other.account, other.orgId) := by
    intro report hreport other hother ho ho'
    rw [h report (by simp [hreport, ho]) other (by simp [hother, ho']), ho, ho']
  have hone := @filter_groupBy _ _ _ (fun report : CurrentReport => (report.account, report.orgId)) reports
    (fun k => k.2 = orgId) fun report hreport other hother ho ho' =>
      hkeys report hreport other hother (by simpa using ho) (by simpa using ho')
  rw [← Function.comp_def List.length, ← List.map_map, hone]
  split <;> rfl

theorem groupsOf_of_nil {db : Database} {ruleId orgId : String} (h : unacked db ruleId orgId = []) :
    groupsOf db ruleId orgId = [] := by
  rw [groupsOf_of_account (by simp [h]), h]
  rfl

/-- A table keeps no two reports of a rule for a host. -/
def ReportsUnique (db : Database) : Prop := (db.reports.map fun report => (report.orgId, report.rule, report.host)).Nodup

theorem affectedSystems_eq {db : Database} (h : ReportsUnique db) (ruleId orgId : String) :
    affectedSystems db ruleId orgId = (unacked db ruleId orgId).length := by
  have hsub : (unacked db ruleId orgId).Sublist db.reports := List.filter_sublist
  have hnodup : ((unacked db ruleId orgId).map CurrentReport.host).Nodup := by
    have hkeys : ((unacked db ruleId orgId).map fun report => (report.orgId, report.rule, report.host)).Nodup :=
      (hsub.map _).nodup h
    have hsame : ((unacked db ruleId orgId).map fun report => (report.orgId, report.rule, report.host)) =
        ((unacked db ruleId orgId).map CurrentReport.host).map fun host => (orgId, ruleId, host) := by
      rw [List.map_map]
      refine List.map_congr_left fun report hreport => ?_
      simp only [unacked, List.mem_filter, Bool.and_eq_true, decide_eq_true_eq] at hreport
      rw [hreport.2.1.1, hreport.2.1.2]
      rfl
    rw [hsame] at hkeys
    exact hkeys.of_map
  rw [affectedSystems, hnodup.dedup, List.length_map]

def saysInactive (row : ContentRow) : Bool := ((row.get? "status").getD .null).eq (.str "inactive")

def hasAction (row : ContentRow) : Bool :=
  match (row.get? "notif_action").getD .null with
  | .str text => announces text.toLower
  | _ => false

variable (settings) in
def activates (row : ContentRow) : Bool :=
  match activeOf settings row with
  | .ok active => active
  | .error _ => false

variable (settings) in
def activeAfter (active : Bool) (rows : List ContentRow) : Bool := rows.foldl (fun _ row => activates settings row) active

variable (settings) in
/-- The rows that announce the rule, as each finds it active. -/
def announcing (active : Bool) : List ContentRow → List ContentRow
  | [] => []
  | row :: rows =>
    if active && saysInactive row && hasAction row then row :: announcing (activates settings row) rows
    else announcing (activates settings row) rows

def isActive (db : Database) (ruleId : String) : Bool := db.rules.any fun rule => rule.ruleId = ruleId && rule.active

theorem eventsFor_foldl (accounts : List (Option String × String × Nat)) (event : Nat → Event) (notices : List Notice)
    (orgId : String) :
    eventsFor (accounts.foldl (fun notices e => addEvent e.1 e.2.1 (event e.2.2) notices) notices) orgId =
      eventsFor notices orgId ++ (accounts.filter fun e => e.2.1 = orgId).map fun e => event e.2.2 := by
  induction accounts generalizing notices with
  | nil => simp
  | cons e accounts ih =>
    rw [List.foldl_cons, ih, eventsFor_addEvent]
    by_cases h : e.2.1 = orgId
    · rw [if_pos h, List.filter_cons, if_pos (by simp [h]), List.map_cons, List.append_assoc]
      rfl
    · rw [if_neg h, List.filter_cons, if_neg (by simp [h])]

theorem kept_foldl (accounts : List (Option String × String × Nat)) (event : Nat → Event) {notices : List Notice}
    (h : Kept notices) : Kept (accounts.foldl (fun notices e => addEvent e.1 e.2.1 (event e.2.2) notices) notices) := by
  induction accounts generalizing notices with
  | nil => exact h
  | cons e accounts ih => exact ih h.addEvent

/-- The notices after a rule has been announced, or not. -/
structure Announced (ruleId : String) (announced : Bool) (s s' : State) : Prop where
  counts : ∀ other orgId, counts s'.deactivatedRuleAccounts other orgId =
    counts s.deactivatedRuleAccounts other orgId ++ if announced ∧ other = ruleId then groupsOf s.db ruleId orgId else []
  kept : Kept s.deactivatedRuleAccounts → Kept s'.deactivatedRuleAccounts

theorem Announced.none {ruleId : String} {s s' : State} (h : s'.deactivatedRuleAccounts = s.deactivatedRuleAccounts) :
    Announced ruleId false s s' := ⟨by simp [h], fun hkept => h ▸ hkept⟩

theorem getDeactivatedRuleAccounts_announced (row : ContentRow) (stored : Rule) (action : String) (s : State) :
    Announced stored.ruleId true s (getDeactivatedRuleAccounts row stored action s).2 where
  counts := by
    intro other orgId
    have hevents : eventsFor (getDeactivatedRuleAccounts row stored action s).2.deactivatedRuleAccounts orgId =
        eventsFor s.deactivatedRuleAccounts orgId ++ _ :=
      eventsFor_foldl (affectedAccounts s.db stored.ruleId)
        (fun systems => ⟨stored.ruleId, descriptionOf row stored, stored.totalRisk, systems, reasonOf action⟩) _ orgId
    rw [Api.counts, hevents, List.filter_append, List.map_append, Api.counts]
    apply congrArg (_ ++ ·)
    rw [List.filter_map, List.map_map, groupsOf]
    by_cases h : other = stored.ruleId
    · simp [Function.comp_def, h]
    · simp [Function.comp_def, h, Ne.symm h]
  kept := kept_foldl _ fun systems => ⟨stored.ruleId, descriptionOf row stored, stored.totalRisk, systems, reasonOf action⟩

theorem hasAction_of_not_truthy {row : ContentRow} (h : ¬((row.get? "notif_action").getD .null).truthy = true) :
    hasAction row = false := by
  unfold hasAction
  cases hvalue : (row.get? "notif_action").getD .null with
  | str text =>
    have hempty : text = "" := by simpa [hvalue, Json.truthy] using h
    rw [hempty]
    decide +kernel
  | _ => rfl

theorem notifAction_announced {row : ContentRow} {stored : Rule} {date date' : Option Instant} {s s' : State}
    (h : notifAction settings row stored date s = (.ok date', s')) :
    s'.db = s.db ∧ Announced stored.ruleId (stored.active && saysInactive row && hasAction row) s s' := by
  unfold notifAction at h
  split at h
  case isFalse hfalse =>
    obtain ⟨-, rfl⟩ := Prod.mk.inj h
    rw [hasAction_of_not_truthy hfalse, Bool.and_false]
    exact ⟨rfl, .none rfl⟩
  case isTrue =>
    cases hvalue : (row.get? "notif_action").getD .null with
    | str text =>
      have haction : hasAction row = announces text.toLower := by rw [hasAction, hvalue]
      rw [hvalue] at h
      simp only [handleNotifAction, run_bind_eq_ok, run_lift_eq_ok] at h
      obtain ⟨status, _, ⟨hitem, rfl⟩, h⟩ := h
      have hstatus : status.eq (.str "inactive") = saysInactive row := by
        rw [saysInactive, item_eq_ok.mp hitem, Option.getD_some]
      rw [hstatus] at h
      by_cases hdown : (stored.active && saysInactive row) = true
      · rw [if_pos hdown] at h
        rw [hdown, haction, Bool.true_and]
        by_cases hannounces : announces text.toLower = true
        · rw [if_pos hannounces] at h
          obtain ⟨-, rfl⟩ := Prod.mk.inj h
          rw [hannounces]
          exact ⟨rfl, getDeactivatedRuleAccounts_announced row stored _ _⟩
        · rw [if_neg hannounces] at h
          obtain ⟨-, rfl⟩ := Prod.mk.inj h
          rw [Bool.eq_false_iff.mpr hannounces]
          exact ⟨rfl, .none rfl⟩
      · rw [if_neg hdown] at h
        rw [Bool.eq_false_iff.mpr hdown, Bool.false_and]
        split at h
        · obtain ⟨-, rfl⟩ := Prod.mk.inj h
          exact ⟨rfl, .none rfl⟩
        · obtain ⟨-, rfl⟩ := Prod.mk.inj h
          exact ⟨rfl, .none rfl⟩
    | _ =>
      rw [hvalue] at h
      cases h

def RuleIdsUnique (db : Database) : Prop := (db.rules.map Rule.ruleId).Nodup

theorem isActive_of_mem {db : Database} (h : RuleIdsUnique db) {rule : Rule} (hm : rule ∈ db.rules) :
    isActive db rule.ruleId = rule.active := by
  have hsame : ∀ other ∈ db.rules, other.ruleId = rule.ruleId → other = rule :=
    fun other hother hid => List.inj_on_of_nodup_map h hother hm hid
  rw [Bool.eq_iff_iff, isActive, List.any_eq_true]
  constructor
  · rintro ⟨other, hother, ho⟩
    simp only [Bool.and_eq_true, decide_eq_true_eq] at ho
    rw [← hsame other hother ho.1]
    exact ho.2
  · intro hactive
    exact ⟨rule, hm, by simp [hactive]⟩

theorem isActive_of_not_mem {db : Database} {ruleId : String} (h : ∀ rule ∈ db.rules, rule.ruleId ≠ ruleId) :
    isActive db ruleId = false := by
  rw [Bool.eq_false_iff, isActive, ne_eq, List.any_eq_true]
  rintro ⟨rule, hrule, hid⟩
  simp only [Bool.and_eq_true, decide_eq_true_eq] at hid
  exact h rule hrule hid.1

variable (settings) in
/-- What a row makes of its rule, and what it announces. -/
structure Turns (row : ContentRow) (s s' : State) : Prop where
  unique : RuleIdsUnique s'.db
  present : row.ruleId ∈ s'.db.rules.map Rule.ruleId
  active : isActive s'.db row.ruleId = activates settings row
  announced : Announced row.ruleId (isActive s.db row.ruleId && saysInactive row && hasAction row) s s'

theorem activates_of_fields {db : Database} {row : ContentRow} {rule : Rule} (h : FieldsOf env settings db row rule) :
    activates settings row = rule.active := by
  rw [activates, h.active]

theorem mem_replaceRule {stored rule : Rule} {rules : List Rule} (hmem : stored ∈ rules)
    (hid : stored.ruleId = rule.ruleId) : rule ∈ replaceRule rule rules :=
  List.mem_map.mpr ⟨stored, hmem, by rw [if_pos hid]⟩

theorem ruleId_ne_of_added {rules : List Rule} {rule : Rule} (h : ((rules ++ [rule]).map Rule.ruleId).Nodup) :
    ∀ other ∈ rules, other.ruleId ≠ rule.ruleId := by
  rw [List.map_append, List.nodup_append] at h
  exact fun other hother => h.2.2 _ (List.mem_map_of_mem hother) _ (List.mem_singleton_self _)

theorem importRule_turns {ruleset : String} {row : ContentRow} {s s' : State} (hunique : RuleIdsUnique s.db)
    (h : importRule env settings ruleset row s = (.ok (), s')) : Turns settings row s s' := by
  obtain ⟨rule, hfields, ⟨stored, hstored, hid, date, date', t, hnotif, rfl⟩ | ⟨hnodup, rfl⟩⟩ := importRule_cases h
  · obtain ⟨hdb, hannounced⟩ := notifAction_announced hnotif
    have hids : (replaceRule rule t.db.rules).map Rule.ruleId = s.db.rules.map Rule.ruleId := by
      rw [replaceRule, hdb, List.map_map]
      refine List.map_congr_left fun old _ => ?_
      rw [Function.comp_apply]
      split
      · exact Eq.symm ‹_›
      · rfl
    have hunique' : RuleIdsUnique { t.db with rules := replaceRule rule t.db.rules } := by
      rw [RuleIdsUnique, hids]
      exact hunique
    have hrule : rule ∈ replaceRule rule t.db.rules := by
      rw [hdb]
      exact mem_replaceRule hstored (hid.trans hfields.ruleId.symm)
    refine ⟨hunique', List.mem_map.mpr ⟨rule, hrule, hfields.ruleId⟩, ?_, ?_⟩
    · rw [activates_of_fields hfields, ← hfields.ruleId]
      exact isActive_of_mem hunique' hrule
    · rw [← hid, isActive_of_mem hunique hstored]
      exact ⟨hannounced.counts, hannounced.kept⟩
  · refine ⟨hnodup, List.mem_map.mpr ⟨rule, by simp, hfields.ruleId⟩, ?_, ?_⟩
    · rw [activates_of_fields hfields, ← hfields.ruleId]
      exact @isActive_of_mem { s.db with rules := s.db.rules ++ [rule] } hnodup rule (by simp)
    · have hnew := ruleId_ne_of_added hnodup
      rw [hfields.ruleId] at hnew
      rw [isActive_of_not_mem hnew]
      exact .none rfl

/-- Nothing is announced, and no rule is made active or inactive. -/
structure Untold (s s' : State) : Prop where
  rules : (s'.db.rules.map fun rule => (rule.ruleId, rule.active)) = s.db.rules.map fun rule => (rule.ruleId, rule.active)
  deactivated : s'.deactivatedRuleAccounts = s.deactivatedRuleAccounts

instance untold_refl : Std.Refl Untold := ⟨fun _ => ⟨rfl, rfl⟩⟩

instance untold_trans : IsTrans State Untold :=
  ⟨fun _ _ _ h h' => ⟨h'.rules.trans h.rules, h'.deactivated.trans h.deactivated⟩⟩

theorem Aside.untold {ruleId : String} {s s' : State} (h : Aside ruleId s s') : Untold s s' := ⟨by rw [h.rules], h.deactivated⟩

theorem setPathway_untold (row : ContentRow) : Keeps Untold (setPathway env row) := by
  unfold setPathway
  refine Keeps.bind (Keeps.read _) fun db => Keeps.bind (Keeps.lift _) fun pathway => Keeps.write fun s => ⟨?_, rfl⟩
  rw [List.map_map]
  refine List.map_congr_left fun rule _ => ?_
  rw [Function.comp_apply]
  split <;> rfl

theorem Untold.isActive {s s' : State} (h : Untold s s') (ruleId : String) :
    Api.isActive s'.db ruleId = Api.isActive s.db ruleId := by
  have hany : ∀ db : Database, Api.isActive db ruleId =
      (db.rules.map fun rule => (rule.ruleId, rule.active)).any fun e => e.1 = ruleId && e.2 := by
    intro db
    rw [List.any_map]
    rfl
  rw [hany, h.rules, hany]

theorem Untold.ids {s s' : State} (h : Untold s s') : s'.db.rules.map Rule.ruleId = s.db.rules.map Rule.ruleId := by
  have hids : ∀ db : Database, db.rules.map Rule.ruleId =
      (db.rules.map fun rule => (rule.ruleId, rule.active)).map Prod.fst := by
    intro db
    rw [List.map_map]
    rfl
  rw [hids, h.rules, ← hids]

theorem importRow_turns {rulesets : Dict String RuleSet} {accounts : List (Option String × String)} {row : ContentRow}
    {ruleset : String} {s s' : State} (hto : importedTo rulesets row = some ruleset) (hunique : RuleIdsUnique s.db)
    (h : importRow env settings rulesets accounts row s = (.ok (), s')) : Turns settings row s s' := by
  rw [importRow_of_some hto, run_bind_eq_ok] at h
  obtain ⟨_, t, hrule, h⟩ := h
  have hturns := importRule_turns hunique hrule
  have hrest : Keeps Untold (do
      importResolution env row
      setPathway env row
      importTags env accounts row) := by
    have hresolution : Keeps (Aside row.ruleId) (importResolution env row) := importResolution_aside row
    refine Keeps.bind (fun s => (hresolution s).untold) fun _ => ?_
    refine Keeps.bind (setPathway_untold row) fun _ => ?_
    exact fun s => (importTags_aside accounts row s).untold
  have huntold := hrest.of_eq h
  refine ⟨?_, by rw [huntold.ids]; exact hturns.present, (huntold.isActive _).trans hturns.active, ?_⟩
  · rw [RuleIdsUnique, huntold.ids]
    exact hturns.unique
  · exact ⟨by rw [huntold.deactivated]; exact hturns.announced.counts, by rw [huntold.deactivated]; exact hturns.announced.kept⟩

/-- A rule without the tag of automatic acks stays without it, and its acks stay as they are. -/
def Unmarked (ruleId : String) (s s' : State) : Prop :=
  (ruleId, autoackTag) ∉ s.db.ruleTags → (ruleId, autoackTag) ∉ s'.db.ruleTags ∧
    (s'.db.acks.filter fun ack => ack.rule = ruleId) = s.db.acks.filter fun ack => ack.rule = ruleId

instance unmarked_refl (ruleId : String) : Std.Refl (Unmarked ruleId) := ⟨fun _ h => ⟨h, rfl⟩⟩

instance unmarked_trans (ruleId : String) : IsTrans State (Unmarked ruleId) :=
  ⟨fun _ _ _ h h' hs => ⟨(h' (h hs).1).1, (h' (h hs).1).2.trans (h hs).2⟩⟩

theorem unmarked_of_same {ruleId : String} {s s' : State} (htags : s'.db.ruleTags = s.db.ruleTags)
    (hacks : s'.db.acks = s.db.acks) : Unmarked ruleId s s' := fun h => ⟨by rwa [htags], by rw [hacks]⟩

variable {ruleId other tag : String} {accounts : List (Option String × String)}

theorem unmarked_of_aside {p : Run Unit} (hne : ruleId ≠ other) (h : Keeps (Aside other) p)
    (htags : ∀ s, (p s).2.db.ruleTags = s.db.ruleTags) : Keeps (Unmarked ruleId) p :=
  fun s hs => ⟨by rwa [htags], filter_eq_of_filter_ne hne (h s).acks⟩

theorem addAutoacksForRule_tags (s : State) : (addAutoacksForRule accounts other s).2.db.ruleTags = s.db.ruleTags := by
  rw [addAutoacksForRule, read_bind]
  generalize (accounts.filter fun e => !s.db.acks.any fun ack => ack.rule = other && ack.orgId = e.2) = new
  cases checkUnique (fun ack : Ack => (ack.rule, ack.orgId))
      (s.db.acks ++ new.map fun e => ⟨other, e.1, e.2, autoackJustification, autoackCreatedBy⟩) <;> rfl

theorem addTag_unmarked (h : other = ruleId → tag ≠ autoackTag) :
    Keeps (Unmarked ruleId) (addTag env accounts other tag) := by
  have hpair : (ruleId, autoackTag) ≠ (other, tag) := by
    rintro hpair
    obtain ⟨rfl, rfl⟩ := Prod.mk.inj hpair
    exact h rfl rfl
  unfold addTag getOrCreateTag
  refine Keeps.bind (Keeps.bind (Keeps.read _) fun db => ?_) fun _ => Keeps.bind (Keeps.write fun s => ?_) fun _ => ?_
  · refine Keeps.ite (fun _ => Keeps.bind (Keeps.lift _) fun name => ?_) fun _ => Keeps.pure _
    exact Keeps.write fun s => unmarked_of_same rfl rfl
  · intro hs
    refine ⟨?_, rfl⟩
    change _ ∉ if s.db.ruleTags.contains (other, tag) then s.db.ruleTags else s.db.ruleTags ++ [(other, tag)]
    split
    · exact hs
    · simp [hs, hpair]
  · refine Keeps.ite (fun htag => ?_) fun _ => Keeps.pure _
    have hne : ruleId ≠ other := fun hid => h hid.symm htag
    exact unmarked_of_aside hne (addAutoacksForRule_aside accounts) addAutoacksForRule_tags

theorem addTags_unmarked {tags : List String} (h : other = ruleId → autoackTag ∉ tags) (onlyInModel : List String) :
    Keeps (Unmarked ruleId) (addTags env accounts other tags onlyInModel) := by
  induction tags generalizing onlyInModel with
  | nil => exact Keeps.pure _
  | cons tag tags ih =>
    have hrest : other = ruleId → autoackTag ∉ tags := fun hid hm => h hid (by simp [hm])
    rw [addTags]
    refine Keeps.ite (fun _ => ih hrest _) fun _ => Keeps.bind (addTag_unmarked fun hid htag => ?_) fun _ => ih hrest _
    exact h hid (by simp [htag])

theorem addTags_subset {tags onlyInModel gone : List String} {s s' : State}
    (h : addTags env accounts other tags onlyInModel s = (.ok gone, s')) : gone ⊆ onlyInModel := by
  induction tags generalizing onlyInModel s with
  | nil =>
    obtain ⟨hgone, -⟩ := Prod.mk.inj h
    obtain rfl := Except.ok.inj hgone
    exact List.Subset.refl _
  | cons tag tags ih =>
    rw [addTags] at h
    split at h
    · exact List.Subset.trans (ih h) List.erase_subset
    · rw [run_bind_eq_ok] at h
      obtain ⟨_, t, -, h⟩ := h
      exact ih h

theorem importTags_unmarked {row : ContentRow} (h : row.ruleId = ruleId → autoackTag ∉ row.tags) :
    Keeps (Unmarked ruleId) (importTags env accounts row) := by
  intro s hs
  rw [importTags, read_bind]
  generalize hstored : ((s.db.ruleTags.filter fun pair => pair.1 = row.ruleId).map Prod.snd) = stored
  have hno : row.ruleId = ruleId → autoackTag ∉ stored := by
    rintro hid hm
    rw [← hstored, List.mem_map] at hm
    obtain ⟨pair, hpair, htag⟩ := hm
    obtain ⟨hmem, hrule⟩ := List.mem_filter.mp hpair
    apply hs
    rw [← hid, ← htag, ← (by simpa using hrule : pair.1 = row.ruleId)]
    exact hmem
  rcases hadd : addTags env accounts row.ruleId row.tags stored s with ⟨_ | gone, t⟩
  · rw [bind_of_error hadd]
    exact (addTags_unmarked h stored).of_eq hadd hs
  · rw [bind_of_ok hadd]
    have hgone : Keeps (Unmarked ruleId) (each gone fun tag => do
        modify fun db => { db with ruleTags := db.ruleTags.filter fun pair => pair ≠ (row.ruleId, tag) }
        if tag = autoackTag then removeAutoacksForRule row.ruleId) := by
      refine Keeps.each fun tag htag => Keeps.bind (Keeps.write fun u hu => ?_) fun _ => Keeps.ite (fun hauto => ?_) fun _ => Keeps.pure _
      · exact ⟨fun hm => hu (List.mem_of_mem_filter hm), rfl⟩
      · have hne : ruleId ≠ row.ruleId := by
          rintro hid
          exact hno hid.symm (addTags_subset hadd (hauto ▸ htag))
        exact unmarked_of_aside hne removeAutoacksForRule_aside fun _ => rfl
    exact (unmarked_trans ruleId).trans _ _ _ ((addTags_unmarked h stored).of_eq hadd) (hgone t) hs

theorem importRule_unmarked (ruleset : String) (row : ContentRow) :
    Keeps (Unmarked ruleId) (importRule env settings ruleset row) := by
  unfold importRule
  refine Keeps.bind (Keeps.read _) fun db => ?_
  cases db.rules.find? fun rule => rule.ruleset = ruleset && rule.ruleId = row.ruleId with
  | some stored =>
    refine Keeps.bind (Keeps.lift _) fun date => Keeps.bind ?_ fun _ => Keeps.bind (Keeps.lift _) fun rule => ?_
    · exact notifAction_keeps (fun _ _ => unmarked_of_same rfl rfl) row stored date
    · exact Keeps.write fun s => unmarked_of_same rfl rfl
  | none =>
    refine Keeps.bind (Keeps.lift _) fun rule => Keeps.bind (Keeps.lift _) fun rules => ?_
    exact Keeps.write fun s => unmarked_of_same rfl rfl

theorem importRow_unmarked {rulesets : Dict String RuleSet} {row : ContentRow}
    (h : row.ruleId = ruleId → autoackTag ∉ row.tags) :
    Keeps (Unmarked ruleId) (importRow env settings rulesets accounts row) := by
  unfold importRow
  cases row.get? "python_module" with
  | none => exact Keeps.pure _
  | some module =>
    refine Keeps.bind (Keeps.lift _) fun ruleset => ?_
    cases ruleset with
    | none => exact Keeps.pure _
    | some ruleset =>
      refine Keeps.bind (importRule_unmarked ruleset row) fun _ => ?_
      refine Keeps.bind (importResolution_keeps (fun _ _ _ => unmarked_of_same rfl rfl) row) fun _ => Keeps.bind ?_ fun _ => ?_
      · unfold setPathway
        refine Keeps.bind (Keeps.read _) fun db => Keeps.bind (Keeps.lift _) fun pathway => Keeps.write fun s => ?_
        exact unmarked_of_same rfl rfl
      · exact importTags_unmarked h

def rowsOf (rulesets : Dict String RuleSet) (content : List ContentRow) (ruleId : String) : List ContentRow :=
  content.filter fun row => row.ruleId = ruleId && (importedTo rulesets row).isSome

variable (settings) in
/-- No acks of the rule come or go before it is announced: its first row announces it, or none does, or neither
the rule nor a row has the tag of automatic acks. -/
def Steady (db : Database) (ruleId : String) (rows : List ContentRow) : Prop :=
  (∀ first rest, rows = first :: rest → announcing settings (activates settings first) rest = []) ∨
    (ruleId, autoackTag) ∉ db.ruleTags ∧ ∀ row ∈ rows, autoackTag ∉ row.tags

theorem isActive_of_apart {s s' : State} (h : Apart ruleId s s') : isActive s'.db ruleId = isActive s.db ruleId := by
  have hany : ∀ db : Database, isActive db ruleId = (db.rules.filter fun rule => rule.ruleId = ruleId).any Rule.active := by
    intro db
    rw [List.any_filter]
    rfl
  rw [hany, h.rules, hany]

theorem rowsOf_cons_pos {rulesets : Dict String RuleSet} {row : ContentRow} {content : List ContentRow} {ruleset : String}
    (hto : importedTo rulesets row = some ruleset) :
    rowsOf rulesets (row :: content) row.ruleId = row :: rowsOf rulesets content row.ruleId := by
  simp [rowsOf, hto]

theorem rowsOf_cons_neg {rulesets : Dict String RuleSet} {row : ContentRow} {content : List ContentRow}
    (h : row.ruleId = ruleId → importedTo rulesets row = none) :
    rowsOf rulesets (row :: content) ruleId = rowsOf rulesets content ruleId := by
  rw [rowsOf, List.filter_cons, if_neg]
  · rfl
  · intro hc
    simp only [Bool.and_eq_true, decide_eq_true_eq] at hc
    simp [h hc.1] at hc

variable (settings) in
/-- What the rows of an import come to for a rule. -/
structure Through (rulesets : Dict String RuleSet) (content : List ContentRow) (ruleId : String) (s s' : State) : Prop where
  present : ruleId ∈ s.db.rules.map Rule.ruleId → ruleId ∈ s'.db.rules.map Rule.ruleId
  active : isActive s'.db ruleId = activeAfter settings (isActive s.db ruleId) (rowsOf rulesets content ruleId)
  counts : ∀ orgId, Steady settings s.db ruleId (rowsOf rulesets content ruleId) →
    counts s'.deactivatedRuleAccounts ruleId orgId = counts s.deactivatedRuleAccounts ruleId orgId ++
      (announcing settings (isActive s.db ruleId) (rowsOf rulesets content ruleId)).flatMap fun _ => groupsOf s.db ruleId orgId

theorem importRow_of_none_ok {rulesets : Dict String RuleSet} {row : ContentRow} {s t : State}
    (hto : importedTo rulesets row = none) (h : importRow env settings rulesets accounts row s = (.ok (), t)) : s = t := by
  have hsame : (importRow env settings rulesets accounts row s).2 = s := importRow_of_none hto s
  rw [h] at hsame
  exact hsame.symm

theorem importRow_elsewhere {rulesets : Dict String RuleSet} {row : ContentRow} {s t : State} (hunique : RuleIdsUnique s.db)
    (h : importRow env settings rulesets accounts row s = (.ok (), t))
    (hrow : row.ruleId = ruleId → importedTo rulesets row = none) :
    Apart ruleId s t ∧ Unmarked ruleId s t ∧
      ∀ orgId, counts t.deactivatedRuleAccounts ruleId orgId = counts s.deactivatedRuleAccounts ruleId orgId := by
  cases hto : importedTo rulesets row with
  | none =>
    obtain rfl := importRow_of_none_ok hto h
    exact ⟨(apart_refl ruleId).refl _, (unmarked_refl ruleId).refl _, fun _ => rfl⟩
  | some ruleset =>
    have hne : ruleId ≠ row.ruleId := by
      rintro hid
      rw [hrow hid.symm] at hto
      cases hto
    refine ⟨((importRow_beside rulesets accounts row).of_eq h).apart hne, ?_, fun orgId => ?_⟩
    · exact (importRow_unmarked fun hid => absurd hid.symm hne).of_eq h
    · rw [(importRow_turns hto hunique h).announced.counts, if_neg fun hc => hne hc.2, List.append_nil]

theorem Apart.present {s s' : State} (h : Apart ruleId s s') (hm : ruleId ∈ s.db.rules.map Rule.ruleId) :
    ruleId ∈ s'.db.rules.map Rule.ruleId := by
  obtain ⟨rule, hrule, hid⟩ := List.mem_map.mp hm
  have hmem : rule ∈ s'.db.rules.filter fun rule => rule.ruleId = ruleId := by
    rw [h.rules]
    exact List.mem_filter.mpr ⟨hrule, by simp [hid]⟩
  exact List.mem_map.mpr ⟨rule, List.mem_of_mem_filter hmem, hid⟩

theorem importRow_kept {rulesets : Dict String RuleSet} {row : ContentRow} {s t : State} (hunique : RuleIdsUnique s.db)
    (h : importRow env settings rulesets accounts row s = (.ok (), t)) :
    RuleIdsUnique t.db ∧ (Kept s.deactivatedRuleAccounts → Kept t.deactivatedRuleAccounts) := by
  cases hto : importedTo rulesets row with
  | none =>
    obtain rfl := importRow_of_none_ok hto h
    exact ⟨hunique, id⟩
  | some ruleset =>
    have hturns := importRow_turns hto hunique h
    exact ⟨hturns.unique, hturns.announced.kept⟩

theorem Steady.tail {rulesets : Dict String RuleSet} {row : ContentRow} {rows : List ContentRow} {s t : State}
    (h : Steady settings s.db row.ruleId (row :: rows)) (hrow : importRow env settings rulesets accounts row s = (.ok (), t))
    (orgId : String) :
    Steady settings t.db row.ruleId rows ∧
      ((announcing settings (activates settings row) rows).flatMap fun _ => groupsOf t.db row.ruleId orgId) =
        (announcing settings (activates settings row) rows).flatMap fun _ => groupsOf s.db row.ruleId orgId := by
  have hreports : t.db.reports = s.db.reports := ((importRow_beside rulesets accounts row).of_eq hrow).reports
  rcases h with hfirst | ⟨htag, hrows⟩
  · have hnil := hfirst row rows rfl
    rw [hnil]
    refine ⟨Or.inl ?_, rfl⟩
    rintro first rest rfl
    rw [announcing] at hnil
    split at hnil
    · cases hnil
    · exact hnil
  · have hunmarked : Unmarked row.ruleId s t := (importRow_unmarked fun _ => hrows row (by simp)).of_eq hrow
    obtain ⟨htag', hacks⟩ := hunmarked htag
    rw [groupsOf_congr hreports hacks]
    exact ⟨Or.inr ⟨htag', fun r hr => hrows r (by simp [hr])⟩, rfl⟩

theorem importRows_kept {rulesets : Dict String RuleSet} {content : List ContentRow} {s s' : State}
    (hunique : RuleIdsUnique s.db) (hkept : Kept s.deactivatedRuleAccounts)
    (h : each content (importRow env settings rulesets accounts) s = (.ok (), s')) :
    RuleIdsUnique s'.db ∧ Kept s'.deactivatedRuleAccounts := by
  induction content generalizing s with
  | nil =>
    obtain ⟨-, rfl⟩ := Prod.mk.inj h
    exact ⟨hunique, hkept⟩
  | cons row content ih =>
    rw [each_cons, run_bind_eq_ok] at h
    obtain ⟨_, t, hrow, h⟩ := h
    obtain ⟨hunique', hkept'⟩ := importRow_kept hunique hrow
    exact ih hunique' (hkept' hkept) h

theorem importRows_through {rulesets : Dict String RuleSet} {content : List ContentRow} {s s' : State}
    (hunique : RuleIdsUnique s.db) (h : each content (importRow env settings rulesets accounts) s = (.ok (), s'))
    (ruleId : String) : Through settings rulesets content ruleId s s' := by
  induction content generalizing s with
  | nil =>
    obtain ⟨-, rfl⟩ := Prod.mk.inj h
    exact ⟨id, rfl, fun _ _ => (List.append_nil _).symm⟩
  | cons row content ih =>
    rw [each_cons, run_bind_eq_ok] at h
    obtain ⟨_, t, hrow, h⟩ := h
    have hrest := ih (importRow_kept hunique hrow).1 h
    have hreports : t.db.reports = s.db.reports := ((importRow_beside rulesets accounts row).of_eq hrow).reports
    by_cases hnone : row.ruleId = ruleId → importedTo rulesets row = none
    · obtain ⟨hapart, hunmarked, hcounts⟩ := importRow_elsewhere hunique hrow hnone
      refine ⟨fun hm => hrest.present (hapart.present hm), ?_, fun orgId hsteady => ?_⟩
      · rw [rowsOf_cons_neg hnone, hrest.active, isActive_of_apart hapart]
      · rw [rowsOf_cons_neg hnone] at hsteady ⊢
        have hsteady' : Steady settings t.db ruleId (rowsOf rulesets content ruleId) :=
          hsteady.imp_right fun ⟨htag, hrows⟩ => ⟨(hunmarked htag).1, hrows⟩
        rw [hrest.counts orgId hsteady', hcounts, isActive_of_apart hapart, groupsOf_congr hreports hapart.acks]
    · simp only [not_forall, exists_prop] at hnone
      obtain ⟨rfl, hsome⟩ := hnone
      obtain ⟨ruleset, hto⟩ := Option.ne_none_iff_exists'.mp hsome
      have hturns := importRow_turns hto hunique hrow
      refine ⟨fun _ => hrest.present hturns.present, ?_, fun orgId hsteady => ?_⟩
      · rw [rowsOf_cons_pos hto, hrest.active, hturns.active]
        rfl
      · rw [rowsOf_cons_pos hto] at hsteady ⊢
        obtain ⟨hsteady', hlater⟩ := hsteady.tail hrow orgId
        rw [hrest.counts orgId hsteady', hturns.active, hlater, hturns.announced.counts, announcing]
        by_cases hnow : (isActive s.db row.ruleId && saysInactive row && hasAction row) = true
        · rw [if_pos ⟨hnow, rfl⟩, if_pos hnow, List.flatMap_cons, List.append_assoc]
        · rw [if_neg fun hc => hnow hc.1, if_neg hnow, List.append_nil]

def SameSent (s s' : State) : Prop := s'.sent = s.sent

instance sameSent_refl : Std.Refl SameSent := ⟨fun _ => rfl⟩

instance sameSent_trans : IsTrans State SameSent := ⟨fun _ _ _ h h' => h'.trans h⟩

theorem importRows_sent (rulesets : Dict String RuleSet) (content : List ContentRow) :
    Keeps SameSent (each content (importRow env settings rulesets accounts)) :=
  Keeps.each fun row _ s => (importRow_beside rulesets accounts row s).sent

theorem importAll_raised {config : Config} {content : List ContentRow} {e : Exception} {s s' : State}
    (h : importAll env settings config content s = (.error e, s')) : s'.sent = s.sent := by
  have hgraded {p : Run Unit} (hp : Keeps Graded p) : Keeps SameSent p := fun t => (hp t).sent
  have htail : ∀ t, SameSent s t →
      Triple (updateRulesetWithContent env settings content) t (fun _ _ => True) fun _ u => SameSent s u := by
    intro t ht
    unfold updateRulesetWithContent
    rw [Triple.read_bind]
    split
    · refine Triple.seq ((Triple.of_keeps (importRows_sent _ content) t).mono (fun _ _ => id) fun _ u hu => hu.trans ht) ?_
      intro _ u _
      exact Triple.seq (Q := fun _ _ => True) (Triple.write trivial) fun _ _ _ => Triple.write trivial
    · exact Triple.pure trivial
  have hall : Triple (importAll env settings config content) s (fun _ _ => True) fun _ t => SameSent s t := by
    unfold importAll
    refine Triple.seq (Triple.of_keeps (hgraded (updateResolutionRisksWithContent_graded config)) s) fun _ a ha => ?_
    refine Triple.seq ((Triple.of_keeps (hgraded (updateImpactsWithContent_graded config)) a).mono (fun _ _ => id)
      fun _ b hb => hb.trans ha) fun _ b hb => ?_
    refine Triple.seq ((Triple.of_keeps (hgraded (updateTagsWithContent_graded config)) b).mono (fun _ _ => id)
      fun _ t ht => ht.trans (hb.trans ha)) fun _ t ht => htail t (ht.trans (hb.trans ha))
  exact hall.of_error h

/-- An import of a process: the tables it finds, and what it is given. -/
structure Import where
  tables : Database
  settings : Settings
  config : Config
  content : List ContentRow
  ruleIds : RuleIdsUnique tables
  reports : ReportsUnique tables

namespace Import

variable (i : Import) (ruleId orgId : String)

def run (env : Environment) (s : State) : Except Exception Unit × State :=
  importAll env i.settings i.config i.content { s with db := i.tables }

def rows : List ContentRow := rowsOf (rulesetStartswith i.tables) i.content ruleId

/-- The import makes the rule inactive that was active, and a row that does so has an action. -/
structure Deactivates (after : Database) : Prop where
  before : ∃ rule ∈ i.tables.rules, rule.ruleId = ruleId ∧ rule.active = true
  after : ∃ rule ∈ after.rules, rule.ruleId = ruleId ∧ rule.active = false
  action : ∃ row ∈ i.rows ruleId, activates i.settings row = false ∧ hasAction row = true

def Concerns (after : Database) : Prop := i.Deactivates ruleId after ∧ unacked i.tables ruleId orgId ≠ []

/-- A message lists the rules its organisation is to be told of, each once, with the systems affected. -/
structure Lists (after : Database) (notice : Notice) : Prop where
  once : (notice.ruleInfo.map Event.ruleId).Nodup
  rules : ∀ ruleId, ruleId ∈ notice.ruleInfo.map Event.ruleId ↔ i.Concerns ruleId orgId after
  systems : ∀ event ∈ notice.ruleInfo, event.affectedSystems = affectedSystems i.tables event.ruleId orgId

/-- One message for each organisation that is to be told of a rule, and none for the others. -/
def Exact (env : Environment) (s : State) : Prop :=
  ∃ new, (i.run env s).2.sent = s.sent ++ new ∧ ∀ orgId,
    ((∃ ruleId, i.Concerns ruleId orgId (i.run env s).2.db) →
      ∃ notice, (new.filter fun notice => notice.orgId = orgId) = [notice] ∧ i.Lists orgId (i.run env s).2.db notice) ∧
    ((∀ ruleId, ¬i.Concerns ruleId orgId (i.run env s).2.db) → (new.filter fun notice => notice.orgId = orgId) = [])

/-- By its rows, the rule goes from active to inactive with an action, and it is not deleted. -/
def turnsOff : Bool :=
  isActive i.tables ruleId && !activeAfter i.settings (isActive i.tables ruleId) (i.rows ruleId) &&
    (i.rows ruleId).any (fun row => !activates i.settings row && hasAction row) && ruleId ≠ ""

def announcing : List ContentRow := Api.announcing i.settings (isActive i.tables ruleId) (i.rows ruleId)

/-- A rule is announced once if it is turned off, and else never; if it is, an organisation sees it under one account. -/
structure Settled : Prop where
  once : (i.announcing ruleId).length = if i.turnsOff ruleId then 1 else 0
  account : i.announcing ruleId ≠ [] → ∀ orgId, ∀ report ∈ unacked i.tables ruleId orgId,
    ∀ other ∈ unacked i.tables ruleId orgId, report.account = other.account

/-- Nothing has been left from an earlier import, and what the rows announce is what happens: in an import that finishes,
every rule somebody is affected by is settled, in one that raises, no row turns such a rule off with an action. -/
structure Clear (env : Environment) (s : State) : Prop where
  forgotten : s.deactivatedRuleAccounts = []
  finished : (∃ s', i.run env s = (.ok (), s')) → ∀ ruleId, Steady i.settings i.tables ruleId (i.rows ruleId) ∧
    ((∃ orgId, unacked i.tables ruleId orgId ≠ []) → i.Settled ruleId)
  raised : (∃ e s', i.run env s = (.error e, s')) → ∀ ruleId, (∃ orgId, unacked i.tables ruleId orgId ≠ []) →
    ∀ row ∈ i.rows ruleId, ¬(activates i.settings row = false ∧ hasAction row = true)

variable {i ruleId orgId}

theorem turnsOff_iff : i.turnsOff ruleId = true ↔ isActive i.tables ruleId = true ∧
    activeAfter i.settings (isActive i.tables ruleId) (i.rows ruleId) = false ∧
    (∃ row ∈ i.rows ruleId, activates i.settings row = false ∧ hasAction row = true) ∧ ruleId ≠ "" := by
  simp [turnsOff, and_assoc]

theorem turnsOff_of_nil (h : i.rows ruleId = []) : i.turnsOff ruleId = false := by
  rw [Bool.eq_false_iff, ne_eq, turnsOff_iff, h]
  simp

theorem isActive_iff {db : Database} : isActive db ruleId = true ↔ ∃ rule ∈ db.rules, rule.ruleId = ruleId ∧ rule.active = true := by
  simp [isActive]

theorem isActive_of_graded {s t : State} (h : Graded s t) (ruleId : String) : isActive t.db ruleId = isActive s.db ruleId := by
  obtain ⟨impact, hrules⟩ := h.rules
  rw [isActive, hrules, List.any_map]
  rfl

theorem ids_of_graded {s t : State} (h : Graded s t) : t.db.rules.map Rule.ruleId = s.db.rules.map Rule.ruleId := by
  obtain ⟨impact, hrules⟩ := h.rules
  rw [hrules, List.map_map]
  rfl

theorem mem_rows {row : ContentRow} (h : row ∈ i.rows ruleId) : row ∈ i.content ∧ row.ruleId = ruleId := by
  obtain ⟨hmem, hrow⟩ := List.mem_filter.mp h
  simp only [Bool.and_eq_true, decide_eq_true_eq] at hrow
  exact ⟨hmem, hrow.1⟩

theorem mem_deleteExtraRules {content : List ContentRow} {db : Database} {rule : Rule} :
    rule ∈ (deleteExtraRules content db).rules ↔
      rule ∈ db.rules ∧ rule.ruleId ≠ "" ∧ ∃ row ∈ content, row.ruleId = rule.ruleId := by
  simp [deleteExtraRules]

theorem deactivates_iff {s t u : State} (hs : s.db = i.tables) (hgraded : Graded s t) (hunique : RuleIdsUnique u.db)
    (hthrough : Through i.settings (rulesetStartswith i.tables) i.content ruleId t u) :
    i.Deactivates ruleId (deleteExtraRules i.content u.db) ↔ i.turnsOff ruleId = true := by
  have hactive : isActive u.db ruleId = activeAfter i.settings (isActive i.tables ruleId) (i.rows ruleId) := by
    rw [hthrough.active, isActive_of_graded hgraded, hs, rows]
  rw [turnsOff_iff, ← hactive, isActive_iff]
  constructor
  · rintro ⟨hbefore, ⟨rule, hrule, rfl, hinactive⟩, haction⟩
    obtain ⟨hmem, hnamed, -⟩ := mem_deleteExtraRules.mp hrule
    exact ⟨hbefore, (isActive_of_mem hunique hmem).trans hinactive, haction, hnamed⟩
  · rintro ⟨hbefore, hinactive, haction, hnamed⟩
    have hpresent : ruleId ∈ u.db.rules.map Rule.ruleId := by
      obtain ⟨rule, hrule, hid, -⟩ := hbefore
      apply hthrough.present
      rw [ids_of_graded hgraded, hs]
      exact List.mem_map.mpr ⟨rule, hrule, hid⟩
    obtain ⟨rule, hrule, rfl⟩ := List.mem_map.mp hpresent
    obtain ⟨row, hrow, -⟩ := id haction
    refine ⟨hbefore, ⟨rule, mem_deleteExtraRules.mpr ⟨hrule, hnamed, row, mem_rows hrow⟩, rfl, ?_⟩, haction⟩
    rw [← isActive_of_mem hunique hrule]
    exact hinactive

variable (i) in
/-- What an import that finishes has sent, and which rules it has turned off. -/
structure Ran (s s' : State) (new : List Notice) : Prop where
  sent : s'.sent = s.sent ++ new
  kept : Kept new
  deactivates : ∀ ruleId, i.Deactivates ruleId s'.db ↔ i.turnsOff ruleId = true
  counts : ∀ ruleId orgId, Steady i.settings i.tables ruleId (i.rows ruleId) →
    counts new ruleId orgId = (i.announcing ruleId).flatMap fun _ => groupsOf i.tables ruleId orgId

theorem run_ok {env : Environment} {s s' : State} (hforgotten : s.deactivatedRuleAccounts = [])
    (h : i.run env s = (.ok (), s')) : ∃ new, i.Ran s s' new := by
  obtain ⟨t, hgraded, -, ⟨hnil, rfl⟩ | ⟨u, hrows, rfl⟩⟩ := importAll_ok h
  · have hnone : ∀ ruleId, i.rows ruleId = [] := by
      intro ruleId
      rw [rows, rowsOf, List.filter_eq_nil_iff]
      intro row _
      rw [importedTo_nil (hgraded.rulesets.symm.trans hnil)]
      simp
    refine ⟨[], ?_, ⟨List.nodup_nil, by simp⟩, fun ruleId => ?_, fun ruleId orgId _ => ?_⟩
    · rw [hgraded.sent, List.append_nil]
    · rw [turnsOff_of_nil (hnone ruleId)]
      refine iff_of_false ?_ (by simp)
      rintro ⟨-, -, row, hrow, -⟩
      simp [hnone ruleId] at hrow
    · rw [announcing, hnone ruleId]
      rfl
  · have hrulesets : rulesetStartswith t.db = rulesetStartswith i.tables := by
      rw [rulesetStartswith, hgraded.rulesets, rulesetStartswith]
    have hnotices : t.deactivatedRuleAccounts = [] := hgraded.deactivated.trans hforgotten
    have hids : RuleIdsUnique t.db := by
      rw [RuleIdsUnique, ids_of_graded hgraded]
      exact i.ruleIds
    rw [hrulesets] at hrows
    have hkept := importRows_kept hids (hnotices ▸ ⟨List.nodup_nil, by simp⟩) hrows
    refine ⟨u.deactivatedRuleAccounts, ?_, hkept.2, fun ruleId => ?_, fun ruleId orgId hsteady => ?_⟩
    · have hsent : u.sent = t.sent := (importRows_sent _ i.content).of_eq hrows
      exact congrArg (· ++ _) (hsent.trans hgraded.sent)
    · exact deactivates_iff rfl hgraded hkept.1 (importRows_through hids hrows ruleId)
    · have hsteady' : Steady i.settings t.db ruleId (i.rows ruleId) :=
        hsteady.imp_right fun h => ⟨fun hm => h.1 (hgraded.ruleTags _ hm), h.2⟩
      have hacks : (t.db.acks.filter fun ack => ack.rule = ruleId) = i.tables.acks.filter fun ack => ack.rule = ruleId := by
        rw [hgraded.acks]
      rw [(importRows_through hids hrows ruleId).counts orgId hsteady', hnotices, isActive_of_graded hgraded,
        groupsOf_congr hgraded.reports hacks]
      rfl

theorem counts_of_settled {s s' : State} {new : List Notice} (h : i.Ran s s' new)
    (hsteady : Steady i.settings i.tables ruleId (i.rows ruleId))
    (hsettled : (∃ orgId, unacked i.tables ruleId orgId ≠ []) → i.Settled ruleId) :
    (i.Concerns ruleId orgId s'.db → counts new ruleId orgId = [affectedSystems i.tables ruleId orgId]) ∧
      (¬i.Concerns ruleId orgId s'.db → counts new ruleId orgId = []) := by
  rw [h.counts ruleId orgId hsteady, Concerns, h.deactivates]
  constructor
  · rintro ⟨hoff, hunacked⟩
    have hrule := hsettled ⟨orgId, hunacked⟩
    have honce := hrule.once
    rw [if_pos hoff, List.length_eq_one_iff] at honce
    obtain ⟨row, hrow⟩ := honce
    have haccount := hrule.account (by simp [hrow]) orgId
    rw [hrow, List.flatMap_singleton, groupsOf_of_account haccount, if_neg (by simp [hunacked]),
      affectedSystems_eq i.reports]
  · intro hnot
    by_cases hunacked : unacked i.tables ruleId orgId = []
    · rw [groupsOf_of_nil hunacked]
      simp
    · have hoff : ¬i.turnsOff ruleId = true := fun hoff => hnot ⟨hoff, hunacked⟩
      have honce := (hsettled ⟨orgId, hunacked⟩).once
      rw [if_neg hoff, List.length_eq_zero_iff] at honce
      rw [honce]
      rfl

theorem lists_of_counts {notices : List Notice} {after : Database} {notice : Notice}
    (hevents : eventsFor notices orgId = notice.ruleInfo)
    (h : ∀ ruleId, (i.Concerns ruleId orgId after → counts notices ruleId orgId = [affectedSystems i.tables ruleId orgId]) ∧
      (¬i.Concerns ruleId orgId after → counts notices ruleId orgId = [])) : i.Lists orgId after notice := by
  simp only [counts, hevents] at h
  have hconcerned : ∀ event ∈ notice.ruleInfo, i.Concerns event.ruleId orgId after := by
    intro event hevent
    by_contra hnot
    have hnil := List.map_eq_nil_iff.mp ((h event.ruleId).2 hnot)
    exact List.filter_eq_nil_iff.mp hnil event hevent (by simp)
  constructor
  · rw [List.nodup_iff_count_le_one]
    intro ruleId
    have hlength : (notice.ruleInfo.map Event.ruleId).count ruleId =
        ((notice.ruleInfo.filter fun event => event.ruleId = ruleId).map Event.affectedSystems).length := by
      rw [List.length_map, List.count, List.countP_map, List.countP_eq_length_filter]
      rfl
    rw [hlength]
    by_cases hc : i.Concerns ruleId orgId after
    · rw [(h ruleId).1 hc, List.length_singleton]
    · rw [(h ruleId).2 hc]
      exact Nat.zero_le 1
  · intro ruleId
    constructor
    · intro hm
      obtain ⟨event, hevent, rfl⟩ := List.mem_map.mp hm
      exact hconcerned event hevent
    · intro hc
      have hone := (h ruleId).1 hc
      obtain ⟨event, hevent, -⟩ := List.map_eq_singleton_iff.mp hone
      have hmem : event ∈ notice.ruleInfo.filter fun event => event.ruleId = ruleId := by simp [hevent]
      obtain ⟨hmem, hid⟩ := List.mem_filter.mp hmem
      exact List.mem_map.mpr ⟨event, hmem, by simpa using hid⟩
  · intro event hevent
    have hone := (h event.ruleId).1 (hconcerned event hevent)
    have hmem : event.affectedSystems ∈
        (notice.ruleInfo.filter fun other => other.ruleId = event.ruleId).map Event.affectedSystems :=
      List.mem_map_of_mem (List.mem_filter.mpr ⟨hevent, by simp⟩)
    rw [hone] at hmem
    simpa using hmem

theorem exact_of_clear {env : Environment} {s : State} (h : i.Clear env s) : i.Exact env s := by
  rcases hrun : i.run env s with ⟨e | _, s'⟩
  · have hquiet := h.raised ⟨e, s', hrun⟩
    have hsent : s'.sent = s.sent := importAll_raised (s := { s with db := i.tables }) hrun
    rw [Exact, hrun]
    refine ⟨[], by rw [hsent, List.append_nil], fun orgId => ⟨?_, fun _ => rfl⟩⟩
    rintro ⟨ruleId, ⟨-, -, row, hrow, haction⟩, hunacked⟩
    exact absurd haction (hquiet ruleId ⟨orgId, hunacked⟩ row hrow)
  · obtain ⟨new, hran⟩ := run_ok h.forgotten hrun
    have hrules := h.finished ⟨s', hrun⟩
    have hcounts : ∀ orgId ruleId, _ := fun orgId ruleId =>
      @counts_of_settled i ruleId orgId s s' new hran (hrules ruleId).1 (hrules ruleId).2
    rw [Exact, hrun]
    refine ⟨new, hran.sent, fun orgId => ?_⟩
    obtain ⟨hnone, hevents⟩ | ⟨notice, hone, hevents, htold⟩ := hran.kept.entry orgId
    · refine ⟨?_, fun _ => hnone⟩
      rintro ⟨ruleId, hconcerns⟩
      have hcount := (hcounts orgId ruleId).1 hconcerns
      rw [counts, hevents] at hcount
      cases hcount
    · have hlists := lists_of_counts hevents (hcounts orgId)
      refine ⟨fun _ => ⟨notice, hone, hlists⟩, fun hnobody => ?_⟩
      obtain ⟨event, hevent⟩ := List.exists_mem_of_ne_nil _ htold
      exact absurd ((hlists.rules event.ruleId).mp (List.mem_map_of_mem hevent)) (hnobody event.ruleId)

/-- Each import of a run is as `P` says, in the process as the imports before leave it. -/
def Throughout (env : Environment) (P : Import → State → Prop) : State → List Import → Prop
  | _, [] => True
  | s, i :: rest => P i s ∧ Throughout env P (i.run env s).2 rest

/-- Deactivation notices are exact in every run whose imports are all clear. -/
theorem notices_exact {env : Environment} {s : State} {imports : List Import}
    (h : Throughout env (fun i => i.Clear env) s imports) : Throughout env (fun i => i.Exact env) s imports := by
  induction imports generalizing s with
  | nil => trivial
  | cons i rest ih => exact ⟨exact_of_clear h.1, ih h.2⟩

end Import

open Management

def retiredRow : ContentRow where
  ruleId := "test|Hidden"
  tags := []
  publishDate := some (.json .null)
  items := [("description", .str "Hidden rule"), ("likelihood", .int 1), ("node_id", .null), ("generic", .str "text"),
    ("reason", .str ""), ("more_info", .str ""), ("python_module", .str "test_rules"), ("status", .str "inactive"),
    ("notif_action", .str "retire"), ("resolution_risk", .str ""), ("category", .str "Stability"),
    ("impact", .str "Best Practice"), ("resolution", .str "")]

def activeRule : Rule where
  ruleset := "https://rules"
  ruleId := "test|Hidden"
  description := "Hidden rule"
  totalRisk := 1
  active := true
  rebootRequired := false
  publishDate := none
  category := "Stability"
  impact := some "Best Practice"
  likelihood := 1
  pathway := none
  nodeId := ""
  summary := ""
  generic := "text"
  reason := ""
  moreInfo := ""

def reportedTables : Database := { fixtures with
  impacts := [⟨"Best Practice", 1⟩]
  rules := [activeRule]
  reports := [⟨"test|Hidden", some "1234567", "9876543", 1⟩] }

def noConfig : Config := ⟨Dict.ofEntries [], none, none⟩

def retirement : Import where
  tables := reportedTables
  settings := ⟨false, 0⟩
  config := noConfig
  content := [retiredRow]
  ruleIds := List.nodup_singleton _
  reports := List.nodup_singleton _

def nextImport : Import where
  tables := fixtures
  settings := ⟨false, 0⟩
  config := noConfig
  content := []
  ruleIds := List.nodup_nil
  reports := List.nodup_nil

/-- What was told once is told again by the next import of the process. -/
theorem retirement_told_again :
    ¬ ∀ (env : Environment) (db : Database) (imports : List Import),
      Import.Throughout env (fun i => i.Exact env) { db } imports := by
  intro h
  obtain ⟨-, ⟨new, hsent, hnew⟩, -⟩ := h plainEnvironment reportedTables [retirement, nextImport]
  have hfirst : (retirement.run plainEnvironment { db := reportedTables }).2.sent.length = 1 := by decide +kernel
  have hsecond : (nextImport.run plainEnvironment
      (retirement.run plainEnvironment { db := reportedTables }).2).2.sent.length = 2 := by decide +kernel
  have hone : new.length = 1 := by
    rw [hsent, List.length_append] at hsecond
    omega
  obtain ⟨notice, rfl⟩ := List.length_eq_one_iff.mp hone
  have hnil := (hnew notice.orgId).2 (by
    rintro ruleId ⟨⟨-, -, row, hrow, -⟩, -⟩
    cases hrow)
  simp at hnil

theorem clear_of_no_rows {i : Import} {s : State} (hforgotten : s.deactivatedRuleAccounts = [])
    (hrows : ∀ ruleId, i.rows ruleId = []) : i.Clear env s where
  forgotten := hforgotten
  finished _ ruleId := by
    have hnone : i.announcing ruleId = [] := by rw [Import.announcing, hrows, announcing]
    refine ⟨Or.inl ?_, fun _ => ⟨?_, fun hsome => absurd hnone hsome⟩⟩
    · rw [hrows]
      rintro first rest hcons
      cases hcons
    · rw [hnone, Import.turnsOff_of_nil (hrows ruleId)]
      rfl
  raised _ ruleId _ row hrow := by
    rw [hrows] at hrow
    cases hrow

theorem retirement_report {ruleId orgId : String} {report : CurrentReport}
    (h : report ∈ unacked retirement.tables ruleId orgId) :
    report = ⟨"test|Hidden", some "1234567", "9876543", 1⟩ ∧ ruleId = "test|Hidden" := by
  simp only [unacked, List.mem_filter, Bool.and_eq_true, decide_eq_true_eq] at h
  obtain ⟨hmem, ⟨hid, -⟩, -⟩ := h
  obtain rfl := List.mem_singleton.mp hmem
  exact ⟨rfl, hid.symm⟩

theorem retirement_settled : retirement.Settled "test|Hidden" where
  once := by decide +kernel
  account _ orgId report hreport other hother := by rw [(retirement_report hreport).1, (retirement_report hother).1]

theorem notices_exact_retirement :
    Import.Throughout plainEnvironment (fun i => i.Exact plainEnvironment) { db := fixtures } [nextImport, retirement] := by
  refine Import.notices_exact ⟨clear_of_no_rows rfl fun ruleId => rfl, ?_, trivial⟩
  have hfinishes : isOk (retirement.run plainEnvironment (nextImport.run plainEnvironment { db := fixtures }).2).1 = true := by
    decide +kernel
  refine ⟨rfl, fun _ ruleId => ⟨Or.inl fun first rest hrows => ?_, ?_⟩, ?_⟩
  · have hlength : (retirement.rows ruleId).length ≤ 1 := List.length_filter_le _ _
    rw [hrows, List.length_cons] at hlength
    rw [List.length_eq_zero_iff.mp (by omega : rest.length = 0)]
    rfl
  · rintro ⟨orgId, hunacked⟩
    obtain ⟨report, hreport⟩ := List.exists_mem_of_ne_nil _ hunacked
    rw [(retirement_report hreport).2]
    exact retirement_settled
  · rintro ⟨e, s', hraised⟩
    rw [hraised] at hfinishes
    cases hfinishes

end Advisor.Importer.Api
