import Advisor.Importer.Api

/-! What a row of the content can touch as the API importer works through it. -/

namespace Advisor.Importer.Api

open Python Procedure Django Relational

variable {env : Environment} {settings : Settings}

/-- Nothing but resolutions, playbooks, tags and the acks of one rule has changed. -/
structure Aside (ruleId : String) (s s' : State) : Prop where
  categories : s'.db.categories = s.db.categories
  pathways : s'.db.pathways = s.db.pathways
  rulesets : s'.db.rulesets = s.db.rulesets
  hosts : s'.db.hosts = s.db.hosts
  impacts : s'.db.impacts = s.db.impacts
  reports : s'.db.reports = s.db.reports
  rules : s'.db.rules = s.db.rules
  acks : (s'.db.acks.filter fun ack => ack.rule ≠ ruleId) = s.db.acks.filter fun ack => ack.rule ≠ ruleId
  deactivated : s'.deactivatedRuleAccounts = s.deactivatedRuleAccounts
  sent : s'.sent = s.sent

instance aside_refl (ruleId : String) : Std.Refl (Aside ruleId) :=
  ⟨fun _ => ⟨rfl, rfl, rfl, rfl, rfl, rfl, rfl, rfl, rfl, rfl⟩⟩

instance aside_trans (ruleId : String) : IsTrans State (Aside ruleId) :=
  ⟨fun _ _ _ h h' => ⟨h'.categories.trans h.categories, h'.pathways.trans h.pathways, h'.rulesets.trans h.rulesets,
    h'.hosts.trans h.hosts, h'.impacts.trans h.impacts, h'.reports.trans h.reports, h'.rules.trans h.rules,
    h'.acks.trans h.acks, h'.deactivated.trans h.deactivated, h'.sent.trans h.sent⟩⟩

variable {ruleId : String}

section Permits

variable {R : State → State → Prop}

def PermitsResolutions (R : State → State → Prop) : Prop :=
  ∀ (s : State) (resolutions : List Resolution) (playbooks : List Playbook),
    R s { s with db := { s.db with resolutions, playbooks } }

theorem PermitsResolutions.modify (hR : PermitsResolutions R) {f : Database → Database}
    (h : ∀ db, ∃ resolutions playbooks, f db = { db with resolutions, playbooks }) : Keeps R (modify f) := by
  refine Keeps.write fun s => ?_
  obtain ⟨_, _, hf⟩ := h s.db
  rw [hf]
  exact hR s _ _

def PermitsPlaybooks (R : State → State → Prop) : Prop :=
  ∀ (s : State) (playbooks : List Playbook), R s { s with db := { s.db with playbooks } }

theorem PermitsResolutions.playbooks (hR : PermitsResolutions R) : PermitsPlaybooks R :=
  fun s playbooks => hR s s.db.resolutions playbooks

theorem PermitsPlaybooks.modify (hR : PermitsPlaybooks R) {f : Database → Database}
    (h : ∀ db, ∃ playbooks, f db = { db with playbooks }) : Keeps R (modify f) := by
  refine Keeps.write fun s => ?_
  obtain ⟨_, hf⟩ := h s.db
  rw [hf]
  exact hR s _

/-- The relation lets resolutions, playbooks and tags be written. -/
def Permits (R : State → State → Prop) : Prop :=
  ∀ (s : State) (resolutions : List Resolution) (playbooks : List Playbook) (tags : List String)
    (ruleTags : List (String × String)), R s { s with db := { s.db with resolutions, playbooks, tags, ruleTags } }

theorem Permits.resolutions (hR : Permits R) : PermitsResolutions R :=
  fun s resolutions playbooks => hR s resolutions playbooks s.db.tags s.db.ruleTags

def PermitsTags (R : State → State → Prop) : Prop :=
  ∀ (s : State) (tags : List String) (ruleTags : List (String × String)), R s { s with db := { s.db with tags, ruleTags } }

theorem Permits.tags (hR : Permits R) : PermitsTags R :=
  fun s tags ruleTags => hR s s.db.resolutions s.db.playbooks tags ruleTags

theorem PermitsTags.modify (hR : PermitsTags R) {f : Database → Database}
    (h : ∀ db, ∃ tags ruleTags, f db = { db with tags, ruleTags }) : Keeps R (modify f) := by
  refine Keeps.write fun s => ?_
  obtain ⟨_, _, hf⟩ := h s.db
  rw [hf]
  exact hR s _ _

variable [Std.Refl R] [IsTrans State R]

theorem importPlaybook_keeps (hR : PermitsPlaybooks R) (resolution : String × SystemType) (types : List String) (item : Json) :
    Keeps R (importPlaybook env resolution types item) := by
  unfold importPlaybook
  refine Keeps.bind (Keeps.lift _) fun present => Keeps.ite (fun _ => ?_) fun _ => Keeps.pure _
  refine Keeps.bind (Keeps.lift _) fun type => Keeps.bind (Keeps.lift _) fun _ => ?_
  cases types.find? fun known => type.eq (.str known) with
  | some known =>
    refine Keeps.bind (Keeps.read _) fun rows => Keeps.bind (Keeps.lift _) fun row => Keeps.bind (Keeps.lift _) fun version => ?_
    refine Keeps.ite (fun _ => Keeps.bind (Keeps.lift _) fun playbook => ?_) fun _ => Keeps.pure _
    exact hR.modify fun db => ⟨_, rfl⟩
  | none =>
    refine Keeps.bind (Keeps.lift _) fun type => Keeps.bind (Keeps.lift _) fun playbook => ?_
    exact hR.modify fun db => ⟨_, rfl⟩

theorem updatePlaybookModels_keeps (hR : PermitsPlaybooks R) (resolution : String × SystemType) (content : Json) :
    Keeps R (updatePlaybookModels env resolution content) := by
  unfold updatePlaybookModels
  refine Keeps.bind (Keeps.read _) fun stored => Keeps.ite (fun _ => ?_) fun _ => Keeps.pure _
  refine Keeps.bind (Keeps.lift _) fun items => ?_
  refine Keeps.bind (Keeps.each fun item _ => importPlaybook_keeps hR resolution _ item) fun _ => ?_
  refine Keeps.bind (Keeps.lift _) fun types => Keeps.each fun type _ => ?_
  refine Keeps.bind (Keeps.read _) fun rows => Keeps.bind (Keeps.lift _) fun row => ?_
  exact hR.modify fun db => ⟨_, rfl⟩

theorem importResolution_keeps (hR : PermitsResolutions R) (row : ContentRow) : Keeps R (importResolution env row) := by
  unfold importResolution
  refine Keeps.bind (Keeps.lift _) fun text => Keeps.bind (Keeps.lift _) fun risk => ?_
  refine Keeps.ite (fun _ => ?_) fun _ => Keeps.pure _
  refine Keeps.bind (Keeps.read _) fun s => Keeps.bind (Keeps.lift _) fun systemType => Keeps.bind (Keeps.lift _) fun risk => ?_
  refine Keeps.bind (Keeps.lift _) fun _ => Keeps.bind (Keeps.lift _) fun text => ?_
  refine Keeps.bind (hR.modify fun db => ⟨_, _, rfl⟩) fun _ => ?_
  exact Keeps.bind (Keeps.lift _) fun playbooks => updatePlaybookModels_keeps hR.playbooks _ _

variable {accounts : List (Option String × String)}

theorem addTag_keeps (hR : PermitsTags R) (hadd : Keeps R (addAutoacksForRule accounts ruleId)) (tag : String) :
    Keeps R (addTag env accounts ruleId tag) := by
  unfold addTag getOrCreateTag
  refine Keeps.bind (Keeps.bind (Keeps.read _) fun db => ?_) fun _ => ?_
  · refine Keeps.ite (fun _ => Keeps.bind (Keeps.lift _) fun name => ?_) fun _ => Keeps.pure _
    exact hR.modify fun db => ⟨_, _, rfl⟩
  · refine Keeps.bind (hR.modify fun db => ⟨_, _, rfl⟩) fun _ => ?_
    exact Keeps.ite (fun _ => hadd) fun _ => Keeps.pure _

theorem addTags_keeps (hR : PermitsTags R) (hadd : Keeps R (addAutoacksForRule accounts ruleId))
    (tags onlyInModel : List String) : Keeps R (addTags env accounts ruleId tags onlyInModel) := by
  induction tags generalizing onlyInModel with
  | nil => exact Keeps.pure _
  | cons tag tags ih =>
    rw [addTags]
    refine Keeps.ite (fun _ => ih _) fun _ => ?_
    exact Keeps.bind (addTag_keeps hR hadd tag) fun _ => ih _

theorem importTags_keeps (hR : PermitsTags R) {row : ContentRow} (hadd : Keeps R (addAutoacksForRule accounts row.ruleId))
    (hremove : Keeps R (removeAutoacksForRule row.ruleId)) : Keeps R (importTags env accounts row) := by
  unfold importTags
  refine Keeps.bind (Keeps.read _) fun stored => Keeps.bind (addTags_keeps hR hadd _ _) fun gone => ?_
  refine Keeps.each fun tag _ => Keeps.bind (hR.modify fun db => ⟨_, _, rfl⟩) fun _ => ?_
  exact Keeps.ite (fun _ => hremove) fun _ => Keeps.pure _

end Permits

theorem aside_permits (ruleId : String) : Permits (Aside ruleId) :=
  fun _ _ _ _ _ => ⟨rfl, rfl, rfl, rfl, rfl, rfl, rfl, rfl, rfl, rfl⟩

theorem importResolution_aside (row : ContentRow) : Keeps (Aside ruleId) (importResolution env row) :=
  importResolution_keeps (aside_permits ruleId).resolutions row

theorem modify_acks_aside {f : Database → Database}
    (h : ∀ db, ∃ acks, f db = { db with acks } ∧
      (acks.filter fun ack => ack.rule ≠ ruleId) = db.acks.filter fun ack => ack.rule ≠ ruleId) :
    Keeps (Aside ruleId) (modify f) := by
  refine Keeps.write fun s => ?_
  obtain ⟨acks, hf, hacks⟩ := h s.db
  exact ⟨by rw [hf], by rw [hf], by rw [hf], by rw [hf], by rw [hf], by rw [hf], by rw [hf], by rw [hf]; exact hacks,
    rfl, rfl⟩

theorem addAutoacksForRule_aside (accounts : List (Option String × String)) :
    Keeps (Aside ruleId) (addAutoacksForRule accounts ruleId) := by
  intro s
  rw [addAutoacksForRule, read_bind]
  generalize hnew : (accounts.filter fun e => !s.db.acks.any fun ack => ack.rule = ruleId && ack.orgId = e.2) = new
  cases hunique : checkUnique (fun ack : Ack => (ack.rule, ack.orgId))
      (s.db.acks ++ new.map fun e => ⟨ruleId, e.1, e.2, autoackJustification, autoackCreatedBy⟩) with
  | error e => exact (aside_refl ruleId).refl s
  | ok acks =>
    obtain ⟨-, rfl⟩ := checkUnique_eq_ok.mp hunique
    refine ⟨rfl, rfl, rfl, rfl, rfl, rfl, rfl, ?_, rfl, rfl⟩
    have hnil : ((new.map fun e => (⟨ruleId, e.1, e.2, autoackJustification, autoackCreatedBy⟩ : Ack)).filter
        fun ack => ack.rule ≠ ruleId) = [] := by
      rw [List.filter_eq_nil_iff]
      intro ack hack
      obtain ⟨e, -, rfl⟩ := List.mem_map.mp hack
      simp
    change (s.db.acks ++ _).filter _ = _
    rw [List.filter_append, hnil, List.append_nil]

theorem removeAutoacksForRule_aside : Keeps (Aside ruleId) (removeAutoacksForRule ruleId) := by
  refine modify_acks_aside fun db => ⟨_, rfl, ?_⟩
  rw [List.filter_filter]
  refine List.filter_congr fun ack _ => ?_
  by_cases h : ack.rule = ruleId <;> simp [h]

theorem importTags_aside (accounts : List (Option String × String)) (row : ContentRow) :
    Keeps (Aside row.ruleId) (importTags env accounts row) :=
  importTags_keeps (aside_permits row.ruleId).tags (addAutoacksForRule_aside accounts) removeAutoacksForRule_aside

structure SavedAs (env : Environment) (a : Attributes) (rule : Rule) : Prop where
  ruleset : rule.ruleset = a.ruleset
  ruleId : rule.ruleId = a.ruleId
  active : rule.active = a.active
  publishDate : rule.publishDate = a.publishDate
  pathway : rule.pathway = a.pathway
  rebootRequired : rebootColumn a.rebootRequired = .ok rule.rebootRequired
  likelihood : required (integerOf env.toLibrary) a.likelihood = .ok (rule.likelihood : Int)
  summary : required (textOf env.toLibrary) a.summary = .ok rule.summary
  risk : ∃ impact, a.impact = some impact ∧ rule.impact = some impact.name ∧
    average a.likelihood (.int impact.level) = .ok (rule.totalRisk : Int)

theorem save_ok {a : Attributes} {rule : Rule} (h : save env a = .ok rule) : SavedAs env a rule := by
  simp only [save, bind_eq_ok, Except.ok.injEq] at h
  obtain ⟨impact, himpact, total, htotal, category, hcategory, i, hi, ruleId, hruleId, text, htext, totalRisk,
    htotalRisk, reboot, hreboot, likelihood, hlikelihood, node, hnode, summary, hsummary, generic, hgeneric, reason,
    hreason, more, hmore, rfl⟩ := h
  obtain ⟨rfl, -⟩ := smallInteger_eq_ok.mp hlikelihood
  obtain ⟨rfl, -⟩ := smallInteger_eq_ok.mp htotalRisk
  exact {
    ruleset := rfl
    ruleId := charOf_str hruleId
    active := rfl
    publishDate := rfl
    pathway := rfl
    rebootRequired := hreboot
    likelihood := hi
    summary := hsummary
    risk := ⟨impact, present_eq_ok.mp himpact, rfl, htotal⟩ }

/-- What a row decides of its rule, whether the rule is new or not. -/
structure FieldsOf (env : Environment) (settings : Settings) (db : Database) (row : ContentRow) (rule : Rule) : Prop where
  ruleId : rule.ruleId = row.ruleId
  active : activeOf settings row = .ok rule.active
  likelihood : (itemOr row "likelihood" (.int 0) >>= required (integerOf env.toLibrary)) = .ok (rule.likelihood : Int)
  risk : ∃ likelihood impact, itemOr row "likelihood" (.int 0) = .ok likelihood ∧ impactOf env db row = .ok (some impact) ∧
    rule.impact = some impact.name ∧ average likelihood (.int impact.level) = .ok (rule.totalRisk : Int)

structure NewFieldsOf (env : Environment) (settings : Settings) (db : Database) (row : ContentRow) (rule : Rule) : Prop
    extends FieldsOf env settings db row rule where
  publishDate : (row.publishDateItem >>= updatePublishDate env none) = .ok rule.publishDate
  rebootRequired : rebootColumn ((row.get? "reboot_required").getD (.bool false)) = .ok rule.rebootRequired
  summary : ∃ generic, itemOr row "generic" (.str "") = .ok generic ∧
    required (textOf env.toLibrary) ((row.get? "summary").getD generic) = .ok rule.summary

theorem newRule_ok {db : Database} {ruleset : String} {row : ContentRow} {rule : Rule}
    (h : newRule env settings db ruleset row = .ok rule) : NewFieldsOf env settings db row rule := by
  simp only [newRule, bind_eq_ok] at h
  obtain ⟨active, hactive, _, -, _, -, impact, himpact, generic, hgeneric, _, -, _, -, _, -, likelihood, hlikelihood,
    dateItem, hdateItem, date, hdate, hsave⟩ := h
  have hsaved := save_ok hsave
  obtain ⟨level, hlevel, hname, htotal⟩ := hsaved.risk
  exact {
    ruleId := hsaved.ruleId
    active := by rw [hsaved.active]; exact hactive
    likelihood := bind_eq_ok.mpr ⟨likelihood, hlikelihood, hsaved.likelihood⟩
    risk := ⟨likelihood, level, hlikelihood, by rw [← hlevel]; exact himpact, hname, htotal⟩
    publishDate := by rw [hsaved.publishDate]; exact bind_eq_ok.mpr ⟨dateItem, hdateItem, hdate⟩
    rebootRequired := hsaved.rebootRequired
    summary := ⟨generic, hgeneric, hsaved.summary⟩ }

theorem updatedRule_ok {db : Database} {row : ContentRow} {stored rule : Rule} {date : Option Instant}
    (h : updatedRule env settings db row stored date = .ok rule) : FieldsOf env settings db row rule := by
  simp only [updatedRule, bind_eq_ok] at h
  obtain ⟨_, -, _, -, _, -, _, -, likelihood, hlikelihood, active, hactive, _, -, _, -, impact, himpact, hsave⟩ := h
  have hsaved := save_ok hsave
  obtain ⟨level, hlevel, hname, htotal⟩ := hsaved.risk
  exact {
    ruleId := hsaved.ruleId
    active := by rw [hsaved.active]; exact hactive
    likelihood := bind_eq_ok.mpr ⟨likelihood, hlikelihood, hsaved.likelihood⟩
    risk := ⟨likelihood, level, hlikelihood, by rw [← hlevel]; exact himpact, hname, htotal⟩ }

/-- A rule that is there is notified about before its row replaces it, any other is added. -/
theorem importRule_cases {ruleset : String} {row : ContentRow} {s s' : State}
    (h : importRule env settings ruleset row s = (.ok (), s')) :
    ∃ rule, FieldsOf env settings s.db row rule ∧
      ((∃ stored ∈ s.db.rules, stored.ruleId = row.ruleId ∧ ∃ date date' t,
          notifAction settings row stored date s = (.ok date', t) ∧
            s' = { t with db := { t.db with rules := replaceRule rule t.db.rules } }) ∨
        ((s.db.rules ++ [rule]).map Rule.ruleId).Nodup ∧ s' = { s with db := { s.db with rules := s.db.rules ++ [rule] } }) := by
  rw [importRule, read_bind] at h
  cases hfind : s.db.rules.find? fun rule => rule.ruleset = ruleset && rule.ruleId = row.ruleId with
  | some stored =>
    rw [hfind] at h
    simp only [run_bind_eq_ok, run_lift_eq_ok] at h
    obtain ⟨date, _, ⟨-, rfl⟩, date', t, hnotif, rule, _, ⟨hrule, rfl⟩, h⟩ := h
    rw [modify, write, Prod.mk.injEq] at h
    have hid : stored.ruleId = row.ruleId := by
      have hfound := List.find?_some hfind
      simp only [Bool.and_eq_true, decide_eq_true_eq] at hfound
      exact hfound.2
    exact ⟨rule, updatedRule_ok hrule,
      Or.inl ⟨stored, List.mem_of_find?_eq_some hfind, hid, date, date', _, hnotif, h.2.symm⟩⟩
  | none =>
    rw [hfind] at h
    simp only [run_bind_eq_ok, run_lift_eq_ok] at h
    obtain ⟨rule, _, ⟨hrule, rfl⟩, rules, _, ⟨hunique, rfl⟩, h⟩ := h
    obtain ⟨hnodup, rfl⟩ := checkUnique_eq_ok.mp hunique
    rw [modify, write, Prod.mk.injEq] at h
    exact ⟨rule, (newRule_ok hrule).toFieldsOf, Or.inr ⟨hnodup, h.2.symm⟩⟩

/-- Nothing that is about another rule has changed. -/
structure Beside (ruleId : String) (s s' : State) : Prop where
  categories : s'.db.categories = s.db.categories
  pathways : s'.db.pathways = s.db.pathways
  rulesets : s'.db.rulesets = s.db.rulesets
  hosts : s'.db.hosts = s.db.hosts
  impacts : s'.db.impacts = s.db.impacts
  reports : s'.db.reports = s.db.reports
  rules : (s'.db.rules.filter fun rule => rule.ruleId ≠ ruleId) = s.db.rules.filter fun rule => rule.ruleId ≠ ruleId
  acks : (s'.db.acks.filter fun ack => ack.rule ≠ ruleId) = s.db.acks.filter fun ack => ack.rule ≠ ruleId
  sent : s'.sent = s.sent

instance beside_refl (ruleId : String) : Std.Refl (Beside ruleId) :=
  ⟨fun _ => ⟨rfl, rfl, rfl, rfl, rfl, rfl, rfl, rfl, rfl⟩⟩

instance beside_trans (ruleId : String) : IsTrans State (Beside ruleId) :=
  ⟨fun _ _ _ h h' => ⟨h'.categories.trans h.categories, h'.pathways.trans h.pathways, h'.rulesets.trans h.rulesets,
    h'.hosts.trans h.hosts, h'.impacts.trans h.impacts, h'.reports.trans h.reports, h'.rules.trans h.rules,
    h'.acks.trans h.acks, h'.sent.trans h.sent⟩⟩

theorem Aside.beside {s s' : State} (h : Aside ruleId s s') : Beside ruleId s s' where
  categories := h.categories
  pathways := h.pathways
  rulesets := h.rulesets
  hosts := h.hosts
  impacts := h.impacts
  reports := h.reports
  rules := by rw [h.rules]
  acks := h.acks
  sent := h.sent

theorem beside_rules {s : State} {rules : List Rule}
    (h : (rules.filter fun rule => rule.ruleId ≠ ruleId) = s.db.rules.filter fun rule => rule.ruleId ≠ ruleId) :
    Beside ruleId s { s with db := { s.db with rules } } :=
  ⟨rfl, rfl, rfl, rfl, rfl, rfl, h, rfl, rfl⟩

theorem filter_replace {rules : List Rule} {f : Rule → Rule} (hf : ∀ rule ∈ rules, rule.ruleId = ruleId → (f rule).ruleId = ruleId)
    (hid : ∀ rule ∈ rules, rule.ruleId ≠ ruleId → f rule = rule) :
    ((rules.map f).filter fun rule => rule.ruleId ≠ ruleId) = rules.filter fun rule => rule.ruleId ≠ ruleId := by
  induction rules with
  | nil => rfl
  | cons rule rules ih =>
    have hrest := ih (fun r hr => hf r (by simp [hr])) fun r hr => hid r (by simp [hr])
    by_cases h : rule.ruleId = ruleId
    · have hfr := hf rule (by simp) h
      rw [List.map_cons, List.filter_cons, if_neg (by simp [hfr]), List.filter_cons, if_neg (by simp [h]), hrest]
    · rw [List.map_cons, hid rule (by simp) h, List.filter_cons, if_pos (by simp [h]), List.filter_cons,
        if_pos (by simp [h]), hrest]

theorem setPathway_beside (row : ContentRow) : Keeps (Beside row.ruleId) (setPathway env row) := by
  unfold setPathway
  refine Keeps.bind (Keeps.read _) fun db => Keeps.bind (Keeps.lift _) fun pathway => Keeps.write fun s => ?_
  apply beside_rules
  apply filter_replace
  · intro rule _ h
    rw [if_pos h]
    exact h
  · intro rule _ h
    rw [if_neg h]

theorem notifAction_keeps {R : State → State → Prop} [Std.Refl R] [IsTrans State R]
    (hR : ∀ (s : State) (notices : List Notice), R s { s with deactivatedRuleAccounts := notices }) (row : ContentRow)
    (stored : Rule) (date : Option Instant) : Keeps R (notifAction settings row stored date) := by
  unfold notifAction
  refine Keeps.ite (fun _ => ?_) fun _ => Keeps.pure _
  cases (row.get? "notif_action").getD .null with
  | str text =>
    refine Keeps.bind (Keeps.lift _) fun status => Keeps.ite (fun _ => ?_) fun _ => ?_
    · refine Keeps.ite (fun _ => Keeps.bind ?_ fun _ => Keeps.pure _) fun _ => Keeps.pure _
      exact Keeps.write fun s => hR s _
    · exact Keeps.ite (fun _ => Keeps.pure _) fun _ => Keeps.pure _
  | _ => exact Keeps.raise _

theorem notifAction_beside (row : ContentRow) (stored : Rule) (date : Option Instant) :
    Keeps (Beside ruleId) (notifAction settings row stored date) :=
  notifAction_keeps (fun _ _ => ⟨rfl, rfl, rfl, rfl, rfl, rfl, rfl, rfl, rfl⟩) row stored date

theorem importRule_beside (ruleset : String) (row : ContentRow) :
    Keeps (Beside row.ruleId) (importRule env settings ruleset row) := by
  intro s
  rw [importRule, read_bind]
  cases s.db.rules.find? fun rule => rule.ruleset = ruleset && rule.ruleId = row.ruleId with
  | some stored =>
    have h : Keeps (Beside row.ruleId) (do
        let date ← lift (row.publishDateItem >>= updatePublishDate env stored.publishDate)
        let date ← notifAction settings row stored date
        let rule ← lift (updatedRule env settings s.db row stored date)
        modify fun db => { db with rules := replaceRule rule db.rules }) := by
      refine Keeps.bind (Keeps.lift _) fun date => Keeps.bind (notifAction_beside row stored date) fun date => ?_
      apply Keeps.lift_bind
      intro rule hrule
      refine Keeps.write fun s => beside_rules (filter_replace ?_ ?_)
      · intro old _ hold
        rw [(updatedRule_ok hrule).ruleId, if_pos hold]
        exact (updatedRule_ok hrule).ruleId
      · intro old _ hold
        rw [(updatedRule_ok hrule).ruleId, if_neg hold]
    exact h s
  | none =>
    cases hnew : newRule env settings s.db ruleset row with
    | error e => exact (beside_refl row.ruleId).refl s
    | ok rule =>
      cases hunique : checkUnique Rule.ruleId (s.db.rules ++ [rule]) with
      | error e =>
        simp only [lift_ok_bind, hunique, lift_error_bind]
        exact (beside_refl row.ruleId).refl s
      | ok rules =>
        obtain ⟨-, rfl⟩ := checkUnique_eq_ok.mp hunique
        simp only [lift_ok_bind, hunique]
        apply beside_rules
        simp [(newRule_ok hnew).ruleId]

theorem importRow_beside (rulesets : Dict String RuleSet) (accounts : List (Option String × String)) (row : ContentRow) :
    Keeps (Beside row.ruleId) (importRow env settings rulesets accounts row) := by
  unfold importRow
  cases row.get? "python_module" with
  | none => exact Keeps.pure _
  | some module =>
    refine Keeps.bind (Keeps.lift _) fun ruleset => ?_
    cases ruleset with
    | none => exact Keeps.pure _
    | some ruleset =>
      refine Keeps.bind (importRule_beside ruleset row) fun _ => ?_
      refine Keeps.bind (fun s => (importResolution_aside row s).beside) fun _ => ?_
      refine Keeps.bind (setPathway_beside row) fun _ => ?_
      exact fun s => (importTags_aside accounts row s).beside

def importedTo (rulesets : Dict String RuleSet) (row : ContentRow) : Option String :=
  (row.get? "python_module").bind fun module =>
    match rulesetOf rulesets module with
    | .ok ruleset => ruleset
    | .error _ => none

theorem importRow_of_none {rulesets : Dict String RuleSet} {accounts : List (Option String × String)} {row : ContentRow}
    (h : importedTo rulesets row = none) (s : State) : (importRow env settings rulesets accounts row s).2 = s := by
  unfold importRow
  unfold importedTo at h
  cases hm : row.get? "python_module" with
  | none => rfl
  | some module =>
    rw [hm, Option.bind_some] at h
    cases hr : rulesetOf rulesets module with
    | error e => simp only [hr, lift_error_bind]
    | ok ruleset =>
      rw [hr] at h
      subst h
      simp only [hr, lift_ok_bind, pure_apply]

theorem importRow_of_some {rulesets : Dict String RuleSet} {accounts : List (Option String × String)} {row : ContentRow}
    {ruleset : String} (h : importedTo rulesets row = some ruleset) :
    importRow env settings rulesets accounts row = (do
      importRule env settings ruleset row
      importResolution env row
      setPathway env row
      importTags env accounts row) := by
  unfold importRow
  unfold importedTo at h
  cases hm : row.get? "python_module" with
  | none => simp [hm] at h
  | some module =>
    rw [hm, Option.bind_some] at h
    cases hr : rulesetOf rulesets module with
    | error e => simp [hr] at h
    | ok found =>
      rw [hr] at h
      subst h
      funext s
      simp only [hr, lift_ok_bind]

theorem importedTo_nil {db : Database} {row : ContentRow} (h : db.rulesets = []) :
    importedTo (rulesetStartswith db) row = none := by
  unfold importedTo
  cases row.get? "python_module" with
  | none => rfl
  | some module =>
    rw [Option.bind_some, rulesetStartswith, h]
    cases module <;> rfl

/-- Nothing that is about the rule has changed. -/
structure Apart (ruleId : String) (s s' : State) : Prop where
  categories : s'.db.categories = s.db.categories
  pathways : s'.db.pathways = s.db.pathways
  rulesets : s'.db.rulesets = s.db.rulesets
  impacts : s'.db.impacts = s.db.impacts
  reports : s'.db.reports = s.db.reports
  rules : (s'.db.rules.filter fun rule => rule.ruleId = ruleId) = s.db.rules.filter fun rule => rule.ruleId = ruleId
  acks : (s'.db.acks.filter fun ack => ack.rule = ruleId) = s.db.acks.filter fun ack => ack.rule = ruleId

instance apart_refl (ruleId : String) : Std.Refl (Apart ruleId) := ⟨fun _ => ⟨rfl, rfl, rfl, rfl, rfl, rfl, rfl⟩⟩

instance apart_trans (ruleId : String) : IsTrans State (Apart ruleId) :=
  ⟨fun _ _ _ h h' => ⟨h'.categories.trans h.categories, h'.pathways.trans h.pathways, h'.rulesets.trans h.rulesets,
    h'.impacts.trans h.impacts, h'.reports.trans h.reports, h'.rules.trans h.rules, h'.acks.trans h.acks⟩⟩

theorem filter_eq_of_filter_ne {ρ : Type} {key : ρ → String} {l l' : List ρ} {k other : String} (hk : k ≠ other)
    (h : (l'.filter fun r => key r ≠ other) = l.filter fun r => key r ≠ other) :
    (l'.filter fun r => key r = k) = l.filter fun r => key r = k := by
  have hsub : ∀ l : List ρ, ((l.filter fun r => key r ≠ other).filter fun r => key r = k) = l.filter fun r => key r = k := by
    intro l
    rw [List.filter_filter]
    refine List.filter_congr fun r _ => ?_
    by_cases hr : key r = k
    · simp [hr, hk]
    · simp [hr]
  rw [← hsub l', h, hsub l]

theorem Beside.apart {other : String} {s s' : State} (h : Beside other s s') (hne : ruleId ≠ other) : Apart ruleId s s' where
  categories := h.categories
  pathways := h.pathways
  rulesets := h.rulesets
  impacts := h.impacts
  reports := h.reports
  rules := filter_eq_of_filter_ne hne h.rules
  acks := filter_eq_of_filter_ne hne h.acks

theorem importRows_apart {rulesets : Dict String RuleSet} {accounts : List (Option String × String)}
    {rows : List ContentRow} (h : ∀ row ∈ rows, row.ruleId = ruleId → importedTo rulesets row = none) :
    Keeps (Apart ruleId) (each rows (importRow env settings rulesets accounts)) := by
  refine Keeps.each fun row hrow s => ?_
  by_cases hid : row.ruleId = ruleId
  · rw [importRow_of_none (h row hrow hid)]
    exact (apart_refl ruleId).refl s
  · exact (importRow_beside rulesets accounts row s).apart (Ne.symm hid)

theorem each_split {pre post : List ContentRow} {row : ContentRow} {body : ContentRow → Run Unit} {s s' : State}
    (h : each (pre ++ row :: post) body s = (.ok (), s')) :
    ∃ t u, each pre body s = (.ok (), t) ∧ body row t = (.ok (), u) ∧ each post body u = (.ok (), s') := by
  rw [each_append, run_bind_eq_ok] at h
  obtain ⟨_, t, hpre, h⟩ := h
  rw [each_cons, run_bind_eq_ok] at h
  obtain ⟨_, u, hrow, hpost⟩ := h
  exact ⟨t, u, hpre, hrow, hpost⟩

theorem importRow_ok {rulesets : Dict String RuleSet} {accounts : List (Option String × String)} {row : ContentRow}
    {ruleset : String} {s s' : State} (hto : importedTo rulesets row = some ruleset)
    (h : importRow env settings rulesets accounts row s = (.ok (), s')) :
    ∃ t u pathway, importRule env settings ruleset row s = (.ok (), t) ∧ Aside row.ruleId t u ∧
      pathwayOf env u.db row = .ok pathway ∧
      s'.db.rules = u.db.rules.map (fun rule => if rule.ruleId = row.ruleId then { rule with pathway } else rule) := by
  rw [importRow_of_some hto, run_bind_eq_ok] at h
  obtain ⟨_, t, hrule, h⟩ := h
  rw [run_bind_eq_ok] at h
  obtain ⟨_, u, hresolution, h⟩ := h
  rw [run_bind_eq_ok] at h
  obtain ⟨_, v, hpathway, htags⟩ := h
  rw [setPathway, read_bind, run_bind_eq_ok] at hpathway
  obtain ⟨pathway, v', hp, hv⟩ := hpathway
  rw [run_lift_eq_ok] at hp
  obtain ⟨hp, rfl⟩ := hp
  have hrules : v.db.rules = v'.db.rules.map (fun rule => if rule.ruleId = row.ruleId then { rule with pathway } else rule) := by
    rw [modify, write, Prod.mk.injEq] at hv
    rw [← hv.2]
  have haside : Aside row.ruleId v s' := (importTags_aside accounts row).of_eq htags
  exact ⟨t, v', pathway, hrule, (importResolution_aside row).of_eq hresolution, hp, haside.rules.trans hrules⟩

/-- What the config can touch: levels, tags, and the impacts rules refer to. -/
structure Graded (s s' : State) : Prop where
  categories : s'.db.categories = s.db.categories
  pathways : s'.db.pathways = s.db.pathways
  rulesets : s'.db.rulesets = s.db.rulesets
  hosts : s'.db.hosts = s.db.hosts
  reports : s'.db.reports = s.db.reports
  acks : s'.db.acks = s.db.acks
  rules : ∃ impact : Rule → Option String, s'.db.rules = s.db.rules.map fun rule => { rule with impact := impact rule }
  deactivated : s'.deactivatedRuleAccounts = s.deactivatedRuleAccounts
  sent : s'.sent = s.sent
  ruleTags : ∀ pair ∈ s'.db.ruleTags, pair ∈ s.db.ruleTags

theorem rules_of_eq {rules rules' : List Rule} (h : rules' = rules) :
    ∃ impact : Rule → Option String, rules' = rules.map fun rule => { rule with impact := impact rule } :=
  ⟨Rule.impact, by rw [h, List.map_id']⟩

instance graded_refl : Std.Refl Graded :=
  ⟨fun _ => ⟨rfl, rfl, rfl, rfl, rfl, rfl, rules_of_eq rfl, rfl, rfl, fun _ h => h⟩⟩

theorem Graded.comp {s t u : State} (h : Graded s t) (h' : Graded t u) : Graded s u where
  categories := h'.categories.trans h.categories
  pathways := h'.pathways.trans h.pathways
  rulesets := h'.rulesets.trans h.rulesets
  hosts := h'.hosts.trans h.hosts
  reports := h'.reports.trans h.reports
  acks := h'.acks.trans h.acks
  rules := by
    obtain ⟨f, hf⟩ := h.rules
    obtain ⟨g, hg⟩ := h'.rules
    exact ⟨fun rule => g { rule with impact := f rule }, by rw [hg, hf, List.map_map]; rfl⟩
  deactivated := h'.deactivated.trans h.deactivated
  sent := h'.sent.trans h.sent
  ruleTags := fun pair hpair => h.ruleTags pair (h'.ruleTags pair hpair)

instance graded_trans : IsTrans State Graded := ⟨fun _ _ _ h h' => h.comp h'⟩

theorem updateResolutionRisksWithContent_graded (config : Config) :
    Keeps Graded (updateResolutionRisksWithContent env config) := by
  unfold updateResolutionRisksWithContent
  refine Keeps.bind (Keeps.read _) fun db => Keeps.bind (Keeps.lift _) fun risks => ?_
  refine Keeps.bind (Keeps.write fun s => ?_) fun _ => Keeps.write fun s => ?_
  · exact ⟨rfl, rfl, rfl, rfl, rfl, rfl, rules_of_eq rfl, rfl, rfl, fun _ h => h⟩
  · exact ⟨rfl, rfl, rfl, rfl, rfl, rfl, rules_of_eq rfl, rfl, rfl, fun _ h => h⟩

theorem updateImpactsWithContent_graded (config : Config) : Keeps Graded (updateImpactsWithContent env config) := by
  unfold updateImpactsWithContent
  cases config.impact with
  | none => exact Keeps.pure ()
  | some impact =>
    refine Keeps.bind (Keeps.read _) fun db => Keeps.bind (Keeps.lift _) fun impacts => Keeps.write fun s => ?_
    exact ⟨rfl, rfl, rfl, rfl, rfl, rfl, ⟨_, rfl⟩, rfl, rfl, fun _ h => h⟩

theorem updateTagsWithContent_graded (config : Config) : Keeps Graded (updateTagsWithContent env config) := by
  unfold updateTagsWithContent
  cases config.tags with
  | none => exact Keeps.pure ()
  | some groups =>
    refine Keeps.bind (Keeps.read _) fun db => Keeps.bind (Keeps.lift _) fun added => Keeps.write fun s => ?_
    exact ⟨rfl, rfl, rfl, rfl, rfl, rfl, rules_of_eq rfl, rfl, rfl, fun _ h => List.mem_of_mem_filter h⟩

theorem updateModelWithContent_mem {config : Dict String Json} {rows rows' : List Level}
    (h : updateModelWithContent env config rows = .ok rows') {row : Level} (hm : row ∈ rows') :
    ∃ value, config.get? row.name = some (row.name, value) ∧ level env.toLibrary row.name value = .ok row := by
  have hlevel : ∀ {name : String} {value : Json}, level env.toLibrary name value = .ok row → row.name = name := by
    intro name value hl
    simp only [level, bind_eq_ok, Except.ok.injEq] at hl
    obtain ⟨text, htext, _, -, _, -, rfl⟩ := hl
    exact charOf_str htext
  simp only [updateModelWithContent, bind_eq_ok, Except.ok.injEq] at h
  obtain ⟨kept, hkept, added, hadded, rfl⟩ := h
  rcases List.mem_append.mp hm with hm | hm
  · obtain ⟨old, hold, hrow⟩ := (mapM_mem hkept).mp hm
    have hsome := (List.mem_filter.mp hold).2
    cases he : config.get? old.name with
    | none => simp [he] at hsome
    | some e =>
      rw [he] at hrow
      have hname := hlevel hrow
      have hkey : e.1 = old.name := by simpa using List.find?_some he
      exact ⟨e.2, by rw [hname, he, ← hkey], by rw [hname]; exact hrow⟩
  · obtain ⟨e, he, hrow⟩ := (mapM_mem hadded).mp hm
    have hname := hlevel hrow
    refine ⟨e.2, ?_, by rw [hname]; exact hrow⟩
    rw [hname]
    exact Table.mem_iff_get?.mp (List.mem_filter.mp he).1

def impactsAfter (env : Environment) (config : Config) (db : Database) : Except Exception (List Level) :=
  match config.impact with
  | none => .ok db.impacts
  | some impact => updateModelWithContent env impact db.impacts

theorem impactsAfter_mem {config : Config} {impact : Dict String Json} (hconfig : config.impact = some impact)
    {db : Database} {impacts : List Level} (h : impactsAfter env config db = .ok impacts) {row : Level}
    (hm : row ∈ impacts) :
    ∃ value, impact.get? row.name = some (row.name, value) ∧ level env.toLibrary row.name value = .ok row := by
  rw [impactsAfter, hconfig] at h
  exact updateModelWithContent_mem h hm

theorem updateImpactsWithContent_ok {config : Config} {s s' : State}
    (h : updateImpactsWithContent env config s = (.ok (), s')) : impactsAfter env config s.db = .ok s'.db.impacts := by
  unfold impactsAfter
  unfold updateImpactsWithContent at h
  cases hconfig : config.impact with
  | none =>
    simp only [hconfig, pure_apply, Prod.mk.injEq, true_and] at h
    rw [h]
  | some impact =>
    simp only [hconfig, read_bind] at h
    rw [run_bind_eq_ok] at h
    obtain ⟨impacts, t, hi, h⟩ := h
    rw [run_lift_eq_ok] at hi
    obtain ⟨hi, rfl⟩ := hi
    rw [modify, write, Prod.mk.injEq] at h
    rw [← h.2]
    exact hi

def SameImpacts (s s' : State) : Prop := s'.db.impacts = s.db.impacts

instance sameImpacts_refl : Std.Refl SameImpacts := ⟨fun _ => rfl⟩

instance sameImpacts_trans : IsTrans State SameImpacts := ⟨fun _ _ _ h h' => h'.trans h⟩

theorem updateResolutionRisksWithContent_impacts (config : Config) :
    Keeps SameImpacts (updateResolutionRisksWithContent env config) := by
  unfold updateResolutionRisksWithContent
  refine Keeps.bind (Keeps.read _) fun db => Keeps.bind (Keeps.lift _) fun risks => ?_
  exact Keeps.bind (Keeps.write fun _ => rfl) fun _ => Keeps.write fun _ => rfl

theorem updateTagsWithContent_impacts (config : Config) : Keeps SameImpacts (updateTagsWithContent env config) := by
  unfold updateTagsWithContent
  cases config.tags with
  | none => exact Keeps.pure ()
  | some groups => exact Keeps.bind (Keeps.read _) fun _ => Keeps.bind (Keeps.lift _) fun _ => Keeps.write fun _ => rfl

/-- An import of content that finishes: every row, then what is left over, unless there are no rulesets. -/
theorem updateRulesetWithContent_ok {content : List ContentRow} {s s' : State}
    (h : updateRulesetWithContent env settings content s = (.ok (), s')) :
    s.db.rulesets = [] ∧ s' = s ∨
      ∃ u, each content (importRow env settings (rulesetStartswith s.db) s.db.hosts.dedup) s = (.ok (), u) ∧
        s' = { u with db := deleteExtraRules content u.db, sent := u.sent ++ u.deactivatedRuleAccounts } := by
  rw [updateRulesetWithContent, read_bind] at h
  cases hrulesets : s.db.rulesets with
  | nil =>
    simp only [hrulesets, List.isEmpty_nil, Bool.not_true, Bool.false_eq_true, if_false, pure_apply, Prod.mk.injEq,
      true_and] at h
    exact Or.inl ⟨rfl, h.symm⟩
  | cons ruleset rest =>
    simp only [hrulesets, List.isEmpty_cons, Bool.not_false, if_true] at h
    rw [run_bind_eq_ok] at h
    obtain ⟨_, u, hrows, h⟩ := h
    refine Or.inr ⟨u, hrows, ?_⟩
    rw [modify, write_bind, sendDeactivatedRuleNotifications, write, Prod.mk.injEq] at h
    exact h.2.symm

theorem importAll_ok {config : Config} {content : List ContentRow} {s s' : State}
    (h : importAll env settings config content s = (.ok (), s')) :
    ∃ t, Graded s t ∧ impactsAfter env config s.db = .ok t.db.impacts ∧
      (t.db.rulesets = [] ∧ s' = t ∨
        ∃ u, each content (importRow env settings (rulesetStartswith t.db) t.db.hosts.dedup) t = (.ok (), u) ∧
          s' = { u with db := deleteExtraRules content u.db, sent := u.sent ++ u.deactivatedRuleAccounts }) := by
  rw [importAll, run_bind_eq_ok] at h
  obtain ⟨_, a, hrisks, h⟩ := h
  rw [run_bind_eq_ok] at h
  obtain ⟨_, b, himpacts, h⟩ := h
  rw [run_bind_eq_ok] at h
  obtain ⟨_, t, htags, h⟩ := h
  have hgraded := (((updateResolutionRisksWithContent_graded config).of_eq hrisks).comp
    ((updateImpactsWithContent_graded config).of_eq himpacts)).comp ((updateTagsWithContent_graded config).of_eq htags)
  refine ⟨t, hgraded, ?_, ?_⟩
  · have hbefore : a.db.impacts = s.db.impacts := (updateResolutionRisksWithContent_impacts config).of_eq hrisks
    have hafter : t.db.impacts = b.db.impacts := (updateTagsWithContent_impacts config).of_eq htags
    have hb := updateImpactsWithContent_ok himpacts
    rw [impactsAfter, hbefore] at hb
    rw [hafter]
    exact hb
  · exact updateRulesetWithContent_ok h

end Advisor.Importer.Api
