import Advisor.Importer.ApiRuns
import Advisor.Importer.Idempotence

/-! What an import leaves of the acks that are not automatic ones. -/

namespace Advisor.Importer

open Python Procedure Django Relational Management

namespace Management

variable {env : Environment} {listing : Listing}

theorem userAcks_importConfig {config : Config} {db after : Database} (h : importConfig env config db = .ok after) :
    userAcks after = userAcks db := by
  obtain ⟨_, _, _, rfl⟩ := importConfig_writes h
  rfl

theorem userAcks_loadAllRules {config : Config} {content : List ContentRow} {db after : Database}
    (h : loadAllRules env config content db = .ok after) : userAcks after = userAcks db := by
  obtain ⟨_, rfl⟩ := loadAllRules_writes h
  rfl

theorem userAcks_loadAllRuleTags {content : List ContentRow} {db after : Database}
    (h : loadAllRuleTags content db = .ok after) : userAcks after = userAcks db := by
  obtain ⟨_, rfl⟩ := loadAllRuleTags_writes h
  rfl

/-- The command leaves the acks of users as they are. -/
theorem userAcks_handle {sources : Sources} {db after : Database} (h : handle env listing sources db = .ok after) :
    userAcks after = userAcks db := by
  obtain ⟨db₁, h₁, -, db₂, h₂, db₃, h₃, db₄, h₄, db₅, h₅, h₆⟩ := handle_eq_ok.mp h
  have hacks : userAcks db₄ = userAcks db := by
    rw [(acks_after h₄).1, userAcks_loadAllRuleTags h₃, userAcks_loadAllRules h₂, userAcks_importConfig h₁]
  obtain ⟨_, _, rfl⟩ := loadAllResolutions_writes h₅
  obtain ⟨_, hplaybooks⟩ := loadAllPlaybooks_writes (sources.playbooks.map generatePlaybookContent) _
  rw [← h₆, hplaybooks]
  exact hacks

theorem userAcks_interrupted {sources : Sources} {db after : Database} (h : Interrupted env listing sources db after) :
    userAcks after = userAcks db := by
  cases h with
  | config _ => rfl
  | maps h₁ _ => exact userAcks_importConfig h₁
  | rules h₁ _ _ =>
    have hsame := userAcks_importConfig h₁
    exact hsame
  | ruleTags h₁ h₂ _ =>
    have hsame := (userAcks_loadAllRules h₂).trans (userAcks_importConfig h₁)
    exact hsame
  | @acks db₁ db₂ db₃ e created h₁ h₂ h₃ _ hcreated =>
    have hnone : created.filter (fun ack => ack.createdBy ≠ autoackCreatedBy) = [] := by
      rw [List.filter_eq_nil_iff]
      intro ack hack
      simpa using hcreated ack hack
    have hsame : userAcks { db₃ with acks := db₃.acks ++ created } = userAcks db₃ := by
      rw [userAcks, List.filter_append, hnone, List.append_nil]
      rfl
    rw [hsame, userAcks_loadAllRuleTags h₃, userAcks_loadAllRules h₂, userAcks_importConfig h₁]
  | resolutions h₁ h₂ h₃ h₄ _ =>
    have hsame := (acks_after h₄).1
    rw [userAcks_loadAllRuleTags h₃, userAcks_loadAllRules h₂, userAcks_importConfig h₁] at hsame
    exact hsame

end Management

namespace Api

variable {env : Environment} {settings : Settings}

def SameUserAcks (s s' : State) : Prop := userAcks s'.db = userAcks s.db

instance sameUserAcks_refl : Std.Refl SameUserAcks := ⟨fun _ => rfl⟩

instance sameUserAcks_trans : IsTrans State SameUserAcks := ⟨fun _ _ _ h h' => Eq.trans h' h⟩

theorem sameUserAcks_of_acks {s s' : State} (h : s'.db.acks = s.db.acks) : SameUserAcks s s' := by
  rw [SameUserAcks, userAcks, h, userAcks]

theorem sameUserAcks_permits : Permits SameUserAcks := fun _ _ _ _ _ => rfl

theorem addAutoacksForRule_users (accounts : List (Option String × String)) (ruleId : String) :
    Keeps SameUserAcks (addAutoacksForRule accounts ruleId) := by
  intro s
  rw [addAutoacksForRule, read_bind]
  generalize hnew : (accounts.filter fun e => !s.db.acks.any fun ack => ack.rule = ruleId && ack.orgId = e.2) = new
  cases hunique : checkUnique (fun ack : Ack => (ack.rule, ack.orgId))
      (s.db.acks ++ new.map fun e => ⟨ruleId, e.1, e.2, autoackJustification, autoackCreatedBy⟩) with
  | error e => rfl
  | ok acks =>
    obtain ⟨-, rfl⟩ := checkUnique_eq_ok.mp hunique
    have hnil : ((new.map fun e => (⟨ruleId, e.1, e.2, autoackJustification, autoackCreatedBy⟩ : Ack)).filter
        fun ack => ack.createdBy ≠ autoackCreatedBy) = [] := by
      rw [List.filter_eq_nil_iff]
      intro ack hack
      obtain ⟨e, -, rfl⟩ := List.mem_map.mp hack
      simp
    change (s.db.acks ++ _).filter _ = _
    rw [List.filter_append, hnil, List.append_nil]
    rfl

theorem removeAutoacksForRule_users (ruleId : String) : Keeps SameUserAcks (removeAutoacksForRule ruleId) := by
  refine Keeps.write fun s => ?_
  rw [SameUserAcks, userAcks, List.filter_filter]
  refine List.filter_congr fun ack _ => ?_
  by_cases h : ack.createdBy = autoackCreatedBy <;> simp [h]

theorem importRule_users (ruleset : String) (row : ContentRow) :
    Keeps SameUserAcks (importRule env settings ruleset row) := by
  unfold importRule
  refine Keeps.bind (Keeps.read _) fun db => ?_
  cases db.rules.find? fun rule => rule.ruleset = ruleset && rule.ruleId = row.ruleId with
  | some stored =>
    refine Keeps.bind (Keeps.lift _) fun date => Keeps.bind (notifAction_keeps (fun _ _ => rfl) row stored date) fun _ => ?_
    exact Keeps.bind (Keeps.lift _) fun rule => Keeps.write fun s => rfl
  | none =>
    refine Keeps.bind (Keeps.lift _) fun rule => Keeps.bind (Keeps.lift _) fun rules => ?_
    exact Keeps.write fun s => rfl

theorem importRow_users (rulesets : Dict String RuleSet) (accounts : List (Option String × String)) (row : ContentRow) :
    Keeps SameUserAcks (importRow env settings rulesets accounts row) := by
  unfold importRow
  cases row.get? "python_module" with
  | none => exact Keeps.pure _
  | some module =>
    refine Keeps.bind (Keeps.lift _) fun ruleset => ?_
    cases ruleset with
    | none => exact Keeps.pure _
    | some ruleset =>
      refine Keeps.bind (importRule_users ruleset row) fun _ => ?_
      refine Keeps.bind (importResolution_keeps sameUserAcks_permits.resolutions row) fun _ => Keeps.bind ?_ fun _ => ?_
      · unfold setPathway
        exact Keeps.bind (Keeps.read _) fun db => Keeps.bind (Keeps.lift _) fun pathway => Keeps.write fun s => rfl
      · exact importTags_keeps sameUserAcks_permits.tags (addAutoacksForRule_users accounts row.ruleId)
          (removeAutoacksForRule_users row.ruleId)

/-- The acks of users are those there were, but for those whose rules have gone. -/
structure UserAcksLeft (s s' : State) : Prop where
  old : ∀ ack ∈ userAcks s'.db, ack ∈ userAcks s.db
  stay : ∀ ack ∈ userAcks s.db, (∃ rule ∈ s'.db.rules, rule.ruleId = ack.rule) → ack ∈ userAcks s'.db

theorem SameUserAcks.left {s s' : State} (h : SameUserAcks s s') : UserAcksLeft s s' :=
  ⟨fun _ hack => h ▸ hack, fun _ hack _ => h ▸ hack⟩

theorem UserAcksLeft.after {s t u : State} (h : SameUserAcks s t) (h' : UserAcksLeft t u) : UserAcksLeft s u :=
  ⟨fun ack hack => h ▸ h'.old ack hack, fun ack hack hrule => h'.stay ack (h ▸ hack) hrule⟩

theorem deleteExtraRules_left (content : List ContentRow) (s : State) :
    UserAcksLeft s { s with db := deleteExtraRules content s.db } := by
  constructor
  · intro ack hack
    simp only [userAcks, deleteExtraRules, List.mem_filter] at hack ⊢
    exact ⟨hack.1.1, hack.2⟩
  · rintro ack hack ⟨rule, hrule, hid⟩
    simp only [userAcks, deleteExtraRules, List.mem_filter] at hack hrule ⊢
    exact ⟨⟨hack.1, by rw [← hid]; exact hrule.2⟩, hack.2⟩

theorem before_left {α : Type} {p : Run α} {f : α → Run Unit} (h : Keeps SameUserAcks p)
    (hf : ∀ a, Keeps UserAcksLeft (f a)) : Keeps UserAcksLeft (p >>= f) :=
  h.bind_of (fun _ _ => SameUserAcks.left) (fun _ _ _ => .after) hf

theorem importAll_left (config : Config) (content : List ContentRow) :
    Keeps UserAcksLeft (importAll env settings config content) := by
  have hgraded {p : Run Unit} (h : Keeps Graded p) : Keeps SameUserAcks p := fun s => sameUserAcks_of_acks (h s).acks
  refine before_left (hgraded (updateResolutionRisksWithContent_graded config)) fun _ => ?_
  refine before_left (hgraded (updateImpactsWithContent_graded config)) fun _ => ?_
  refine before_left (hgraded (updateTagsWithContent_graded config)) fun _ => ?_
  refine before_left (Keeps.read _) fun db => Keeps.ite (fun _ => ?_) fun _ _ => SameUserAcks.left rfl
  refine before_left (Keeps.each fun row _ => importRow_users _ _ row) fun _ s => ?_
  have hleft := deleteExtraRules_left content s
  exact ⟨hleft.old, hleft.stay⟩

end Api

end Advisor.Importer
