import Advisor.Importer.Idempotence

/-! The rules of one content, imported over two databases with different pasts. -/

namespace Advisor.Importer.Management

open Python Django Relational Mapping

variable {env : Environment} {listing listing' : Listing}

def ruleOf (db : Database) (ruleId : String) : Option Rule := db.rules.find? fun rule => rule.ruleId = ruleId

def storedDate (db : Database) (ruleId : String) : Option Instant := (ruleOf db ruleId).bind Rule.publishDate

def rowOf (content : List ContentRow) (ruleId : String) : Option ContentRow :=
  content.reverse.find? fun row => row.ruleId = ruleId

def suppliesDate (row : ContentRow) : Bool :=
  match row.publishDate with
  | some (.datetime _) => true
  | some (.json value) => value.truthy
  | none => false

theorem publishDateOf_isSome {row : ContentRow} {date : Option Instant} (h : publishDateOf env row = .ok date) :
    date.isSome = suppliesDate row := by
  simp only [publishDateOf, bind_eq_ok] at h
  obtain ⟨item, hitem, h⟩ := h
  have hrow : row.publishDate = some item := by
    rw [ContentRow.publishDateItem] at hitem
    split at hitem
    · cases hitem
      assumption
    · cases hitem
  rw [suppliesDate, hrow]
  split at h
  · cases h
    rfl
  · cases h
    rfl
  · rename_i text htext
    rw [bind_eq_ok] at h
    obtain ⟨t, -, h⟩ := h
    have hne : text ≠ "" := fun he => htext (by rw [he])
    split at h
    · cases h
      simp [Json.truthy, hne]
    · cases h
  · rename_i value _ _
    cases htruthy : value.truthy with
    | true => simp [htruthy] at h
    | false =>
      simp only [htruthy, Bool.false_eq_true, if_false, Except.ok.injEq] at h
      simp [← h, htruthy]

theorem ruleContentToModelFields_transfer {config : Config} {db s : Database} {row : ContentRow} {rule : Rule}
    (hpathways : s.pathways = db.pathways) (hrulesets : s.rulesets = db.rulesets)
    (hcategory : rule.category ∈ s.categories) (himpact : ∀ impact, rule.impact = some impact → impact ∈ s.impacts.map Level.name)
    (h : ruleContentToModelFields env config db row = .ok rule) :
    ruleContentToModelFields env config s row = .ok rule := by
  simp only [ruleContentToModelFields, bind_eq_ok, Except.ok.injEq, hpathways, hrulesets] at h ⊢
  obtain ⟨description, hdescription, reboot, hreboot, likelihood, hlikelihood, nodeId, hnodeId, generic, hgeneric,
    reason, hreason, moreInfo, hmoreInfo, ruleset, hruleset, status, hstatus, i, hi, riskItem, hriskItem, risk, hrisk,
    average, haverage, date, hdate, categoryItem, hcategoryItem, category, hcategory', impactItem, himpactItem,
    impact, himpact', columns⟩ := h
  have hruleCategory : rule.category = category := by
    obtain ⟨_, -, _, -, _, -, _, -, _, -, _, -, _, -, _, -, _, -, _, -, rfl⟩ := columns
    rfl
  have hruleImpact : rule.impact = some impact := by
    obtain ⟨_, -, _, -, _, -, _, -, _, -, _, -, _, -, _, -, _, -, _, -, rfl⟩ := columns
    rfl
  have hcategoryIn : nameIn env.toLibrary s.categories categoryItem = .ok category :=
    nameIn_eq_ok.mpr ⟨(nameIn_eq_ok.mp hcategory').1, hruleCategory ▸ hcategory⟩
  have himpactIn : nameIn env.toLibrary (s.impacts.map Level.name) impactItem = .ok impact :=
    nameIn_eq_ok.mpr ⟨(nameIn_eq_ok.mp himpact').1, himpact impact hruleImpact⟩
  exact ⟨description, hdescription, reboot, hreboot, likelihood, hlikelihood, nodeId, hnodeId, generic, hgeneric,
    reason, hreason, moreInfo, hmoreInfo, ruleset, hruleset, status, hstatus, i, hi, riskItem, hriskItem, risk, hrisk,
    average, haverage, date, hdate, categoryItem, hcategoryItem, category, hcategoryIn, impactItem, himpactItem,
    impact, himpactIn, columns⟩

/-- Two states of one database: its fixtures, and the unique ids of its rules. -/
structure States (db db' : Database) : Prop where
  pathways : db'.pathways = db.pathways
  rulesets : db'.rulesets = db.rulesets
  unique : (db.rules.map Rule.ruleId).Nodup
  unique' : (db'.rules.map Rule.ruleId).Nodup

theorem rowOf_mem {content : List ContentRow} {ruleId : String} {row : ContentRow} (h : rowOf content ruleId = some row) :
    (ruleId, row) ∈ Dict.ofEntries (content.map fun row => (row.ruleId, row)) := by
  have hk : row.ruleId = ruleId := by simpa using List.find?_some h
  rw [Table.mem_iff_get?, Dict.get?_ofEntries, ← List.map_reverse, List.find?_map]
  rw [rowOf] at h
  simp only [Function.comp_def, h, Option.map_some, hk]

theorem ruleOf_handle {sources : Sources} {db after : Database} (h : handle env listing sources db = .ok after)
    (hunique : (db.rules.map Rule.ruleId).Nodup) {ruleId : String} {row : ContentRow}
    (hrow : rowOf sources.content ruleId = some row) :
    ∃ db₁ fields, db₁.pathways = db.pathways ∧ db₁.rulesets = db.rulesets ∧
      ruleContentToModelFields env sources.config db₁ row = .ok fields ∧
      ruleOf after ruleId = some { fields with publishDate := fields.publishDate.or (storedDate db ruleId) } := by
  obtain ⟨db₁, h₁, -, db₂, h₂, db₃, h₃, db₄, h₄, db₅, h₅, h₆⟩ := handle_eq_ok.mp h
  obtain ⟨impacts, risks, tags, rfl⟩ := importConfig_writes h₁
  simp only [loadAllRules, bind_eq_ok, Except.ok.injEq] at h₂
  obtain ⟨config, hconfig, rfl⟩ := h₂
  obtain ⟨_, rfl⟩ := loadAllRuleTags_writes h₃
  obtain ⟨_, rfl⟩ := loadAllAutoacks_writes h₄
  obtain ⟨_, _, rfl⟩ := loadAllResolutions_writes h₅
  obtain ⟨_, hplaybooks⟩ := loadAllPlaybooks_writes (sources.playbooks.map generatePlaybookContent) _
  have hrules : after.rules = ruleMapping.updateModelFromConfig false config db.rules := by
    rw [← hplaybooks.symm.trans h₆]
  obtain ⟨fields?, hfields?, hmem⟩ := Dict.exists_mem_mapM hconfig (rowOf_mem hrow)
  obtain ⟨fields, hfields, rfl⟩ := map_eq_ok.mp hfields?
  refine ⟨{ db with impacts, resolutionRisks := risks, tags }, fields, rfl, rfl, hfields, ?_⟩
  have hfind := find?_updateModelFromConfig hunique (keyed_rules hconfig) false ruleId
  rw [fieldsFor_of_mem hmem] at hfind
  rw [ruleOf, hrules]
  cases hstored : db.rules.find? fun rule => rule.ruleId = ruleId with
  | none =>
    have hnone : db.rules.find? (fun rule => ruleMapping.key rule = ruleId) = none := hstored
    rw [hnone] at hfind
    rw [storedDate, ruleOf, hstored, Option.bind_none, Option.or_none]
    exact hfind
  | some old =>
    have hsome : db.rules.find? (fun rule => ruleMapping.key rule = ruleId) = some old := hstored
    rw [hsome] at hfind
    rw [storedDate, ruleOf, hstored, Option.bind_some]
    exact hfind

/-- Two pasts make no difference exactly where the row brings its publish date, or the same date is stored. -/
theorem rules_same_iff {sources : Sources} {db db' after after' : Database} (hstates : States db db')
    (h : handle env listing sources db = .ok after) (h' : handle env listing' sources db' = .ok after') :
    (∀ ruleId row, rowOf sources.content ruleId = some row → ruleOf after ruleId = ruleOf after' ruleId) ↔
      ∀ ruleId row, rowOf sources.content ruleId = some row →
        suppliesDate row = true ∨ storedDate db ruleId = storedDate db' ruleId := by
  refine forall_congr' fun ruleId => forall_congr' fun row => imp_congr_right fun hrow => ?_
  obtain ⟨db₁, fields, hp, hr, hfields, hafter⟩ := ruleOf_handle h hstates.unique hrow
  obtain ⟨db₁', fields', hp', hr', hfields', hafter'⟩ := ruleOf_handle h' hstates.unique' hrow
  have hspec := ruleContentToModelFields_ok env hfields
  have hspec' := ruleContentToModelFields_ok env hfields'
  -- both transformations name the same category and impact, so they agree
  have hcategory : fields.category ∈ db₁'.categories := by
    have he := hspec.category.1.symm.trans hspec'.category.1
    rw [Except.ok.injEq, Json.str.injEq] at he
    exact he ▸ hspec'.category.2
  have himpact : ∀ impact, fields.impact = some impact → impact ∈ db₁'.impacts.map Level.name := by
    intro impact himpact
    obtain ⟨name, hitem, -, hname⟩ := hspec.impact
    obtain ⟨name', hitem', hin, -⟩ := hspec'.impact
    have he := hitem.symm.trans hitem'
    rw [Except.ok.injEq, Json.str.injEq] at he
    rw [hname, Option.some.injEq] at himpact
    rw [← himpact, he]
    exact hin
  have hsame := ruleContentToModelFields_transfer (hp'.trans (hstates.pathways.trans hp.symm))
    (hr'.trans (hstates.rulesets.trans hr.symm)) hcategory himpact hfields
  rw [hfields', Except.ok.injEq] at hsame
  have hdate := publishDateOf_isSome hspec.publishDate
  rw [hafter, hafter', hsame, ← hdate, Option.some.injEq]
  cases hd : fields.publishDate with
  | some t => simp
  | none =>
    simp only [Option.none_or, Option.isSome_none, Bool.false_eq_true, false_or]
    exact ⟨fun he => congrArg Rule.publishDate he, fun he => by rw [he]⟩

def datedSources : Sources := { hiddenSources with content := [{ hiddenRule with publishDate := some (.datetime 1500000000) }] }

theorem rules_same_hidden :
    ∃ before after after', handle plainEnvironment plainListing datedSources fixtures = .ok before ∧
      ((∀ ruleId row, rowOf hiddenSources.content ruleId = some row → ruleOf after ruleId = ruleOf after' ruleId) ↔
        ∀ ruleId row, rowOf hiddenSources.content ruleId = some row →
          suppliesDate row = true ∨ storedDate fixtures ruleId = storedDate before ruleId) := by
  have h : isOk (do
      let before ← handle plainEnvironment plainListing datedSources fixtures
      let after ← handle plainEnvironment plainListing hiddenSources fixtures
      let after' ← handle plainEnvironment plainListing hiddenSources before
      if before.pathways = fixtures.pathways ∧ before.rulesets = fixtures.rulesets ∧
          (before.rules.map Rule.ruleId).Nodup then .ok (after, after') else .error (.notLoaded "")) = true := by
    decide +kernel
  obtain ⟨pair, h⟩ := isOk_iff.mp h
  simp only [bind_eq_ok] at h
  obtain ⟨before, hbefore, after, hafter, after', hafter', hif⟩ := h
  split at hif
  · rename_i hstates
    exact ⟨before, after, after', hbefore,
      rules_same_iff ⟨hstates.1, hstates.2.1, List.nodup_nil, hstates.2.2⟩ hafter hafter'⟩
  · cases hif

/-- Content without a publish date gives the rule none over an empty table, and the old one where it was imported
before. -/
theorem hidden_keeps_date :
    ∃ before after after', handle plainEnvironment plainListing datedSources fixtures = .ok before ∧
      handle plainEnvironment plainListing hiddenSources fixtures = .ok after ∧
      handle plainEnvironment plainListing hiddenSources before = .ok after' ∧
      (ruleOf after "test|Hidden").map Rule.publishDate = some none ∧
      (ruleOf after' "test|Hidden").map Rule.publishDate = some (some 1500000000) := by
  have h : (do
      let before ← handle plainEnvironment plainListing datedSources fixtures
      let after ← handle plainEnvironment plainListing hiddenSources fixtures
      let after' ← handle plainEnvironment plainListing hiddenSources before
      .ok ((ruleOf after "test|Hidden").map Rule.publishDate, (ruleOf after' "test|Hidden").map Rule.publishDate)) =
      .ok (some none, some (some 1500000000)) := by decide +kernel
  simp only [bind_eq_ok, Except.ok.injEq, Prod.mk.injEq] at h
  obtain ⟨before, hbefore, after, hafter, after', hafter', hdates⟩ := h
  exact ⟨before, after, after', hbefore, hafter, hafter', hdates⟩

end Advisor.Importer.Management
