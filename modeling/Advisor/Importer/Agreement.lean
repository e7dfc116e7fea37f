import Advisor.Importer.ApiRuns
import Advisor.Importer.History

/-! One content through both importers, over a database that does not hold one of its rules: when
the two rules that are stored are the same. -/

namespace Advisor.Importer

open Python Procedure Django Relational Management

/-- The config as the API importer gets it: in JSON, the key `null` is text. -/
def Config.forApi (config : Config) : Api.Config where
  resolutionRisk := config.resolutionRisk
  impact := some (Dict.ofEntries (config.impact.rows.map fun e => (e.1.getD "null", e.2)))
  tags := some config.tags

structure SameFields (rule rule' : Rule) : Prop where
  totalRisk : rule.totalRisk = rule'.totalRisk
  impact : rule.impact = rule'.impact
  likelihood : rule.likelihood = rule'.likelihood
  active : rule.active = rule'.active
  publishDate : rule.publishDate = rule'.publishDate
  rebootRequired : rule.rebootRequired = rule'.rebootRequired
  summary : rule.summary = rule'.summary
  pathway : rule.pathway = rule'.pathway

def Agree (db db' : Database) (ruleId : String) : Prop :=
  ∃ rule rule', ruleOf db ruleId = some rule ∧ ruleOf db' ruleId = some rule' ∧ SameFields rule rule'

/-- The numbers a row is graded by: its likelihood, and what the config says of its resolution risk and of its
impact. -/
structure Scales (lib : Library) (config : Config) (row : ContentRow) (likelihood risk : ℚ) (impact : Nat) : Prop where
  likelihood : ∃ value, row.get? "likelihood" = some value ∧ value.number = some (.finite likelihood)
  risk : ∃ name value, row.get? "resolution_risk" = some (.str name) ∧
    config.resolutionRisk.get? name = some (name, value) ∧ value.number = some (.finite risk)
  impact : ∃ name entries value lv, row.get? "impact" = some (.str name) ∧ config.forApi.impact = some entries ∧
    entries.get? name = some (name, value) ∧ level lib name value = .ok lv ∧ lv.level = impact

theorem Scales.unique {lib : Library} {config : Config} {row : ContentRow} {l r l' r' : ℚ} {i i' : Nat}
    (h : Scales lib config row l r i) (h' : Scales lib config row l' r' i') : l' = l ∧ r' = r ∧ i' = i := by
  obtain ⟨v, hv, hl⟩ := h.likelihood
  obtain ⟨v', hv', hl'⟩ := h'.likelihood
  obtain ⟨n, x, hn, hx, hr⟩ := h.risk
  obtain ⟨n', x', hn', hx', hr'⟩ := h'.risk
  obtain ⟨m, es, y, lv, hm, hes, hy, hlv, rfl⟩ := h.impact
  obtain ⟨m', es', y', lv', hm', hes', hy', hlv', rfl⟩ := h'.impact
  refine ⟨?_, ?_, ?_⟩
  · obtain rfl : v = v' := Option.some.inj (hv.symm.trans hv')
    simpa [hl] using hl'.symm
  · obtain rfl : n = n' := by simpa using hn.symm.trans hn'
    obtain rfl : x = x' := by simpa using hx.symm.trans hx'
    simpa [hr] using hr'.symm
  · obtain rfl : m = m' := by simpa using hm.symm.trans hm'
    obtain rfl : es = es' := Option.some.inj (hes.symm.trans hes')
    obtain rfl : y = y' := by simpa using hy.symm.trans hy'
    rw [Except.ok.inj (hlv.symm.trans hlv')]

theorem resolutionRiskToRisk_eq_ok {env : Environment} {config : Config} {value : Json} {risk : String × Json}
    (h : resolutionRiskToRisk env config value = .ok risk) :
    value = .str risk.1 ∧ config.resolutionRisk.get? risk.1 = some risk := by
  rw [resolutionRiskToRisk, bind_eq_ok] at h
  obtain ⟨name, hname, h⟩ := h
  obtain ⟨rfl, -⟩ := nameIn_eq_ok.mp hname
  cases he : config.resolutionRisk.get? name with
  | none => simp [he] at h
  | some e =>
    simp only [he, Except.ok.injEq] at h
    subst h
    have hk : e.1 = name := by simpa using List.find?_some he
    exact ⟨by rw [hk], by rw [hk, he]⟩

theorem itemOr_eq_ok {row : ContentRow} {field : String} {default value : Json} :
    Api.itemOr row field default = .ok value ↔
      ∃ item, row.get? field = some item ∧ value = if item.truthy then item else default := by
  rw [Api.itemOr, ContentRow.item, bind_eq_ok]
  cases row.get? field with
  | none => simp
  | some item => simp only [Except.ok.injEq, Option.some.injEq, exists_eq_left', eq_comm]

theorem number_of_likelihood {lib : Library} {value : Json} {i : Int} {q : ℚ} (hempty : lib.intOfText "" = none)
    (hi : integerOf lib value = .ok i)
    (hq : (if value.truthy then value else .int 0).number = some (.finite q)) :
    value.number = some (.finite q) ∧ i = truncate q := by
  have hnumber : value.number = some (.finite q) := by
    by_cases ht : value.truthy = true
    · rwa [if_pos ht] at hq
    · rw [if_neg ht] at hq
      have hzero : q = 0 := by simpa [Json.number] using hq.symm
      subst hzero
      cases value with
      | bool b => cases b <;> simp_all [Json.truthy, Json.number]
      | int n => simp_all [Json.truthy, Json.number]
      | float x =>
        cases x with
        | finite a => simp_all [Json.truthy, Json.number, Floating.eq]
        | _ => simp [Json.truthy, Floating.eq] at ht
      | str s =>
        have hs : s = "" := by simpa [Json.truthy] using ht
        simp [integerOf, hs, hempty] at hi
      | _ => simp [integerOf] at hi
  refine ⟨hnumber, ?_⟩
  rw [integerOf_of_number hnumber, Except.ok.injEq] at hi
  exact hi.symm

/-- The date both importers read: none, or one that is written in a format the API importer knows. -/
def SameDate (env : Environment) (row : ContentRow) : Prop :=
  ∀ text, row.publishDate = some (.json (.str text)) → text ≠ "" →
    text ≠ "null" ∧ env.writtenTime text = .ok (Api.dateFormats.findSome? fun format => env.strptime text format)

theorem publishDateOf_text {env : Environment} {row : ContentRow} {text : String} {date : Option Instant}
    (hrow : row.publishDateItem = .ok (.json (.str text))) (hempty : text ≠ "") (h : publishDateOf env row = .ok date) :
    ∃ t, env.writtenTime text = .ok (some t) ∧ date = some t := by
  rw [publishDateOf, hrow, bind_eq_ok] at h
  obtain ⟨item, hitem, h⟩ := h
  cases hitem
  split at h
  · rename_i he
    cases he
  · rename_i he
    cases he
    exact absurd rfl hempty
  · rename_i he
    cases he
    rw [bind_eq_ok] at h
    obtain ⟨t, ht, h⟩ := h
    cases t with
    | none => cases h
    | some t => exact ⟨t, ht, (Except.ok.inj h).symm⟩
  · rename_i hother he
    cases he
    exact absurd rfl (hother text)

theorem publishDateOf_other {env : Environment} {row : ContentRow} {value : Json} {date : Option Instant}
    (hrow : row.publishDateItem = .ok (.json value)) (hother : ∀ text, value ≠ .str text)
    (h : publishDateOf env row = .ok date) : date = none := by
  rw [publishDateOf, hrow, bind_eq_ok] at h
  obtain ⟨item, hitem, h⟩ := h
  cases hitem
  split at h
  · rename_i he
    cases he
  · rename_i he
    cases he
    exact absurd rfl (hother _)
  · rename_i he
    cases he
    exact absurd rfl (hother _)
  · rename_i he
    cases he
    split at h
    · cases h
    · exact (Except.ok.inj h).symm

theorem publishDate_iff {env : Environment} {row : ContentRow} {date date' : Option Instant}
    (h : publishDateOf env row = .ok date)
    (h' : (row.publishDateItem >>= Api.updatePublishDate env none) = .ok date') :
    date = date' ↔ SameDate env row := by
  rw [bind_eq_ok] at h'
  obtain ⟨item, hitem, h'⟩ := h'
  have hrow : row.publishDate = some item := by
    have hi := hitem
    rw [ContentRow.publishDateItem] at hi
    split at hi
    · cases hi
      assumption
    · cases hi
  unfold SameDate
  rw [hrow]
  cases item with
  | datetime t => cases h'
  | json value =>
    by_cases hother : ∀ text, value ≠ .str text
    · have hd : date' = none := by
        cases value with
        | str text => exact absurd rfl (hother text)
        | _ =>
          rw [Api.updatePublishDate] at h'
          · split at h'
            · cases h'
            · exact (Except.ok.inj h').symm
          · simp
          · simp
          · simp
      rw [publishDateOf_other hitem hother h, hd]
      simp [hother]
    · obtain ⟨text, rfl⟩ : ∃ text, value = .str text := by simpa using hother
      by_cases hempty : text = ""
      · subst hempty
        have hd : date = none := by
          simp only [publishDateOf, hitem, bind, Except.bind, Except.ok.injEq] at h
          exact h.symm
        simp only [Api.updatePublishDate, Except.ok.injEq] at h'
        simp [hd, ← h']
      · obtain ⟨t, ht, rfl⟩ := publishDateOf_text hitem hempty h
        by_cases hnull : text = "null"
        · subst hnull
          simp only [Api.updatePublishDate, Except.ok.injEq] at h'
          simp [← h']
        · have hd : date' = Api.dateFormats.findSome? fun format => env.strptime text format := by
            rw [Api.updatePublishDate] at h'
            · cases hf : Api.dateFormats.findSome? fun format => env.strptime text format with
              | none => simpa [hf, eq_comm] using h'
              | some d => simpa [hf, Api.laterDate, eq_comm] using h'
            · exact fun he => hnull he
            · exact fun he => hempty he
          rw [hd]
          simp [hempty, hnull, ht]

def SameSummary (env : Environment) (row : ContentRow) : Prop :=
  row.get? "summary" = none →
    ∀ generic, row.get? "generic" = some generic → generic.truthy = false → textOf env.toLibrary generic = .ok ""

theorem summary_iff {env : Environment} {row : ContentRow} {generic value : Json} {summary summary' : String}
    (hgeneric : row.get? "generic" = some generic) (hvalue : Api.itemOr row "generic" (.str "") = .ok value)
    (h : required (textOf env.toLibrary) ((row.get? "summary").getD generic) = .ok summary)
    (h' : required (textOf env.toLibrary) ((row.get? "summary").getD value) = .ok summary') :
    summary = summary' ↔ SameSummary env row := by
  obtain ⟨item, hitem, rfl⟩ := itemOr_eq_ok.mp hvalue
  obtain rfl : generic = item := Option.some.inj (hgeneric.symm.trans hitem)
  unfold SameSummary
  cases hs : row.get? "summary" with
  | some text =>
    simp only [hs, Option.getD_some] at h h'
    simp [Except.ok.inj (h.symm.trans h')]
  | none =>
    simp only [hs, Option.getD_none] at h h'
    cases ht : generic.truthy with
    | true =>
      simp only [ht, if_true] at h'
      simp [Except.ok.inj (h.symm.trans h'), hgeneric, ht]
    | false =>
      simp only [ht, Bool.false_eq_true, if_false] at h'
      have hempty : summary' = "" := by
        have he : required (textOf env.toLibrary) (.str "") = .ok "" := rfl
        exact Except.ok.inj (h'.symm.trans he)
      have htext : textOf env.toLibrary generic = .ok summary := by
        cases generic with
        | null => cases h
        | _ => exact h
      simp [hgeneric, ht, htext, hempty]

/-- The pathway of a resolution risk, if there is one, is that of the row's component as well. -/
def SamePathway (env : Environment) (pathways : List Pathway) (row : ContentRow) : Prop :=
  ∀ name pathway, row.get? "resolution_risk" = some (.str name) →
    pathways.reverse.find? (fun p => p.resolutionRiskName = name) = some pathway →
    name ≠ "" ∧ ∃ component, row.get? "component" = some component ∧ component.truthy = true ∧
      textOf env.toLibrary component = .ok pathway.component

theorem textOf_str {lib : Library} {s t : String} (h : textOf lib (.str s) = .ok t) : t = s := by
  simp only [textOf] at h
  split at h
  · cases h
  · exact (Except.ok.inj h).symm

theorem mem_pathwaysOf {db : Database} {text risk : String} {p : Pathway} :
    p ∈ (db.pathways.filter fun p => p.component = text && p.resolutionRiskName = risk) ↔
      p ∈ db.pathways ∧ p.component = text ∧ p.resolutionRiskName = risk := by
  simp [List.mem_filter]

theorem pathwayOf_cases {env : Environment} {db : Database} {row : ContentRow} {name : String} {pathway : Option String}
    (hname : row.get? "resolution_risk" = some (.str name)) (h : Api.pathwayOf env db row = .ok pathway) :
    ((name = "" ∨ ((row.get? "component").getD .null).truthy = false) ∧ pathway = none) ∨
      name ≠ "" ∧ ∃ component text, row.get? "component" = some component ∧ component.truthy = true ∧
        textOf env.toLibrary component = .ok text ∧
          ((db.pathways.filter (fun p => p.component = text && p.resolutionRiskName = name) = [] ∧ pathway = none) ∨
            ∃ q, db.pathways.filter (fun p => p.component = text && p.resolutionRiskName = name) = [q] ∧
              pathway = some q.slug) := by
  rw [Api.pathwayOf, hname, Option.getD_some] at h
  have hrisk : (Json.str name).truthy = true ↔ name ≠ "" := by simp [Json.truthy]
  by_cases hboth : ((row.get? "component").getD .null).truthy = true ∧ (Json.str name).truthy = true
  · rw [if_pos (by simpa using hboth)] at h
    simp only [bind_eq_ok] at h
    obtain ⟨text, htext, risk, hr, h⟩ := h
    obtain rfl := textOf_str hr
    refine .inr ⟨hrisk.mp hboth.2, ?_⟩
    cases hcomponent : row.get? "component" with
    | none => simp [hcomponent, Json.truthy] at hboth
    | some component =>
      rw [hcomponent, Option.getD_some] at htext hboth
      refine ⟨component, text, rfl, hboth.1, htext, ?_⟩
      split at h
      · rename_i hnil
        exact .inl ⟨hnil, (Except.ok.inj h).symm⟩
      · rename_i q hq
        exact .inr ⟨q, hq, (Except.ok.inj h).symm⟩
      · cases h
  · rw [if_neg (by simpa using hboth)] at h
    refine .inl ⟨?_, (Except.ok.inj h).symm⟩
    rw [hrisk, not_and_or, not_not, Bool.not_eq_true] at hboth
    exact hboth.symm

theorem samePathway_of_none {env : Environment} {pathways : List Pathway} {row : ContentRow} {name : String}
    (hname : row.get? "resolution_risk" = some (.str name))
    (hfind : pathways.reverse.find? (fun p => p.resolutionRiskName = name) = none) : SamePathway env pathways row := by
  intro name' p hname' hp
  obtain rfl : name = name' := by simpa using hname.symm.trans hname'
  simp [hfind] at hp

theorem samePathway_iff {env : Environment} {pathways : List Pathway} {row : ContentRow} {name : String} {p : Pathway}
    (hname : row.get? "resolution_risk" = some (.str name))
    (hfind : pathways.reverse.find? (fun p => p.resolutionRiskName = name) = some p) :
    SamePathway env pathways row ↔ name ≠ "" ∧ ∃ component, row.get? "component" = some component ∧
      component.truthy = true ∧ textOf env.toLibrary component = .ok p.component := by
  constructor
  · exact fun hsame => hsame name p hname hfind
  · intro hsame name' p' hname' hp'
    obtain rfl : name = name' := by simpa using hname.symm.trans hname'
    obtain rfl : p = p' := Option.some.inj (hfind.symm.trans hp')
    exact hsame

theorem pathway_iff {env : Environment} {db : Database} {row : ContentRow} {name : String} {pathway : Option String}
    (hslugs : (db.pathways.map Pathway.slug).Nodup) (hname : row.get? "resolution_risk" = some (.str name))
    (h : Api.pathwayOf env db row = .ok pathway) :
    resolutionRiskToPathway db.pathways name = pathway ↔ SamePathway env db.pathways row := by
  have hcases := pathwayOf_cases hname h
  rw [resolutionRiskToPathway]
  cases hfind : db.pathways.reverse.find? fun p => p.resolutionRiskName = name with
  | none =>
    -- no pathway has the risk, whatever its component
    refine iff_of_true ?_ (samePathway_of_none hname hfind)
    rw [Option.map_none]
    rcases hcases with ⟨-, rfl⟩ | ⟨-, component, text, -, -, -, ⟨-, rfl⟩ | ⟨q, hq, rfl⟩⟩
    · rfl
    · rfl
    · obtain ⟨hmem, -, hqname⟩ := mem_pathwaysOf.mp (hq ▸ List.mem_singleton_self q)
      have hmiss := List.find?_eq_none.mp hfind q (List.mem_reverse.mpr hmem)
      exact absurd (by simpa using hqname) hmiss
  | some p =>
    have hp : p ∈ db.pathways := List.mem_reverse.mp (List.mem_of_find?_eq_some hfind)
    have hpname : p.resolutionRiskName = name := by simpa using List.find?_some hfind
    rw [samePathway_iff hname hfind, Option.map_some]
    rcases hcases with ⟨hfalsy, rfl⟩ | ⟨hne, component, text, hcomponent, htruthy, htext, hmatching⟩
    · refine iff_of_false (by simp) ?_
      rintro ⟨hne, component, hcomponent, htruthy, -⟩
      rw [hcomponent, Option.getD_some, htruthy] at hfalsy
      exact hne (hfalsy.resolve_right (by simp))
    · have hsame : (name ≠ "" ∧ ∃ component, row.get? "component" = some component ∧ component.truthy = true ∧
          textOf env.toLibrary component = .ok p.component) ↔ p.component = text := by
        constructor
        · rintro ⟨-, component', hcomponent', -, htext'⟩
          obtain rfl := Option.some.inj (hcomponent.symm.trans hcomponent')
          exact Except.ok.inj (htext'.symm.trans htext)
        · exact fun heq => ⟨hne, component, hcomponent, htruthy, by rw [htext, heq]⟩
      rw [hsame]
      rcases hmatching with ⟨hnil, rfl⟩ | ⟨q, hq, rfl⟩
      · refine iff_of_false (by simp) fun hcomp => ?_
        have hin := mem_pathwaysOf.mpr ⟨hp, hcomp, hpname⟩
        rw [hnil] at hin
        cases hin
      · obtain ⟨hqmem, hqtext, -⟩ := mem_pathwaysOf.mp (hq ▸ List.mem_singleton_self q)
        constructor
        · intro hslug
          rw [List.inj_on_of_nodup_map hslugs hp hqmem (Option.some.inj hslug), hqtext]
        · intro hcomp
          have hin := mem_pathwaysOf.mpr ⟨hp, hcomp, hpname⟩
          rw [hq, List.mem_singleton] at hin
          rw [hin]

theorem importRule_new {env : Environment} {settings : Api.Settings} {ruleset : String} {row : ContentRow}
    {s s' : Api.State} (hnew : ∀ rule ∈ s.db.rules, rule.ruleId ≠ row.ruleId)
    (h : Api.importRule env settings ruleset row s = (.ok (), s')) :
    ∃ rule, Api.newRule env settings s.db ruleset row = .ok rule ∧
      s'.db = { s.db with rules := s.db.rules ++ [rule] } := by
  have hfind : s.db.rules.find? (fun rule => rule.ruleset = ruleset && rule.ruleId = row.ruleId) = none := by
    rw [List.find?_eq_none]
    intro rule hrule
    simp [hnew rule hrule]
  rw [Api.importRule, read_bind, hfind] at h
  simp only [run_bind_eq_ok, run_lift_eq_ok] at h
  obtain ⟨rule, _, ⟨hrule, rfl⟩, rules, _, ⟨hunique, rfl⟩, h⟩ := h
  obtain ⟨-, rfl⟩ := checkUnique_eq_ok.mp hunique
  rw [Api.modify, write, Prod.mk.injEq] at h
  exact ⟨rule, hrule, by rw [← h.2]⟩

/-- Of the rules with the id of a row, the deletion takes all or none: it takes those without an id. -/
theorem ruleOf_deleteExtraRules {content : List ContentRow} {db : Database} {row : ContentRow} (hrow : row ∈ content) :
    ruleOf (Api.deleteExtraRules content db) row.ruleId =
      if row.ruleId = "" then none else (db.rules.filter fun rule => rule.ruleId = row.ruleId).head? := by
  rw [ruleOf, ← List.head?_filter]
  simp only [Api.deleteExtraRules]
  rw [List.filter_filter]
  by_cases hempty : row.ruleId = ""
  · rw [if_pos hempty]
    have hnil : (db.rules.filter fun rule => decide (rule.ruleId = row.ruleId) &&
        (rule.ruleId ≠ "" && (content.map ContentRow.ruleId).contains rule.ruleId)) = [] := by
      rw [List.filter_eq_nil_iff]
      intro rule _
      simpa [hempty] using fun he hne => absurd he hne
    rw [hnil, List.head?_nil]
  · rw [if_neg hempty]
    have hsame : (db.rules.filter fun rule => decide (rule.ruleId = row.ruleId) &&
        (rule.ruleId ≠ "" && (content.map ContentRow.ruleId).contains rule.ruleId)) =
        db.rules.filter fun rule => rule.ruleId = row.ruleId := by
      refine List.filter_congr fun rule _ => ?_
      by_cases he : rule.ruleId = row.ruleId
      · have hmem := List.mem_map_of_mem (f := ContentRow.ruleId) hrow
        simp [he, hempty, hmem]
      · simp [he]
    rw [hsame]

theorem exists_split {content : List ContentRow} {row : ContentRow}
    (hone : (content.filter fun other => other.ruleId = row.ruleId) = [row]) :
    ∃ pre post, content = pre ++ row :: post ∧ (∀ other ∈ pre, other.ruleId ≠ row.ruleId) ∧
      ∀ other ∈ post, other.ruleId ≠ row.ruleId := by
  obtain ⟨pre, post, hcontent, hpre, -, hpost⟩ := List.filter_eq_cons_iff.mp hone
  refine ⟨pre, post, hcontent, fun other ho => by simpa using hpre other ho, fun other ho => ?_⟩
  simpa using List.filter_eq_nil_iff.mp hpost other ho

theorem importAll_new {env : Environment} {settings : Api.Settings} {config : Api.Config} {content : List ContentRow}
    {s s' : Api.State} {row : ContentRow} {ruleset : String} (h : Api.importAll env settings config content s = (.ok (), s'))
    (hnew : ∀ rule ∈ s.db.rules, rule.ruleId ≠ row.ruleId)
    (hone : (content.filter fun other => other.ruleId = row.ruleId) = [row])
    (hto : Api.importedTo (Api.rulesetStartswith s.db) row = some ruleset) :
    ∃ db rule pathway, Api.NewFieldsOf env settings db row rule ∧ Api.pathwayOf env s.db row = .ok pathway ∧
      (∀ impact, config.impact = some impact → ∀ lv ∈ db.impacts,
        ∃ value, impact.get? lv.name = some (lv.name, value) ∧ level env.toLibrary lv.name value = .ok lv) ∧
      ruleOf s'.db row.ruleId = if row.ruleId = "" then none else some { rule with pathway } := by
  obtain ⟨t, hgraded, himpacts, ⟨hnil, -⟩ | ⟨u, hrows, rfl⟩⟩ := Api.importAll_ok h
  · rw [Api.importedTo_nil (hgraded.rulesets.symm.trans hnil)] at hto
    cases hto
  · have hrulesets : Api.rulesetStartswith t.db = Api.rulesetStartswith s.db := by
      rw [Api.rulesetStartswith, hgraded.rulesets, Api.rulesetStartswith]
    rw [hrulesets] at hrows
    obtain ⟨pre, post, hcontent, hpre, hpost⟩ := exists_split hone
    rw [hcontent] at hrows
    obtain ⟨a, b, ha, hb, hu⟩ := Api.each_split hrows
    have hbefore : Api.Apart row.ruleId t a :=
      (Api.importRows_apart fun other ho he => absurd he (hpre other ho)).of_eq ha
    have hafter : Api.Apart row.ruleId b u :=
      (Api.importRows_apart fun other ho he => absurd he (hpost other ho)).of_eq hu
    have hta : ∀ rule ∈ t.db.rules, rule.ruleId ≠ row.ruleId := by
      obtain ⟨f, hf⟩ := hgraded.rules
      rw [hf]
      intro rule hrule
      obtain ⟨old, hold, rfl⟩ := List.mem_map.mp hrule
      exact hnew old hold
    have hfresh : ∀ rule ∈ a.db.rules, rule.ruleId ≠ row.ruleId := by
      have hnone : (a.db.rules.filter fun rule => rule.ruleId = row.ruleId) = [] := by
        rw [hbefore.rules, List.filter_eq_nil_iff]
        intro rule hrule
        simpa using hta rule hrule
      intro rule hrule
      simpa using List.filter_eq_nil_iff.mp hnone rule hrule
    obtain ⟨c, d, pathway, hrule, haside, hpathway, hrules⟩ := Api.importRow_ok hto hb
    obtain ⟨rule, hrule, hc⟩ := importRule_new hfresh hrule
    have hfields := Api.newRule_ok hrule
    refine ⟨a.db, rule, pathway, hfields, ?_, ?_, ?_⟩
    · rw [← hpathway, Api.pathwayOf, Api.pathwayOf, haside.pathways, hc, hbefore.pathways, hgraded.pathways]
    · rw [hbefore.impacts]
      exact fun impact hconfig level hlevel => Api.impactsAfter_mem hconfig himpacts hlevel
    · have hid := hfields.ruleId
      have hb : (b.db.rules.filter fun rule => rule.ruleId = row.ruleId) = [{ rule with pathway }] := by
        rw [hrules, haside.rules, hc, List.map_append, List.filter_append]
        have hnil : ((a.db.rules.map fun rule => if rule.ruleId = row.ruleId then { rule with pathway } else rule).filter
            fun rule => rule.ruleId = row.ruleId) = [] := by
          rw [List.filter_eq_nil_iff]
          intro other ho
          obtain ⟨old, hold, rfl⟩ := List.mem_map.mp ho
          simp [hfresh old hold]
        rw [hnil, List.nil_append]
        simp [hid]
      have hrow : row ∈ content := by
        rw [hcontent]
        exact List.mem_append_right _ List.mem_cons_self
      rw [ruleOf_deleteExtraRules hrow, hafter.rules, hb, List.head?_cons]

theorem exists_importedTo {db : Database} {row : ContentRow} {found : String}
    (h : findRulesetModel db.rulesets row = .ok found) :
    ∃ ruleset, Api.importedTo (Api.rulesetStartswith db) row = some ruleset := by
  rw [findRulesetModel, bind_eq_ok] at h
  obtain ⟨value, hvalue, h⟩ := h
  cases value with
  | str module =>
    simp only at h
    cases hfind : (Dict.ofEntries (db.rulesets.map fun r => (r.moduleStartsWith, r.ruleSource))).rows.find? fun e =>
        e.1.toList.isPrefixOf module.toList with
    | none => simp [hfind] at h
    | some e =>
      have he : e.1.toList.isPrefixOf module.toList = true := by simpa using List.find?_some hfind
      obtain ⟨r, hr, hre⟩ := List.mem_map.mp (Dict.mem_of_mem_ofEntries (List.mem_of_find?_eq_some hfind))
      obtain ⟨stored, hget, -⟩ := Dict.exists_get?_ofEntries (List.mem_map_of_mem
        (f := fun ruleset : RuleSet => (ruleset.moduleStartsWith, ruleset)) hr)
      have hsome : ((Api.rulesetStartswith db).rows.find? fun e => e.1.toList.isPrefixOf module.toList).isSome := by
        rw [List.find?_isSome]
        refine ⟨_, List.mem_of_find?_eq_some hget, ?_⟩
        rw [← hre] at he
        exact he
      obtain ⟨d, hd⟩ := Option.isSome_iff_exists.mp hsome
      refine ⟨d.2.ruleSource, ?_⟩
      rw [Api.importedTo, item_eq_ok.mp hvalue, Option.bind_some, Api.rulesetOf, hd]
      rfl
  | _ => cases h

/-- Where the importers store the same rule. -/
structure Comparable (env : Environment) (config : Config) (pathways : List Pathway) (row : ContentRow) : Prop where
  named : row.ruleId ≠ ""
  risk : ∀ likelihood risk impact, Scales env.toLibrary config row likelihood risk impact →
    truncate ((truncate likelihood + risk) / 2) = truncate ((likelihood + impact) / 2)
  impact : row.get? "impact" ≠ some (.str "")
  publishDate : SameDate env row
  summary : SameSummary env row
  pathway : SamePathway env pathways row

/-- For whole numbers, two levels grade a likelihood alike only where they are the same, or next to each other with
the same half of the sum. -/
theorem truncate_half_eq_iff {l r i : Nat} :
    truncate ((truncate (l : ℚ) + r) / 2) = truncate (((l : ℚ) + i) / 2) ↔
      r = i ∨ (i = r + 1 ∧ (l + r) % 2 = 0) ∨ (r = i + 1 ∧ (l + i) % 2 = 0) := by
  have hl : truncate (l : ℚ) = (l : Int) := by exact_mod_cast truncate_intCast l
  have hleft : truncate ((truncate (l : ℚ) + r) / 2) = ((l + r) / 2 : Nat) := by
    rw [hl, Int.cast_natCast, ← Nat.cast_add]
    exact truncate_half (l + r)
  have hright : truncate (((l : ℚ) + i) / 2) = ((l + i) / 2 : Nat) := by
    rw [← Nat.cast_add]
    exact truncate_half (l + i)
  rw [hleft, hright]
  omega

section

variable {env : Environment} {config : Config} {settings : Api.Settings} {db dbA : Database} {row : ContentRow}
  {fields rule : Rule} {impact : Level} {name : String}

theorem impactOf_str (hgot : row.get? "impact" = some (.str name)) (h : Api.impactOf env dbA row = .ok (some impact)) :
    impact.name = (if name = "" then "null" else name) ∧ impact ∈ dbA.impacts := by
  simp only [Api.impactOf, bind_eq_ok] at h
  obtain ⟨item, hitem, hobject⟩ := h
  obtain ⟨_, hget, rfl⟩ := itemOr_eq_ok.mp hitem
  obtain rfl := Option.some.inj (hgot.symm.trans hget)
  have hitem : (if (Json.str name).truthy then Json.str name else .str "null") =
      .str (if name = "" then "null" else name) := by
    by_cases hempty : name = "" <;> simp [Json.truthy, hempty]
  rw [hitem] at hobject
  simp only [Api.getForeignKeyObject, bind_eq_ok, Except.ok.injEq] at hobject
  obtain ⟨text, htext, hfind⟩ := hobject
  rw [← textOf_str htext]
  exact ⟨by simpa using List.find?_some hfind, List.mem_of_find?_eq_some hfind⟩

theorem likelihood_eq (hempty : env.intOfText "" = none) (hspec : FieldsOf env config db row fields)
    (hnew : Api.NewFieldsOf env settings dbA row rule) :
    fields.likelihood = rule.likelihood ∧ ∃ value l, row.get? "likelihood" = some value ∧
      value.number = some (.finite l) ∧ (if value.truthy then value else .int 0).number = some (.finite l) ∧
        (fields.likelihood : Int) = truncate l := by
  obtain ⟨value, i, hvalue, hi, hsmall⟩ := hspec.likelihood
  obtain ⟨likelihood, impact, hlikelihood, -, -, htotal⟩ := hnew.risk
  obtain ⟨item, hitem, rfl⟩ := itemOr_eq_ok.mp hlikelihood
  obtain rfl := Option.some.inj ((item_eq_ok.mp hvalue).symm.trans hitem)
  obtain ⟨l, lv, hl, -, -⟩ := average_eq_ok.mp htotal
  obtain ⟨hnumber, hil⟩ := number_of_likelihood hempty hi hl
  obtain ⟨hsmallLikelihood, -⟩ := smallInteger_eq_ok.mp hsmall
  have htruncated : (fields.likelihood : Int) = truncate l := by rw [← hil, hsmallLikelihood]
  refine ⟨?_, value, l, item_eq_ok.mp hvalue, hnumber, hl, htruncated⟩
  obtain ⟨v, hv, hint⟩ := bind_eq_ok.mp hnew.likelihood
  obtain rfl := Except.ok.inj (hlikelihood.symm.trans hv)
  have hread : required (integerOf env.toLibrary) (if value.truthy then value else .int 0) = .ok (truncate l) := by
    rw [← integerOf_of_number hl]
    cases hnull : (if value.truthy then value else Json.int 0) with
    | null => simp [hnull, Json.number] at hl
    | _ => rfl
  have he := Except.ok.inj (hint.symm.trans hread)
  rw [← htruncated] at he
  exact Int.ofNat_inj.mp he.symm

theorem totalRisk_iff (hempty : env.intOfText "" = none) (hspec : FieldsOf env config db row fields)
    (hnew : Api.NewFieldsOf env settings dbA row rule) (himpact : Api.impactOf env dbA row = .ok (some impact))
    (hscale : ∃ name entries value lv, row.get? "impact" = some (.str name) ∧ config.forApi.impact = some entries ∧
      entries.get? name = some (name, value) ∧ level env.toLibrary name value = .ok lv ∧ lv.level = impact.level) :
    ∃ l r, Scales env.toLibrary config row l r impact.level ∧ (fields.totalRisk = rule.totalRisk ↔
      truncate ((truncate l + r) / 2) = truncate ((l + impact.level) / 2)) := by
  obtain ⟨-, value, l, hvalue, hnumber, hl, htruncated⟩ := likelihood_eq hempty hspec hnew
  obtain ⟨likelihood, impact', hlikelihood, himpact', -, hother⟩ := hnew.risk
  obtain rfl := Option.some.inj (Except.ok.inj (himpact.symm.trans himpact'))
  obtain ⟨item, hitem, rfl⟩ := itemOr_eq_ok.mp hlikelihood
  obtain rfl := Option.some.inj (hvalue.symm.trans hitem)
  obtain ⟨l', lv, hl', hlv, hother⟩ := average_eq_ok.mp hother
  obtain rfl : l = l' := by simpa [hl] using hl'
  obtain ⟨riskItem, risk, total, hriskItem, hrisk, haverage, htotal, -⟩ := hspec.risk
  obtain ⟨rfl, hriskGet⟩ := resolutionRiskToRisk_eq_ok hrisk
  obtain ⟨p, r, hp, hr, hsum⟩ := average_eq_ok.mp haverage
  obtain ⟨htotalRisk, -⟩ := smallInteger_eq_ok.mp htotal
  refine ⟨l, r, ⟨⟨value, hvalue, hnumber⟩, ⟨risk.1, risk.2, item_eq_ok.mp hriskItem, hriskGet, hr⟩, hscale⟩, ?_⟩
  have hpl : p = truncate l := by
    have he : (fields.likelihood : Int) = p := by simpa [Json.number] using hp
    rw [← htruncated]
    exact_mod_cast he.symm
  have hlvl : lv = impact.level := by simpa [Json.number, eq_comm] using hlv
  rw [← hpl, hsum, ← hlvl, hother, htotalRisk]
  exact Int.ofNat_inj.symm

theorem active_eq (hcve : settings.disableCveRules = false) (hspec : FieldsOf env config db row fields)
    (hnew : Api.NewFieldsOf env settings dbA row rule) : fields.active = rule.active := by
  obtain ⟨status, hstatus, hactive⟩ := hspec.active
  have hother := hnew.active
  rw [Api.activeOf, Api.disableCveRule, hcve, hstatus] at hother
  rw [hactive]
  exact Except.ok.inj hother

theorem rebootRequired_eq (hspec : FieldsOf env config db row fields)
    (hnew : Api.NewFieldsOf env settings dbA row rule) : fields.rebootRequired = rule.rebootRequired := by
  obtain ⟨reboot, hreboot, hcolumn⟩ := hspec.rebootRequired
  have hother := hnew.rebootRequired
  rw [item_eq_ok.mp hreboot, Option.getD_some] at hother
  exact Except.ok.inj (hcolumn.symm.trans hother)

end

/-- Over a database without the rule, both importers store it with the same fields exactly where its row is
comparable. -/
theorem agree_iff {env : Environment} {listing : Listing} {settings : Api.Settings} {sources : Sources}
    {db after : Database} {s s' : Api.State} {row : ContentRow} (hempty : env.intOfText "" = none)
    (hcve : settings.disableCveRules = false) (hunique : (db.rules.map Rule.ruleId).Nodup)
    (hslugs : (db.pathways.map Pathway.slug).Nodup) (hnew : ∀ rule ∈ db.rules, rule.ruleId ≠ row.ruleId)
    (hone : (sources.content.filter fun other => other.ruleId = row.ruleId) = [row])
    (h : handle env listing sources db = .ok after)
    (h' : Api.importAll env settings sources.config.forApi sources.content { s with db } = (.ok (), s')) :
    Agree after s'.db row.ruleId ↔ Comparable env sources.config db.pathways row := by
  have hrow : rowOf sources.content row.ruleId = some row := by
    rw [rowOf, ← List.head?_filter, List.filter_reverse, hone]
    rfl
  obtain ⟨db₁, fields, hpathways, hrulesets, hfields, hafter⟩ := ruleOf_handle h hunique hrow
  have hstored : storedDate db row.ruleId = none := by
    have hnone : ruleOf db row.ruleId = none := by
      rw [ruleOf, List.find?_eq_none]
      intro rule hrule
      simpa using hnew rule hrule
    rw [storedDate, hnone, Option.bind_none]
  rw [hstored, Option.or_none] at hafter
  have hspec := ruleContentToModelFields_ok env hfields
  have hfound := hspec.ruleset
  rw [hrulesets] at hfound
  obtain ⟨ruleset, hto⟩ := exists_importedTo hfound
  obtain ⟨dbA, rule, pathway, hnewFields, hpathway, himpacts, hafter'⟩ := importAll_new h' hnew hone hto
  by_cases hid : row.ruleId = ""
  · -- the API importer deletes what has no id
    rw [if_pos hid] at hafter'
    refine ⟨fun hagree => ?_, fun hcomparable => absurd hid hcomparable.named⟩
    obtain ⟨_, _, -, hnone, -⟩ := hagree
    simp [hafter'] at hnone
  rw [if_neg hid] at hafter'
  have hagree : Agree after s'.db row.ruleId ↔ SameFields fields { rule with pathway } := by
    refine ⟨fun hagree => ?_, fun hsame => ⟨_, _, hafter, hafter', hsame⟩⟩
    obtain ⟨stored, stored', hs, hs', hsame⟩ := hagree
    obtain rfl : fields = stored := Option.some.inj (hafter.symm.trans hs)
    obtain rfl := Option.some.inj (hafter'.symm.trans hs')
    exact hsame
  rw [hagree]
  obtain ⟨name, hname, -, himpact⟩ := hspec.impact
  obtain ⟨-, impact, -, himpactOf, himpact', -⟩ := hnewFields.risk
  have hgot := item_eq_ok.mp hname
  obtain ⟨hlevelName, hlevelIn⟩ := impactOf_str hgot himpactOf
  by_cases hnull : name = ""
  · -- the API importer takes an empty impact for "null"
    subst hnull
    refine ⟨fun hsame => ?_, fun hcomparable => absurd hgot hcomparable.impact⟩
    have hsameImpact := hsame.impact
    rw [himpact, himpact', hlevelName] at hsameImpact
    simp at hsameImpact
  rw [if_neg hnull] at hlevelName
  obtain ⟨raw, hraw, hlevel⟩ := himpacts _ rfl impact hlevelIn
  obtain ⟨l, r, hscales, hgraded⟩ := totalRisk_iff hempty hspec hnewFields himpactOf
    ⟨impact.name, _, raw, impact, by rw [hlevelName]; exact hgot, rfl, hraw, hlevel, rfl⟩
  have hlikelihood := (likelihood_eq hempty hspec hnewFields).1
  have hactive := active_eq hcve hspec hnewFields
  have hreboot := rebootRequired_eq hspec hnewFields
  have hdate := publishDate_iff hspec.publishDate hnewFields.publishDate
  obtain ⟨generic, hgeneric, hsummaryText⟩ := hspec.summary
  obtain ⟨generic', hgeneric', hsummaryText'⟩ := hnewFields.summary
  have hsummary := summary_iff (item_eq_ok.mp hgeneric) hgeneric' hsummaryText hsummaryText'
  obtain ⟨riskItem, risk, -, hriskItem, hrisk, -, -, hpathway'⟩ := hspec.risk
  obtain ⟨rfl, -⟩ := resolutionRiskToRisk_eq_ok hrisk
  have hway := pathway_iff hslugs (item_eq_ok.mp hriskItem) hpathway
  rw [hpathways] at hpathway'
  constructor
  · intro hsame
    refine ⟨hid, fun l' r' i' hscales' => ?_, by simp [hgot, hnull], hdate.mp hsame.publishDate,
      hsummary.mp hsame.summary, hway.mp (hpathway'.symm.trans hsame.pathway)⟩
    obtain ⟨rfl, rfl, rfl⟩ := hscales.unique hscales'
    exact hgraded.mp hsame.totalRisk
  · intro hcomparable
    exact {
      totalRisk := hgraded.mpr (hcomparable.risk l r impact.level hscales)
      impact := by rw [himpact, himpact', hlevelName]
      likelihood := hlikelihood
      active := hactive
      publishDate := hdate.mpr hcomparable.publishDate
      rebootRequired := hreboot
      summary := hsummary.mpr hcomparable.summary
      pathway := hpathway'.trans (hway.mpr hcomparable.pathway) }

def started : Api.State := { db := fixtures }

theorem agree_iff_hidden :
    ∃ after s', handle plainEnvironment plainListing hiddenSources fixtures = .ok after ∧
      Api.importAll plainEnvironment ⟨false, 0⟩ hiddenSources.config.forApi hiddenSources.content started = (.ok (), s') ∧
      (Agree after s'.db hiddenRule.ruleId ↔
        Comparable plainEnvironment hiddenSources.config fixtures.pathways hiddenRule) := by
  have h : isOk (handle plainEnvironment plainListing hiddenSources fixtures) = true := by decide +kernel
  have h' : isOk (Api.importAll plainEnvironment ⟨false, 0⟩ hiddenSources.config.forApi hiddenSources.content
      started).1 = true := by decide +kernel
  obtain ⟨after, hafter⟩ := isOk_iff.mp h
  obtain ⟨_, hs⟩ := isOk_iff.mp h'
  exact ⟨after, _, hafter, Prod.ext hs rfl, agree_iff rfl rfl List.nodup_nil (by decide) (by simp [fixtures]) rfl
    hafter (s := started) (Prod.ext hs rfl)⟩

def riskySources : Sources := { hiddenSources with
  config := { hiddenSources.config with resolutionRisk := Dict.ofEntries [("Adjust Service Status", .int 4)] } }

theorem risky_graded_apart :
    ∃ after s', handle plainEnvironment plainListing riskySources fixtures = .ok after ∧
      Api.importAll plainEnvironment ⟨false, 0⟩ riskySources.config.forApi riskySources.content started = (.ok (), s') ∧
      ¬Agree after s'.db hiddenRule.ruleId := by
  have h : ((handle plainEnvironment plainListing riskySources fixtures).map fun after =>
      (ruleOf after hiddenRule.ruleId).map Rule.totalRisk) = .ok (some 2) := by decide +kernel
  have h' : (let result := Api.importAll plainEnvironment ⟨false, 0⟩ riskySources.config.forApi riskySources.content started
      (isOk result.1, (ruleOf result.2.db hiddenRule.ruleId).map Rule.totalRisk)) = (true, some 1) := by decide +kernel
  obtain ⟨after, hafter, htotal⟩ := map_eq_ok.mp h
  simp only [Prod.mk.injEq] at h'
  obtain ⟨_, hs⟩ := isOk_iff.mp h'.1
  refine ⟨after, _, hafter, Prod.ext hs rfl, ?_⟩
  rintro ⟨rule, rule', hrule, hrule', hsame⟩
  rw [hrule, Option.map_some, Option.some.injEq] at htotal
  have htotal' := h'.2
  rw [hrule', Option.map_some, Option.some.injEq, ← hsame.totalRisk] at htotal'
  omega

end Advisor.Importer
