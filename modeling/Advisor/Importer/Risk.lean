import Advisor.Importer.Agreement
import Advisor.Pathways.Aggregates
import Advisor.Service.Effects

/-! The total risk an importer stores, and the tables that are indexed by it elsewhere. -/

namespace Advisor.Importer

open Python Procedure Django Relational Management

def counted (counts : Service.InventoryViewCounts) : Nat :=
  counts.critical + counts.important + counts.moderate + counts.low

/-- An upload counts reports of rules of the risk, and a list of pathways takes them. -/
structure Usable (risk : Nat) : Prop where
  upload : ∀ (counts : Service.InventoryViewCounts) (rule : Advisor.Rule), rule.totalRisk = risk →
    ∃ counts', counts.update rule = .ok counts' ∧ counted counts' = counted counts + 1
  pathway : ∀ row : Pathways.Row, row.totalRisk = risk → Pathways.checkRisk row = .ok row

theorem update_counted (counts : Service.InventoryViewCounts) {rule : Advisor.Rule} (hlow : 1 ≤ rule.totalRisk)
    (hhigh : rule.totalRisk ≤ 4) : ∃ counts', counts.update rule = .ok counts' ∧ counted counts' = counted counts + 1 := by
  have hrisk : rule.totalRisk = 1 ∨ rule.totalRisk = 2 ∨ rule.totalRisk = 3 ∨ rule.totalRisk = 4 := by omega
  rcases hrisk with h | h | h | h <;> cases hincident : rule.hasIncident
  all_goals
    simp only [Service.InventoryViewCounts.update, h, hincident, if_true, Bool.false_eq_true, if_false, Except.ok.injEq,
      exists_eq_left', counted]
    omega

theorem usable_iff {risk : Nat} : Usable risk ↔ 1 ≤ risk ∧ risk ≤ 4 := by
  constructor
  · intro h
    have hrow := h.pathway ⟨0, risk, false, 0⟩ rfl
    by_contra hout
    obtain rfl | ⟨n, rfl⟩ : risk = 0 ∨ ∃ n, risk = n + 5 := by
      rcases Nat.eq_zero_or_pos risk with h0 | h0
      · exact Or.inl h0
      · exact Or.inr ⟨risk - 5, by omega⟩
    · cases hrow
    · cases hrow
  · rintro ⟨hlow, hhigh⟩
    refine ⟨fun counts rule hrule => update_counted counts (hrule ▸ hlow) (hrule ▸ hhigh), fun row hrow => ?_⟩
    have hrisk : risk = 1 ∨ risk = 2 ∨ risk = 3 ∨ risk = 4 := by omega
    rcases hrisk with h | h | h | h <;> simp only [Pathways.checkRisk, hrow, h]

/-- Pathways are listed when the rules that are reported all have a usable risk. -/
theorem forAccount_of_usable {request : Pathways.Request} {tables : Pathways.Tables} {impacting : Bool}
    (h : ∀ row ∈ Pathways.reportQuery request tables, Usable row.totalRisk) :
    ∃ pathways, Pathways.forAccount request tables impacting = .ok pathways :=
  ⟨_, Pathways.forAccount_eq impacting fun row hrow => usable_iff.mp (h row hrow)⟩

/-- A risk from 1 to 4, which is one that can be used. -/
structure Sound (risk : Nat) : Prop where
  low : 1 ≤ risk
  high : risk ≤ 4
  usable : Usable risk

theorem sound_iff {risk : Nat} : Sound risk ↔ 1 ≤ risk ∧ risk ≤ 4 :=
  ⟨fun h => ⟨h.low, h.high⟩, fun h => ⟨h.1, h.2, usable_iff.mpr h⟩⟩

def sum (a b : Json) : Except Exception ℚ :=
  match a.number, b.number with
  | some (.finite p), some (.finite q) => .ok (p + q)
  | some _, some _ => .error .valueError
  | _, _ => .error .typeError

theorem sum_of_average {a b : Json} {t : Int} (h : average a b = .ok t) : ∃ q, sum a b = .ok q ∧ truncate (q / 2) = t := by
  obtain ⟨p, q, hp, hq, ht⟩ := average_eq_ok.mp h
  exact ⟨p + q, by rw [sum, hp, hq], ht⟩

theorem truncate_nonpos {q : ℚ} (h : q ≤ 0) : truncate q ≤ 0 := by
  have hneg : (-q.num).tdiv q.den = -truncate q := Int.neg_tdiv _ _
  have hnum : 0 ≤ -q.num := by
    have := Rat.num_nonpos.mpr h
    omega
  have := Int.tdiv_nonneg hnum (Int.natCast_nonneg q.den)
  omega

theorem sound_half_iff {q : ℚ} {risk : Nat} (h : truncate (q / 2) = risk) : Sound risk ↔ 2 ≤ q ∧ q < 10 := by
  rw [sound_iff]
  rcases le_or_gt 0 q with hq | hq
  · rw [truncate_of_nonneg (by positivity)] at h
    have hlow : (1 : Int) ≤ risk ↔ 2 ≤ q := by
      rw [← h, Int.le_floor, Int.cast_one]
      constructor <;> intro hle <;> linarith
    have hhigh : (risk : Int) < 5 ↔ q < 10 := by
      rw [← h, Int.floor_lt]
      constructor <;> intro hlt <;> norm_num at hlt ⊢ <;> linarith
    rw [← hlow, ← hhigh]
    omega
  · have hzero : truncate (q / 2) ≤ 0 := truncate_nonpos (by linarith)
    constructor
    · intro hrisk
      omega
    · rintro ⟨hlow, -⟩
      linarith

/-- `int(content_row['likelihood'])` and the risk the config gives the resolution. -/
def Management.riskSum (env : Environment) (config : Config) (row : ContentRow) : Except Exception ℚ := do
  let likelihood ← integerOf env.toLibrary (← row.item "likelihood")
  let risk ← resolutionRiskToRisk env config (← row.item "resolution_risk")
  sum (.int likelihood) risk.2

/-- The likelihood, if there is one, and the level of the impact once the config has been imported. -/
def Api.riskSum (env : Environment) (config : Api.Config) (db : Database) (row : ContentRow) : Except Exception ℚ := do
  let impacts ← Api.impactsAfter env config db
  let impact ← present (← Api.impactOf env { db with impacts } row) .attributeError
  sum (← Api.itemOr row "likelihood" (.int 0)) (.int impact.level)

theorem Management.riskSum_of_fields {env : Environment} {config : Config} {db : Database} {row : ContentRow} {rule : Rule}
    (h : FieldsOf env config db row rule) :
    ∃ q, riskSum env config row = .ok q ∧ truncate (q / 2) = rule.totalRisk := by
  obtain ⟨value, i, hvalue, hi, hsmall⟩ := h.likelihood
  obtain ⟨riskItem, risk, total, hriskItem, hrisk, haverage, htotal, -⟩ := h.risk
  obtain ⟨rfl, -⟩ := smallInteger_eq_ok.mp hsmall
  obtain ⟨rfl, -⟩ := smallInteger_eq_ok.mp htotal
  obtain ⟨q, hq, hhalf⟩ := sum_of_average haverage
  refine ⟨q, ?_, hhalf⟩
  simp only [riskSum, bind_eq_ok]
  exact ⟨value, hvalue, _, hi, riskItem, hriskItem, risk, hrisk, hq⟩

namespace Api

variable {env : Environment} {settings : Settings}

theorem riskSum_of_fields {config : Config} {db db' : Database} {row : ContentRow} {rule : Rule}
    (himpacts : impactsAfter env config db = .ok db'.impacts) (h : FieldsOf env settings db' row rule) :
    ∃ q, riskSum env config db row = .ok q ∧ truncate (q / 2) = rule.totalRisk := by
  obtain ⟨likelihood, impact, hlikelihood, himpact, -, haverage⟩ := h.risk
  obtain ⟨q, hq, hhalf⟩ := sum_of_average haverage
  refine ⟨q, ?_, hhalf⟩
  simp only [riskSum, bind_eq_ok, present_eq_ok]
  exact ⟨_, himpacts, some impact, himpact, impact, rfl, likelihood, hlikelihood, hq⟩

theorem importRule_stores {ruleset : String} {row : ContentRow} {s s' : State}
    (h : importRule env settings ruleset row s = (.ok (), s')) :
    ∃ rule, FieldsOf env settings s.db row rule ∧ ∀ other ∈ s'.db.rules, other.ruleId = row.ruleId → other = rule := by
  obtain ⟨rule, hfields, ⟨stored, -, -, date, date', t, -, rfl⟩ | ⟨hnodup, rfl⟩⟩ := importRule_cases h
  · refine ⟨rule, hfields, fun other hother hid => ?_⟩
    obtain ⟨old, -, rfl⟩ := List.mem_map.mp hother
    by_cases hold : old.ruleId = rule.ruleId
    · rw [if_pos hold]
    · rw [if_neg hold, ← hfields.ruleId] at hid
      exact absurd hid hold
  · refine ⟨rule, hfields, fun other hother hid => ?_⟩
    exact List.inj_on_of_nodup_map hnodup hother (by simp) (hid.trans hfields.ruleId.symm)

theorem importRow_stores {rulesets : Dict String RuleSet} {accounts : List (Option String × String)} {row : ContentRow}
    {ruleset : String} {s s' : State} (hto : importedTo rulesets row = some ruleset)
    (h : importRow env settings rulesets accounts row s = (.ok (), s')) :
    ∃ rule, FieldsOf env settings s.db row rule ∧
      ∀ other ∈ s'.db.rules, other.ruleId = row.ruleId → other.totalRisk = rule.totalRisk := by
  obtain ⟨t, u, pathway, hrule, haside, -, hrules⟩ := importRow_ok hto h
  obtain ⟨rule, hfields, hstored⟩ := importRule_stores hrule
  refine ⟨rule, hfields, ?_⟩
  intro other hother hid
  rw [hrules, haside.rules] at hother
  obtain ⟨old, hold, rfl⟩ := List.mem_map.mp hother
  by_cases he : old.ruleId = row.ruleId
  · rw [if_pos he, hstored old hold he]
  · rw [if_neg he] at hid
    exact absurd hid he

/-- The last row of a rule decides it, whatever the import started from. -/
theorem importAll_stores {config : Config} {s s' : State} {pre post : List ContentRow} {row : ContentRow} {ruleset : String}
    (h : importAll env settings config (pre ++ row :: post) s = (.ok (), s'))
    (hto : importedTo (rulesetStartswith s.db) row = some ruleset)
    (hlast : ∀ other ∈ post, other.ruleId = row.ruleId → importedTo (rulesetStartswith s.db) other = none) :
    ∃ db rule, impactsAfter env config s.db = .ok db.impacts ∧ FieldsOf env settings db row rule ∧
      ∀ other ∈ s'.db.rules, other.ruleId = row.ruleId → other.totalRisk = rule.totalRisk := by
  obtain ⟨t, hgraded, himpacts, ⟨hnil, -⟩ | ⟨u, hrows, rfl⟩⟩ := importAll_ok h
  · rw [importedTo_nil (hgraded.rulesets.symm.trans hnil)] at hto
    cases hto
  · have hrulesets : rulesetStartswith t.db = rulesetStartswith s.db := by
      rw [rulesetStartswith, hgraded.rulesets, rulesetStartswith]
    rw [hrulesets] at hrows
    obtain ⟨a, b, ha, hb, hu⟩ := each_split hrows
    have hbefore : SameImpacts t a :=
      (Keeps.each (R := SameImpacts) fun other _ s => (importRow_beside _ _ other s).impacts).of_eq ha
    have hafter : Apart row.ruleId b u := (importRows_apart hlast).of_eq hu
    obtain ⟨rule, hfields, hstored⟩ := importRow_stores hto hb
    refine ⟨a.db, rule, himpacts.trans (congrArg Except.ok hbefore.symm), hfields, ?_⟩
    intro other hother hid
    have hin : other ∈ u.db.rules.filter fun rule => rule.ruleId = row.ruleId :=
      List.mem_filter.mpr ⟨(List.mem_filter.mp hother).1, by simpa using hid⟩
    rw [hafter.rules] at hin
    exact hstored other (List.mem_filter.mp hin).1 hid

end Api

/-- A rule as an importer leaves it, beside what its risk is half of. -/
inductive Stored (env : Environment) : Except Exception ℚ → Rule → Prop where
  | management {listing : Listing} {sources : Sources} {db after : Database} {row : ContentRow} {rule : Rule}
      (run : handle env listing sources db = .ok after) (unique : (db.rules.map Rule.ruleId).Nodup)
      (row_of : rowOf sources.content rule.ruleId = some row) (stored : ruleOf after rule.ruleId = some rule) :
      Stored env (Management.riskSum env sources.config row) rule
  | api {settings : Api.Settings} {config : Api.Config} {s s' : Api.State} {pre post : List ContentRow} {row : ContentRow}
      {ruleset : String} {rule : Rule} (run : Api.importAll env settings config (pre ++ row :: post) s = (.ok (), s'))
      (imported : Api.importedTo (Api.rulesetStartswith s.db) row = some ruleset)
      (last : ∀ other ∈ post, other.ruleId = row.ruleId → Api.importedTo (Api.rulesetStartswith s.db) other = none)
      (row_of : rule.ruleId = row.ruleId) (stored : rule ∈ s'.db.rules) :
      Stored env (Api.riskSum env config s.db row) rule

theorem Stored.half {env : Environment} {graded : Except Exception ℚ} {rule : Rule} (h : Stored env graded rule) :
    ∃ q, graded = .ok q ∧ truncate (q / 2) = rule.totalRisk := by
  cases h with
  | management run unique row_of stored =>
    obtain ⟨db, fields, -, -, hfields, hafter⟩ := ruleOf_handle run unique row_of
    obtain ⟨q, hq, hhalf⟩ := riskSum_of_fields (ruleContentToModelFields_ok env hfields)
    have hrisk := congrArg Rule.totalRisk (Option.some.inj (stored.symm.trans hafter))
    exact ⟨q, hq, by rw [hrisk, hhalf]⟩
  | api run imported last row_of stored =>
    obtain ⟨db, fields, himpacts, hfields, hrisk⟩ := Api.importAll_stores run imported last
    obtain ⟨q, hq, hhalf⟩ := Api.riskSum_of_fields himpacts hfields
    exact ⟨q, hq, by rw [hrisk _ stored row_of, hhalf]⟩

/-- A stored risk can be used exactly where likelihood and level are at least two and below ten together. -/
theorem stored_sound_iff {env : Environment} {graded : Except Exception ℚ} {rule : Rule} (h : Stored env graded rule) :
    ∃ q, graded = .ok q ∧ (Sound rule.totalRisk ↔ 2 ≤ q ∧ q < 10) := by
  obtain ⟨q, hq, hhalf⟩ := h.half
  exact ⟨q, hq, sound_half_iff hhalf⟩

def gradedSources (risk impact : Nat) : Sources := { hiddenSources with
  config := { hiddenSources.config with
    impact := Dict.ofEntries [(some "Best Practice", .int impact)]
    resolutionRisk := Dict.ofEntries [("Adjust Service Status", .int risk)] } }

def gradedRisks (risk impact : Nat) : Except Failure (Option Nat × Option Nat) := do
  let after ← handle plainEnvironment plainListing (gradedSources risk impact) fixtures
  let config := (gradedSources risk impact).config.forApi
  match Api.importAll plainEnvironment ⟨false, 0⟩ config [hiddenRule] started with
  | (.ok (), s') =>
    .ok ((ruleOf after hiddenRule.ruleId).map Rule.totalRisk, (ruleOf s'.db hiddenRule.ruleId).map Rule.totalRisk)
  | (.error e, _) => .error (.raised e)

theorem exists_stored {risk impact a b : Nat} (h : gradedRisks risk impact = .ok (some a, some b)) :
    ∃ rule rule', rule.totalRisk = a ∧ rule'.totalRisk = b ∧
      Stored plainEnvironment (Management.riskSum plainEnvironment (gradedSources risk impact).config hiddenRule) rule ∧
      Stored plainEnvironment
        (Api.riskSum plainEnvironment (gradedSources risk impact).config.forApi fixtures hiddenRule) rule' := by
  simp only [gradedRisks, bind_eq_ok] at h
  obtain ⟨after, hafter, h⟩ := h
  split at h
  · rename_i s' hs
    simp only [Except.ok.injEq, Prod.mk.injEq, Option.map_eq_some_iff] at h
    obtain ⟨⟨rule, hrule, ha⟩, rule', hrule', hb⟩ := h
    have hid : rule.ruleId = hiddenRule.ruleId := by simpa using List.find?_some hrule
    have hid' : rule'.ruleId = hiddenRule.ruleId := by simpa using List.find?_some hrule'
    refine ⟨rule, rule', ha, hb, ?_, ?_⟩
    · exact .management hafter List.nodup_nil (by rw [hid]; rfl) (by rw [hid]; exact hrule)
    · have hrun : Api.importAll plainEnvironment ⟨false, 0⟩ (gradedSources risk impact).config.forApi
          ([] ++ hiddenRule :: []) started = (.ok (), s') := hs
      have hto : Api.importedTo (Api.rulesetStartswith fixtures) hiddenRule = some "https://rules" := rfl
      exact .api hrun hto (by simp) hid' (List.mem_of_find?_eq_some hrule')
  · cases h

theorem stored_sound_hidden :
    ∃ rule rule' : Rule,
      (∃ q, Management.riskSum plainEnvironment (gradedSources 2 4).config hiddenRule = .ok q ∧
        (Sound rule.totalRisk ↔ 2 ≤ q ∧ q < 10)) ∧
      ∃ q, Api.riskSum plainEnvironment (gradedSources 2 4).config.forApi fixtures hiddenRule = .ok q ∧
        (Sound rule'.totalRisk ↔ 2 ≤ q ∧ q < 10) := by
  have h : gradedRisks 2 4 = .ok (some 1, some 2) := by decide +kernel
  obtain ⟨rule, rule', -, -, hrule, hrule'⟩ := exists_stored h
  exact ⟨rule, rule', stored_sound_iff hrule, stored_sound_iff hrule'⟩

/-- At level zero a likelihood of one makes a risk of zero. -/
theorem zero_not_sound :
    ∃ rule rule',
      Stored plainEnvironment (Management.riskSum plainEnvironment (gradedSources 0 0).config hiddenRule) rule ∧
      Stored plainEnvironment (Api.riskSum plainEnvironment (gradedSources 0 0).config.forApi fixtures hiddenRule) rule' ∧
      ¬Sound rule.totalRisk ∧ ¬Sound rule'.totalRisk := by
  have h : gradedRisks 0 0 = .ok (some 0, some 0) := by decide +kernel
  obtain ⟨rule, rule', hrisk, hrisk', hrule, hrule'⟩ := exists_stored h
  refine ⟨rule, rule', hrule, hrule', ?_, ?_⟩
  · rw [hrisk, sound_iff]
    omega
  · rw [hrisk', sound_iff]
    omega

end Advisor.Importer
