import Advisor.Relational.Queries
import Advisor.Reports.Variants

/-! The statistics of the selected reports: totals, and counts by risk and by category, in one aggregate query. -/

namespace Advisor.Reports

open Python Django Relational

structure RuleCategory where
  id : Nat
  name : String
  deriving DecidableEq

/-- The tables with those of the categories, whose names are unique. -/
structure StatsTables extends Tables where
  categories : Table RuleCategory.id
  uniqueNames : (categories.rows.map (·.name)).Nodup
  ruleCategories : ∀ rule ∈ rules, (categories.get? (categoryOf rule.id)).isSome = true

/-- A row of the query: a report, joined with a tag of its rule or with none. -/
structure TaggedReport where
  report : CurrentReport
  tag : Option String

structure Stats where
  total : Nat
  totalRisk : List (Nat × Nat)
  category : List (String × Nat)
  incidents : Nat
  deriving DecidableEq

def totalRisks : List Nat := [1, 2, 3, 4]

section Counts

variable (tables : StatsTables)

def categoryNames : List String := tables.categories.rows.map (·.name)

def totalRiskOf (row : TaggedReport) : Option Nat := (tables.rules.get? row.report.rule).map (·.totalRisk)

def categoryNameOf (row : TaggedReport) : Option String :=
  (tables.rules.get? row.report.rule).bind fun rule => (tables.categories.get? (tables.categoryOf rule.id)).map (·.name)

def joinTags (queryset : List CurrentReport) : List TaggedReport :=
  queryset.flatMap fun report =>
    match (tables.rules.get? report.rule).map (·.tags) with
    | some (tag :: tags) => (tag :: tags).map fun name => ⟨report, some name⟩
    | _ => [⟨report, none⟩]

/-- The names of the aggregates, which become column aliases. -/
def aliases : List String :=
  ["total"] ++ totalRisks.map (fun risk => "total_risk_" ++ toString risk) ++
    (categoryNames tables).map (fun name => "total_category_" ++ name) ++ ["incidents"]

/-- `stats_counts`; `checkAlias` is the check of Django on the names, which refuses white space and quotes for one. -/
def statsCounts {κ : Type} [DecidableEq κ] (checkAlias : String → Bool) (queryset : List CurrentReport)
    (field : CurrentReport → κ) : Except Exception Stats :=
  if (aliases tables).all checkAlias then
    let count := fun p : TaggedReport → Bool => countDistinct (joinTags tables queryset) p fun row => field row.report
    .ok {
      total := count fun _ => true
      totalRisk := totalRisks.map fun risk => (risk, count fun row => totalRiskOf tables row = some risk)
      category := (categoryNames tables).map fun name => (name, count fun row => categoryNameOf tables row = some name)
      incidents := count fun row => row.tag = some "incident" }
  else .error .valueError

end Counts

/-- Each counted thing is in one bucket. -/
structure Stats.Partitions (stats : Stats) : Prop where
  risks : (stats.totalRisk.map Prod.snd).sum = stats.total
  categories : (stats.category.map Prod.snd).sum = stats.total
  incidents : stats.incidents ≤ stats.total

/-- Each counted thing is in a bucket, perhaps in several. -/
structure Stats.Covers (stats : Stats) : Prop where
  risks : ∀ bucket ∈ stats.totalRisk, bucket.2 ≤ stats.total
  categories : ∀ bucket ∈ stats.category, bucket.2 ≤ stats.total
  total : stats.total ≤ (stats.totalRisk.map Prod.snd).sum
  incidents : stats.incidents ≤ stats.total

/-- The statistics of rules, of reports and of systems over the reports that a request selects. -/
structure Partitioned (checkAlias : String → Bool) (castTime : CastTime) (tables : StatsTables) (request : Request)
    (flags : Flags) (outer : OuterFilter) : Prop where
  rules : ∃ stats, statsCounts tables checkAlias (getReportsSubquery castTime tables.toTables request flags outer)
    CurrentReport.rule = .ok stats ∧ stats.Partitions
  reports : ∃ stats, statsCounts tables checkAlias (getReportsSubquery castTime tables.toTables request flags outer)
    CurrentReport.key = .ok stats ∧ stats.Partitions
  systems : ∃ stats, statsCounts tables checkAlias (getReportsSubquery castTime tables.toTables request flags outer)
    CurrentReport.host = .ok stats ∧ stats.Covers

section Proofs

variable {κ : Type} [DecidableEq κ] {checkAlias : String → Bool} {tables : StatsTables} {queryset : List CurrentReport}
  {field : CurrentReport → κ} {stats : Stats}

theorem mem_joinTags {row : TaggedReport} (h : row ∈ joinTags tables queryset) : row.report ∈ queryset := by
  obtain ⟨report, hreport, hrow⟩ := List.mem_flatMap.mp h
  split at hrow
  · obtain ⟨name, -, rfl⟩ := List.mem_map.mp hrow
    exact hreport
  · rw [List.mem_singleton.mp hrow]
    exact hreport

theorem totalRiskOf_mem (hrisk : ∀ rule ∈ tables.rules, rule.totalRisk ∈ totalRisks) {row : TaggedReport}
    (h : row.report ∈ tables.reports) : totalRiskOf tables row ∈ totalRisks.map some := by
  obtain ⟨rule, hrule⟩ := Option.isSome_iff_exists.mp (tables.reportRules row.report h)
  rw [totalRiskOf, hrule]
  exact List.mem_map_of_mem (hrisk rule (Table.get?_eq_some.mp hrule).1)

theorem categoryNameOf_mem {row : TaggedReport} (h : row.report ∈ tables.reports) :
    categoryNameOf tables row ∈ (categoryNames tables).map some := by
  obtain ⟨rule, hrule⟩ := Option.isSome_iff_exists.mp (tables.reportRules row.report h)
  obtain ⟨category, hcategory⟩ :=
    Option.isSome_iff_exists.mp (tables.ruleCategories rule (Table.get?_eq_some.mp hrule).1)
  rw [categoryNameOf, hrule, Option.bind_some, hcategory]
  exact List.mem_map_of_mem (List.mem_map_of_mem (Table.get?_eq_some.mp hcategory).1)

theorem statsCounts_eq_ok : statsCounts tables checkAlias queryset field = .ok stats ↔
    (aliases tables).all checkAlias = true ∧
      stats = ⟨countDistinct (joinTags tables queryset) (fun _ => true) fun row => field row.report,
        totalRisks.map fun risk => (risk, countDistinct (joinTags tables queryset)
          (fun row => totalRiskOf tables row = some risk) fun row => field row.report),
        (categoryNames tables).map fun name => (name, countDistinct (joinTags tables queryset)
          (fun row => categoryNameOf tables row = some name) fun row => field row.report),
        countDistinct (joinTags tables queryset) (fun row => row.tag = some "incident") fun row => field row.report⟩ := by
  rw [statsCounts]
  by_cases haliases : (aliases tables).all checkAlias = true
  · simp only [haliases, if_true, Except.ok.injEq, true_and]
    exact eq_comm
  · simp [haliases]

theorem Stats.partitions (hrisk : ∀ rule ∈ tables.rules, rule.totalRisk ∈ totalRisks)
    (hqueryset : ∀ report ∈ queryset, report ∈ tables.reports)
    (hfield : ∀ a b : CurrentReport, field a = field b → a.rule = b.rule)
    (h : statsCounts tables checkAlias queryset field = .ok stats) : stats.Partitions := by
  obtain ⟨-, rfl⟩ := statsCounts_eq_ok.mp h
  have hstored : ∀ row ∈ joinTags tables queryset, row.report ∈ tables.reports := fun row hrow =>
    hqueryset _ (mem_joinTags hrow)
  refine ⟨?_, ?_, countDistinct_le fun _ _ _ => rfl⟩
  · have hnodup : (totalRisks.map some).Nodup := by decide
    rw [countDistinct_eq_sum hnodup (fun row hrow => totalRiskOf_mem hrisk (hstored row hrow)), List.map_map, List.map_map]
    · rfl
    · intro a _ b _ heq
      rw [totalRiskOf, totalRiskOf, hfield _ _ heq]
  · have hnodup : ((categoryNames tables).map some).Nodup :=
      tables.uniqueNames.map (Option.some_injective String)
    rw [countDistinct_eq_sum hnodup (fun row hrow => categoryNameOf_mem (hstored row hrow)), List.map_map, List.map_map]
    · rfl
    · intro a _ b _ heq
      rw [categoryNameOf, categoryNameOf, hfield _ _ heq]

theorem Stats.covers (hrisk : ∀ rule ∈ tables.rules, rule.totalRisk ∈ totalRisks)
    (hqueryset : ∀ report ∈ queryset, report ∈ tables.reports)
    (h : statsCounts tables checkAlias queryset field = .ok stats) : stats.Covers := by
  obtain ⟨-, rfl⟩ := statsCounts_eq_ok.mp h
  refine ⟨?_, ?_, ?_, countDistinct_le fun _ _ _ => rfl⟩
  · intro bucket hbucket
    obtain ⟨risk, -, rfl⟩ := List.mem_map.mp hbucket
    exact countDistinct_le fun _ _ _ => rfl
  · intro bucket hbucket
    obtain ⟨name, -, rfl⟩ := List.mem_map.mp hbucket
    exact countDistinct_le fun _ _ _ => rfl
  · have hcover := @countDistinct_le_sum _ _ _ _ _ (joinTags tables queryset) (fun row => field row.report)
      (totalRiskOf tables) (totalRisks.map some) fun row hrow => totalRiskOf_mem hrisk (hqueryset _ (mem_joinTags hrow))
    rw [List.map_map] at hcover
    rw [List.map_map]
    exact hcover

end Proofs

/-- The statistics are there and add up exactly where Django takes the names of the categories for aliases. -/
theorem partitioned_iff (checkAlias : String → Bool) (castTime : CastTime) (tables : StatsTables) (request : Request)
    (flags : Flags) (outer : OuterFilter) (hrisk : ∀ rule ∈ tables.rules, rule.totalRisk ∈ totalRisks) :
    Partitioned checkAlias castTime tables request flags outer ↔ ∀ name ∈ aliases tables, checkAlias name = true := by
  rw [← List.all_eq_true]
  constructor
  · rintro ⟨⟨stats, hok, -⟩, -, -⟩
    exact (statsCounts_eq_ok.mp hok).1
  · intro haliases
    have hstored : ∀ report ∈ getReportsSubquery castTime tables.toTables request flags outer,
        report ∈ tables.reports := fun report h => getReportsSubquery_stored h
    refine ⟨⟨_, statsCounts_eq_ok.mpr ⟨haliases, rfl⟩, ?_⟩, ⟨_, statsCounts_eq_ok.mpr ⟨haliases, rfl⟩, ?_⟩,
      ⟨_, statsCounts_eq_ok.mpr ⟨haliases, rfl⟩, ?_⟩⟩
    · exact Stats.partitions hrisk hstored (fun _ _ heq => heq) (statsCounts_eq_ok.mpr ⟨haliases, rfl⟩)
    · refine Stats.partitions hrisk hstored (fun a b heq => ?_) (statsCounts_eq_ok.mpr ⟨haliases, rfl⟩)
      exact congrArg (fun key => key.2.1) heq
    · exact Stats.covers hrisk hstored (statsCounts_eq_ok.mpr ⟨haliases, rfl⟩)

def unspaced (name : String) : Bool := name.toList.all fun c => !c.isWhitespace

def statsTables (category : String) : StatsTables :=
  { taggedTables with
    categories := .single ⟨1, category⟩
    uniqueNames := List.nodup_singleton category
    ruleCategories := fun rule _ => by simp [taggedTables, Table.get?_single] }

def statsRequest : Request := { orgId := "1234567", now := 0 }

theorem partitioned_security :
    Partitioned unspaced (fun _ => none) (statsTables "Security") statsRequest
      { excludeIneligibleHosts := false, useJoins := true } .none := by
  refine (partitioned_iff unspaced (fun _ => none) (statsTables "Security") statsRequest
    { excludeIneligibleHosts := false, useJoins := true } .none ?_).mpr ?_
  · intro rule hrule
    rw [Table.mem_single.mp hrule]
    decide
  · decide

/-- With a blank in the name of a category there are no statistics at all. -/
theorem bestPractice_fails :
    statsCounts (statsTables "Best practice") unspaced
        (getReportsSubquery (fun _ => none) (statsTables "Best practice").toTables statsRequest { useJoins := true } .none)
        CurrentReport.rule = .error .valueError ∧
      ¬ Partitioned unspaced (fun _ => none) (statsTables "Best practice") statsRequest { useJoins := true } .none := by
  have hrefused : (aliases (statsTables "Best practice")).all unspaced = false := by decide
  refine ⟨?_, ?_⟩
  · rw [statsCounts, hrefused]
    rfl
  · rintro ⟨⟨stats, hok, -⟩, -, -⟩
    rw [statsCounts_eq_ok, hrefused] at hok
    exact absurd hok.1 (by decide)

end Advisor.Reports
