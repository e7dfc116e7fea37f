import Advisor.Reports.Subquery

/-! The variant of the report query with joins selects what the variant without them selects. -/

namespace Advisor.Reports

open Python Django Relational

def Flags.using (flags : Flags) (useJoins : Bool) : Flags := { flags with useJoins }

section

variable (flags : Flags) (joins : Bool)

@[simp] theorem Flags.using_useJoins : (flags.using joins).useJoins = joins := rfl

@[simp] theorem Flags.using_rules : (flags.using joins).excludeIneligibleRules = flags.excludeIneligibleRules := rfl

@[simp] theorem Flags.using_hosts : (flags.using joins).excludeIneligibleHosts = flags.excludeIneligibleHosts := rfl

@[simp] theorem Flags.using_branchId : (flags.using joins).filterBranchId = flags.filterBranchId := rfl

end

variable {castTime : CastTime} {tables : Tables} {request : Request} {flags : Flags}

theorem staleSystemsFilter_using (report : CurrentReport) (horg : report.orgId = request.orgId) :
    (staleSystemsFilter castTime tables request (flags.using true) report).holds =
      (staleSystemsFilter castTime tables request (flags.using false) report).holds := by
  have hown : Truth.eq (some report.orgId) (some request.orgId) = .yes := by
    rw [horg, Truth.eq_some, decide_eq_true rfl]
    rfl
  simp only [staleSystemsFilter, Flags.using_useJoins, staleSystemsQ, hown, if_true, Bool.false_eq_true, if_false,
    Truth.and_yes, Truth.any, Truth.holds_ofBool]
  refine List.any_congr rfl fun row => ?_
  simp only [Truth.holds_and]
  rw [Bool.and_left_comm]

theorem hostsFilter_using (report : CurrentReport) (horg : report.orgId = request.orgId) :
    (hostsFilter castTime tables request (flags.using true) report).holds =
      (hostsFilter castTime tables request (flags.using false) report).holds := by
  unfold hostsFilter
  by_cases hhosts : flags.excludeIneligibleHosts = true
  · have hjoins : ∀ joins, (flags.using joins).excludeIneligibleHosts = true := fun _ => hhosts
    rw [if_pos (hjoins true), if_pos (hjoins false)]
    simp only [Truth.holds_and, staleSystemsFilter_using report horg]
    rfl
  · have hjoins : ∀ joins, ¬ (flags.using joins).excludeIneligibleHosts = true := fun _ => hhosts
    rw [if_neg (hjoins true), if_neg (hjoins false)]

theorem eligible_using {report : CurrentReport} (h : report ∈ tables.reports) :
    eligible castTime tables request (flags.using true) report =
      eligible castTime tables request (flags.using false) report := by
  obtain ⟨rule, hrule⟩ := Option.isSome_iff_exists.mp (tables.reportRules report h)
  have htrue := rulesFilter_eq request (flags.using true) hrule
  have hfalse := rulesFilter_eq request (flags.using false) hrule
  by_cases horg : report.orgId = request.orgId
  · simp only [eligible, Bool.and_assoc]
    rw [hostsFilter_using report horg, ← Bool.and_assoc (activeFilter tables (flags.using true) report).holds,
      ← Bool.and_assoc (activeFilter tables (flags.using false) report).holds, htrue, hfalse, Flags.using_rules,
      Flags.using_rules]
  · simp [eligible, horg]

/-- Where each row only gives copies of itself, a row is as often in the whole as in what it gives. -/
theorem count_flatMap_copies {α : Type*} [DecidableEq α] {rows : List α} (hrows : rows.Nodup) {f : α → List α}
    (hf : ∀ a, ∀ b ∈ f a, b = a) {a : α} (ha : a ∈ rows) : (rows.flatMap f).count a = (f a).count a := by
  induction rows with
  | nil => cases ha
  | cons row rows ih =>
    obtain ⟨hrow, hrest⟩ := List.nodup_cons.mp hrows
    rw [List.flatMap_cons, List.count_append]
    rcases List.mem_cons.mp ha with rfl | htail
    · have hnone : (rows.flatMap f).count a = 0 := by
        rw [List.count_eq_zero]
        intro hmem
        obtain ⟨other, hother, hgives⟩ := List.mem_flatMap.mp hmem
        obtain rfl := hf other a hgives
        exact hrow hother
      omega
    · have hnone : (f row).count a = 0 := by
        rw [List.count_eq_zero]
        intro hmem
        obtain rfl := hf row a hmem
        exact hrow htail
      rw [ih hrest htail]
      omega

/-- The two variants select the same reports in the same number, each as often as the rows that the outer filters
join to it pass. -/
theorem useJoins_agree (castTime : CastTime) (tables : Tables) (request : Request) (flags : Flags)
    (outer : OuterFilter) :
    getReportsSubquery castTime tables request (flags.using true) outer =
      getReportsSubquery castTime tables request (flags.using false) outer ∧
    ∀ report ∈ getReportsSubquery castTime tables request flags outer,
      (getReportsSubquery castTime tables request flags outer).count report = (outer report).count .yes := by
  by_cases horg : request.orgId = ""
  · simp [getReportsSubquery, horg]
  constructor
  · rw [getReportsSubquery_eq _ horg, getReportsSubquery_eq _ horg]
    refine List.flatMap_congr fun report hreport => ?_
    rw [eligible_using (Table.mem_def.mpr hreport)]
  · intro report hreport
    rw [getReportsSubquery_eq _ horg] at hreport ⊢
    obtain ⟨other, hother, hgives⟩ := List.mem_flatMap.mp hreport
    have hcopies : ∀ a, ∀ b ∈ (if eligible castTime tables request flags a then
        ((outer a).filter Truth.holds).map fun _ => a else []), b = a := by
      intro a b hb
      split at hb
      · obtain ⟨_, -, rfl⟩ := List.mem_map.mp hb
        rfl
      · cases hb
    obtain rfl := hcopies other report hgives
    rw [count_flatMap_copies (List.Nodup.of_map _ tables.reports.unique) hcopies hother]
    split at hgives
    · rename_i hel
      have hyes : ∀ ts : List Truth, (ts.filter Truth.holds).length = ts.count .yes := by
        intro ts
        induction ts with
        | nil => rfl
        | cons t ts ih => cases t <;> simp [List.filter_cons, Truth.holds, ih]
      rw [if_pos hel, List.map_const', List.count_replicate_self, hyes]
    · cases hgives

section TwoTags

def taggedRule : Rule := { id := 1, ruleId := "rule|ERROR", active := true, tags := ["incident", "security"] }

def reportedHost : Host := { inventoryId := 1, account := none, orgId := "1234567" }

def taggedReport : CurrentReport where
  account := none
  orgId := "1234567"
  rule := 1
  host := 1
  upload := 1
  details := .null
  impactedDate := none

def taggedTables : Tables where
  rules := .single taggedRule
  categoryOf _ := 1
  reports := .single taggedReport
  acks := .empty
  hostAcks := .empty
  hosts := .single reportedHost
  inventory := .empty
  reportRules := by simp [Table.get?_single]; decide
  reportHosts := by simp [Table.get?_single]; decide
  complete row h := by cases h

/-- A report of a rule with two of the tags asked for is selected twice. -/
theorem useJoins_twoTags :
    getReportsSubquery (fun _ => none) taggedTables { orgId := "1234567", now := 0 }
        { excludeIneligibleHosts := false, useJoins := true } (.tagNames taggedTables ["incident", "security"]) =
      [taggedReport, taggedReport] := by
  decide +kernel

end TwoTags

end Advisor.Reports
