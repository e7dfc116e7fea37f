import Mathlib.Data.Finset.Card
import Advisor.Reports.Subquery

/-! The views of a rule and of the systems: how many systems a rule impacts, which they are, and how many rules hit
each system. -/

namespace Advisor.Reports

open Python Django Relational

def HostFilters.request (filters : HostFilters) (orgId : String) (now : Instant) : Request :=
  { filters with orgId, now }

variable (castTime : CastTime) (tables : Tables) (request : Request)

/-- The `WHERE` of `AdvisorInventoryHostManager.for_account`. The branch stands in the host of the same id and
organisation, if there is one. -/
def forAccountWhere (row : AdvisorInventoryHost) : Truth :=
  Truth.and (filterOnHostTags request.toHostFilters tables.inventory request.orgId row.inventoryId)
    (Truth.and (request.toHostFilters.condition.onRow row)
      (Truth.and
        (filterOnBranchId request.branchId
          (((tables.hosts.get? row.inventoryId).filter fun host => host.orgId = row.orgId).bind (·.branchId)))
        (Truth.and (isFresh castTime request.now row)
          (Truth.and
            (Truth.any tables.hosts.rows fun host => Truth.eq (some host.inventoryId) (some row.inventoryId))
            (Truth.eq (some row.orgId) (some request.orgId))))))

def forAccount : List AdvisorInventoryHost :=
  if request.orgId = "" then []
  else tables.inventory.rows.filter fun row => (forAccountWhere castTime tables request row).holds

/-- What the lookups of the system profile that leave the inventory row make of the rows they join to it. -/
abbrev Joins := AdvisorInventoryHost → List Truth

def Joins.none : Joins := fun _ => [.yes]

def Joins.currentReports (tables : Tables) (test : CurrentReport → Truth) : Joins := fun row =>
  (tables.reports.rows.filter fun report => inventoryOf tables report = some row).map test

def Joins.passing (joins : Joins) (row : AdvisorInventoryHost) : Nat := ((joins row).filter Truth.holds).length

/-- The same lookups in a query on reports, where they start at the inventory row of the report. -/
def Joins.onReport (joins : Joins) (tables : Tables) (condition : CurrentReport → Truth) : OuterFilter := fun report =>
  ((inventoryOf tables report).elim [] joins).map fun joined => Truth.and (condition report) joined

/-- `for_account` with such lookups: a row stands there once for each passing row that is joined to it. -/
def forAccountJoined (joins : Joins) : List AdvisorInventoryHost :=
  (forAccount castTime tables request).flatMap fun row => List.replicate (joins.passing row) row

def reportsOfHost (condition : CurrentReport → Truth) (host : Uuid) : List CurrentReport :=
  getReportsSubquery castTime tables request { excludeIneligibleHosts := false }
    (.where fun report => Truth.and (Truth.eq (some report.host) (some host)) (condition report))

structure System where
  row : AdvisorInventoryHost
  hits : Nat

/-- `get_systems_queryset` for a request without the parameters that narrow the list of systems alone. -/
def getSystemsQueryset (joins : Joins) : List System :=
  (forAccountJoined castTime tables request joins).map fun row =>
    { row, hits := (reportsOfHost castTime tables request (fun _ => .yes) row.inventoryId).length }

def impactedSystemsCount (joins : Joins) (rule : Rule) : Nat :=
  (getReportsSubquery castTime tables request { excludeIneligibleRules := false }
    (joins.onReport tables fun report => Truth.eq (some report.rule) (some rule.id))).length

def systemsOfRule (joins : Joins) (rule : Rule) : List Uuid :=
  ((getReportsSubquery castTime tables request {} (joins.onReport tables fun _ => .yes)).filter fun report =>
    report.rule = rule.id).map (·.host)

def systemsDetail (joins : Joins) (rule : Rule) : List System :=
  (getSystemsQueryset castTime tables request joins).filter fun system =>
    !(reportsOfHost castTime tables request (fun report => Truth.eq (some report.rule) (some rule.id))
      system.row.inventoryId).isEmpty

def isShown (orgId : String) (rule : Rule) : Bool := rule.active && !acked tables orgId rule.id

structure ShownRule (orgId : String) where
  rule : Rule
  stored : rule ∈ tables.rules
  shown : isShown tables orgId rule = true

section Counting

variable {ι κ : Type*}

theorem sum_by_key [DecidableEq κ] {keys : List κ} (hkeys : keys.Nodup) (items : List ι) (p : ι → Bool) (keyOf : ι → κ)
    (weight : ι → Nat) :
    (keys.map fun k => ((items.filter fun x => p x && keyOf x = k).map weight).sum).sum =
      ((items.filter fun x => p x && keys.contains (keyOf x)).map weight).sum := by
  induction keys with
  | nil => simp
  | cons k keys ih =>
    obtain ⟨hk, hrest⟩ := List.nodup_cons.mp hkeys
    have hsplit : ∀ items : List ι, ((items.filter fun x => p x && keyOf x = k).map weight).sum +
        ((items.filter fun x => p x && keys.contains (keyOf x)).map weight).sum =
          ((items.filter fun x => p x && (k :: keys).contains (keyOf x)).map weight).sum := by
      intro items
      induction items with
      | nil => rfl
      | cons x items ihitems =>
        by_cases hp : p x = true
        · by_cases hx : keyOf x = k
          · subst hx
            simp [hp, hk] at ihitems ⊢
            omega
          · by_cases hmem : keyOf x ∈ keys
            · simp [hp, hx, hmem] at ihitems ⊢
              omega
            · simpa [hp, hx, hmem] using ihitems
        · simpa [hp] using ihitems
    rw [List.map_cons, List.sum_cons, ih hrest]
    exact hsplit items

theorem nodup_copies {items : List ι} {keyOf : ι → κ} (hkeys : (items.map keyOf).Nodup) (times : ι → Nat) :
    (items.flatMap fun x => List.replicate (times x) (keyOf x)).Nodup ↔ ∀ x ∈ items, times x ≤ 1 := by
  rw [List.nodup_flatMap]
  constructor
  · rintro ⟨hcopies, -⟩ x hx
    exact List.nodup_replicate.mp (hcopies x hx)
  · intro hall
    refine ⟨fun x hx => List.nodup_replicate.mpr (hall x hx), ?_⟩
    rw [List.Nodup, List.pairwise_map] at hkeys
    refine hkeys.imp ?_
    intro x y hxy key hx hy
    exact hxy ((List.eq_of_mem_replicate hx).symm.trans (List.eq_of_mem_replicate hy))

theorem mem_copies {items : List ι} {keyOf : ι → κ} {times : ι → Nat} {key : κ} :
    (key ∈ items.flatMap fun x => List.replicate (times x) (keyOf x)) ↔ ∃ x ∈ items, times x ≠ 0 ∧ keyOf x = key := by
  simp only [List.mem_flatMap, List.mem_replicate]
  constructor
  · rintro ⟨x, hx, htimes, rfl⟩
    exact ⟨x, hx, htimes, rfl⟩
  · rintro ⟨x, hx, htimes, rfl⟩
    exact ⟨x, hx, htimes, rfl⟩

theorem flatMap_filter_copies (items : List ι) (p : ι → Bool) (times : ι → Nat) (keyOf : ι → κ) :
    (items.flatMap fun x => List.replicate (if p x then times x else 0) (keyOf x)) =
      (items.filter p).flatMap fun x => List.replicate (times x) (keyOf x) := by
  induction items with
  | nil => rfl
  | cons x items ih =>
    by_cases hp : p x = true
    · simp [hp, ih]
    · simp [hp, ih]

theorem length_copies (items : List ι) (times : ι → Nat) (keyOf : ι → κ) :
    (items.flatMap fun x => List.replicate (times x) (keyOf x)).length = (items.map times).sum := by
  simp [List.length_flatMap]

end Counting

variable {castTime : CastTime} {tables : Tables} {filters : HostFilters} {orgId : String} {now : Instant}

theorem forAccountJoined_none (castTime : CastTime) (tables : Tables) (request : Request) :
    forAccountJoined castTime tables request .none = forAccount castTime tables request := by
  have honce : ∀ row, Joins.none.passing row = 1 := fun _ => rfl
  simp [forAccountJoined, honce, List.flatMap_singleton']

theorem mem_forAccount (horg : orgId ≠ "") (row : AdvisorInventoryHost) :
    row ∈ forAccount castTime tables (filters.request orgId now) ↔
      row ∈ tables.inventory ∧ (filterOnHostTags filters tables.inventory orgId row.inventoryId).holds = true ∧
        (filters.condition.onRow row).holds = true ∧ (isFresh castTime now row).holds = true ∧
          (tables.hosts.get? row.inventoryId).isSome = true ∧ row.orgId = orgId := by
  have hhost : (tables.hosts.rows.any fun host => decide (host.inventoryId = row.inventoryId)) =
      (tables.hosts.get? row.inventoryId).isSome := by
    rw [Bool.eq_iff_iff]
    simp [Table.get?]
  have hnot : (filters.request orgId now).orgId ≠ "" := horg
  rw [forAccount, if_neg hnot, List.mem_filter, ← Table.mem_def]
  simp only [forAccountWhere, HostFilters.request, filterOnBranchId, Truth.holds_and, Truth.any, Truth.holds_ofBool,
    Truth.eq_some, hhost, Bool.and_eq_true, decide_eq_true_eq]
  constructor
  · rintro ⟨hrow, htags, hcondition, -, hfresh, hhosts, hown⟩
    exact ⟨hrow, htags, hcondition, hfresh, hhosts, hown⟩
  · rintro ⟨hrow, htags, hcondition, hfresh, hhosts, hown⟩
    exact ⟨hrow, htags, hcondition, rfl, hfresh, hhosts, hown⟩

theorem staleSystemsQ_iff (host : Uuid) :
    (staleSystemsQ castTime tables orgId now host).holds = true ↔
      ∃ row, tables.inventory.get? (orgId, host) = some row ∧ (isFresh castTime now row).holds = true := by
  simp only [staleSystemsQ, Truth.any, Truth.holds_ofBool, Truth.holds_and, Truth.eq_some, List.any_eq_true,
    Bool.and_eq_true, decide_eq_true_eq]
  constructor
  · rintro ⟨row, hrow, rfl, rfl, hfresh⟩
    exact ⟨row, Table.mem_iff_get?.mp (Table.mem_def.mpr hrow), hfresh⟩
  · rintro ⟨row, hrow, hfresh⟩
    obtain ⟨hmem, hkey⟩ := Table.get?_eq_some.mp hrow
    obtain ⟨horg, hid⟩ := Prod.mk.inj hkey
    exact ⟨row, Table.mem_def.mp hmem, horg, hid, hfresh⟩

/-- A report passes the filters on hosts exactly when its host is among the hosts of the account. -/
theorem hostsFilter_iff (horg : orgId ≠ "") {report : CurrentReport} (hreport : report ∈ tables.reports)
    (hown : report.orgId = orgId) :
    (hostsFilter castTime tables (filters.request orgId now) {} report).holds = true ↔
      ∃ row ∈ forAccount castTime tables (filters.request orgId now), row.inventoryId = report.host := by
  have hfilter : (hostsFilter castTime tables (filters.request orgId now) {} report).holds = true ↔
      (filterOnHostTags filters tables.inventory orgId report.host).holds = true ∧
        (filters.condition.onJoined (inventoryOf tables report)).holds = true ∧
          (staleSystemsQ castTime tables orgId now report.host).holds = true := by
    have hcategory : (categoryFilter tables (filters.request orgId now) report).holds = true := rfl
    have hbranch : (filterOnBranchId (filters.request orgId now).branchId
        ((tables.hosts.get? report.host).bind (·.branchId))).holds = true := rfl
    simp only [hostsFilter, staleSystemsFilter, if_true, Bool.false_eq_true, if_false, Truth.holds_and, hcategory,
      hbranch, Truth.eq_some, Truth.holds_ofBool, Bool.and_eq_true, decide_eq_true_eq]
    constructor
    · rintro ⟨htags, hcondition, -, -, hstale, -⟩
      exact ⟨htags, hcondition, hstale⟩
    · rintro ⟨htags, hcondition, hstale⟩
      exact ⟨htags, hcondition, trivial, trivial, hstale, hown⟩
  rw [hfilter, staleSystemsQ_iff]
  constructor
  · rintro ⟨htags, hcondition, row, hrow, hfresh⟩
    have hjoined : inventoryOf tables report = some row := by rw [inventoryOf, hown, hrow]
    obtain ⟨hstored, hkey⟩ := Table.get?_eq_some.mp hrow
    obtain ⟨hrowOrg, hid⟩ := Prod.mk.inj hkey
    rw [hjoined, Condition.onJoined_some _ (tables.complete row hstored)] at hcondition
    refine ⟨row, (mem_forAccount horg row).mpr ⟨hstored, ?_, hcondition, hfresh, ?_, hrowOrg⟩, hid⟩
    · rw [hid]
      exact htags
    · rw [hid]
      exact tables.reportHosts report hreport
  · rintro ⟨row, hrow, hid⟩
    obtain ⟨hstored, htags, hcondition, hfresh, -, hrowOrg⟩ := (mem_forAccount horg row).mp hrow
    have hfound : tables.inventory.get? (orgId, report.host) = some row :=
      Table.get?_eq_some.mpr ⟨hstored, by rw [AdvisorInventoryHost.key, hrowOrg, hid]⟩
    have hjoined : inventoryOf tables report = some row := by rw [inventoryOf, hown, hfound]
    rw [hjoined, Condition.onJoined_some _ (tables.complete row hstored), ← hid]
    exact ⟨htags, hcondition, row, by rw [hid]; exact hfound, hfresh⟩

def ruleShown (tables : Tables) (orgId : String) (rule : Nat) : Bool :=
  (tables.rules.get? rule).any (isShown tables orgId)

theorem eligible_eq (request : Request) (flags : Flags) {report : CurrentReport} (h : report ∈ tables.reports) :
    eligible castTime tables request flags report =
      ((hostsFilter castTime tables request flags report).holds && report.orgId = request.orgId &&
        (!flags.excludeIneligibleRules || ruleShown tables request.orgId report.rule) &&
          (Truth.not (hostAcked tables request report)).holds) := by
  obtain ⟨rule, hrule⟩ := Option.isSome_iff_exists.mp (tables.reportRules report h)
  have hid : rule.id = report.rule := Table.get?_key hrule
  have hshown : ruleShown tables request.orgId report.rule =
      (rule.active && !acked tables request.orgId report.rule) := by
    rw [ruleShown, hrule, Option.any_some, isShown, hid]
  rw [hshown, ← rulesFilter_eq request flags hrule]
  simp only [eligible, Bool.and_assoc]

theorem ruleShown_iff (rule : Nat) :
    ruleShown tables orgId rule = true ↔ rule ∈ (tables.rules.rows.filter (isShown tables orgId)).map (·.id) := by
  rw [ruleShown, Option.any_eq_true]
  constructor
  · rintro ⟨found, hfound, hshown⟩
    obtain ⟨hstored, hid⟩ := Table.get?_eq_some.mp hfound
    exact List.mem_map.mpr ⟨found, List.mem_filter.mpr ⟨hstored, hshown⟩, hid⟩
  · intro h
    obtain ⟨found, hfound, hid⟩ := List.mem_map.mp h
    obtain ⟨hstored, hshown⟩ := List.mem_filter.mp hfound
    exact ⟨found, Table.get?_eq_some.mpr ⟨hstored, hid⟩, hshown⟩

def counted (tables : Tables) (request : Request) (report : CurrentReport) : Bool :=
  report.orgId = request.orgId && (Truth.not (hostAcked tables request report)).holds

/-- The filters on hosts of a report that counts: its host is one of the account's. -/
def inAccount (castTime : CastTime) (tables : Tables) (request : Request) (report : CurrentReport) : Bool :=
  ((forAccount castTime tables request).map (·.inventoryId)).contains report.host

section Lists

variable (castTime tables filters now)

theorem eligible_hosts (horg : orgId ≠ "") (excludeRules : Bool) {report : CurrentReport}
    (h : report ∈ tables.reports) :
    eligible castTime tables (filters.request orgId now) { excludeIneligibleRules := excludeRules } report =
      (counted tables (filters.request orgId now) report &&
        inAccount castTime tables (filters.request orgId now) report &&
          (!excludeRules || ruleShown tables orgId report.rule)) := by
  have hrequest : (filters.request orgId now).orgId = orgId := rfl
  have hsame : hostsFilter castTime tables (filters.request orgId now) { excludeIneligibleRules := excludeRules } report =
      hostsFilter castTime tables (filters.request orgId now) {} report := rfl
  rw [eligible_eq _ _ h, hsame, counted, hrequest]
  by_cases hown : report.orgId = orgId
  · have hhosts : (hostsFilter castTime tables (filters.request orgId now) {} report).holds =
        inAccount castTime tables (filters.request orgId now) report := by
      rw [Bool.eq_iff_iff, hostsFilter_iff horg h hown]
      simp [inAccount]
    rw [hhosts]
    simp only [hown, decide_true, Bool.and_true, Bool.true_and]
    cases inAccount castTime tables (filters.request orgId now) report <;>
      cases (Truth.not (hostAcked tables (filters.request orgId now) report)).holds <;> simp
  · simp [hown]

def Joins.weight (joins : Joins) (tables : Tables) (report : CurrentReport) : Nat :=
  (inventoryOf tables report).elim 0 joins.passing

theorem weight_eq (horg : orgId ≠ "") (joins : Joins) {row : AdvisorInventoryHost} {report : CurrentReport}
    (hrow : row ∈ forAccount castTime tables (filters.request orgId now)) (hown : report.orgId = orgId)
    (hhost : report.host = row.inventoryId) : joins.weight tables report = joins.passing row := by
  obtain ⟨hstored, -, -, -, -, hrowOrg⟩ := (mem_forAccount horg row).mp hrow
  have hfound : inventoryOf tables report = some row :=
    Table.get?_eq_some.mpr ⟨hstored, by rw [AdvisorInventoryHost.key, hown, hhost, hrowOrg]⟩
  rw [Joins.weight, hfound, Option.elim_some]

theorem onReport_passing (joins : Joins) (condition : CurrentReport → Truth) (report : CurrentReport) :
    ((joins.onReport tables condition report).filter Truth.holds).length =
      if (condition report).holds then joins.weight tables report else 0 := by
  rw [Joins.onReport, List.filter_map, List.length_map]
  cases hrow : inventoryOf tables report with
  | none => simp [Joins.weight, hrow]
  | some row =>
    have hfilter : Truth.holds ∘ (fun joined => Truth.and (condition report) joined) =
        fun joined => (condition report).holds && joined.holds := by
      funext joined
      exact Truth.holds_and _ _
    rw [Option.elim_some, hfilter]
    by_cases hcondition : (condition report).holds = true
    · simp [Joins.weight, Joins.passing, hrow, hcondition]
    · simp [hcondition]

/-- The reports of the hosts of the account, for the rules asked for, as often as rows are joined to them. -/
theorem reports_joined (horg : orgId ≠ "") (excludeRules : Bool) (joins : Joins) (condition : CurrentReport → Truth) :
    getReportsSubquery castTime tables (filters.request orgId now) { excludeIneligibleRules := excludeRules }
        (joins.onReport tables condition) =
      (tables.reports.rows.filter fun report => counted tables (filters.request orgId now) report &&
        inAccount castTime tables (filters.request orgId now) report &&
          (!excludeRules || ruleShown tables orgId report.rule) && (condition report).holds).flatMap fun report =>
            List.replicate (joins.weight tables report) report := by
  have hnot : (filters.request orgId now).orgId ≠ "" := horg
  rw [getReportsSubquery_eq _ hnot]
  refine (List.flatMap_congr fun report hreport => ?_).trans (flatMap_filter_copies _ _ (joins.weight tables) id)
  rw [eligible_hosts castTime tables filters now horg excludeRules (Table.mem_def.mpr hreport), List.map_const',
    onReport_passing, id]
  cases hasked : counted tables (filters.request orgId now) report &&
      inAccount castTime tables (filters.request orgId now) report &&
        (!excludeRules || ruleShown tables orgId report.rule) with
  | true => simp
  | false => simp

theorem reports_host (horg : orgId ≠ "") (condition : CurrentReport → Truth) (host : Uuid) :
    reportsOfHost castTime tables (filters.request orgId now) condition host =
      tables.reports.rows.filter fun report => (counted tables (filters.request orgId now) report &&
        ruleShown tables orgId report.rule && (condition report).holds) && report.host = host := by
  have hrequest : (filters.request orgId now).orgId = orgId := rfl
  rw [reportsOfHost, getReportsSubquery_where _ horg]
  refine List.filter_congr fun report hreport => ?_
  rw [eligible_eq _ _ (Table.mem_def.mpr hreport), counted, hrequest]
  simp only [hostsFilter, Bool.false_eq_true, if_false, Truth.holds_and, Truth.eq_some, Truth.holds_ofBool]
  cases hc : (condition report).holds <;> cases hs : ruleShown tables orgId report.rule <;>
    cases hh : (Truth.not (hostAcked tables (filters.request orgId now) report)).holds <;> simp [Truth.holds]

def reportsOfRule (orgId : String) (rule : Rule) : List CurrentReport :=
  tables.reports.rows.filter fun report => counted tables (filters.request orgId now) report &&
    inAccount castTime tables (filters.request orgId now) report && report.rule = rule.id

theorem mem_reportsOfRule {rule : Rule} {report : CurrentReport} :
    report ∈ reportsOfRule castTime tables filters now orgId rule ↔
      report ∈ tables.reports ∧ counted tables (filters.request orgId now) report = true ∧
        (∃ row ∈ forAccount castTime tables (filters.request orgId now), row.inventoryId = report.host) ∧
          report.rule = rule.id := by
  simp only [reportsOfRule, List.mem_filter, inAccount, List.contains_eq_mem, List.mem_map, Bool.and_eq_true,
    decide_eq_true_eq, and_assoc, Table.mem_def]

theorem systemsOfRule_eq (horg : orgId ≠ "") (joins : Joins) (rule : ShownRule tables orgId) :
    systemsOfRule castTime tables (filters.request orgId now) joins rule.rule =
      (reportsOfRule castTime tables filters now orgId rule.rule).flatMap fun report =>
        List.replicate (joins.weight tables report) report.host := by
  have hshown : ruleShown tables orgId rule.rule.id = true :=
    (ruleShown_iff _).mpr (List.mem_map.mpr ⟨rule.rule, List.mem_filter.mpr ⟨rule.stored, rule.shown⟩, rfl⟩)
  have hdefault : ({} : Flags) = { excludeIneligibleRules := true } := rfl
  rw [systemsOfRule, hdefault, reports_joined castTime tables filters now horg, List.filter_flatMap, List.map_flatMap,
    reportsOfRule]
  have hof : ∀ report : CurrentReport, ((List.replicate (joins.weight tables report) report).filter fun report =>
      decide (report.rule = rule.rule.id)).map (·.host) =
        List.replicate (if report.rule = rule.rule.id then joins.weight tables report else 0) report.host := by
    intro report
    by_cases hrule : report.rule = rule.rule.id
    · simp [hrule]
    · simp [hrule]
  simp only [hof]
  have hcopies := flatMap_filter_copies (tables.reports.rows.filter fun report =>
    counted tables (filters.request orgId now) report && inAccount castTime tables (filters.request orgId now) report &&
      (!true || ruleShown tables orgId report.rule) && Truth.yes.holds)
    (fun report => decide (report.rule = rule.rule.id)) (joins.weight tables) (·.host)
  simp only [decide_eq_true_eq] at hcopies
  rw [hcopies, List.filter_filter]
  refine congrArg (List.flatMap _) (List.filter_congr fun report _ => ?_)
  by_cases hrule : report.rule = rule.rule.id
  · simp [hrule, hshown, Truth.holds]
  · simp [hrule]

theorem impactedSystemsCount_eq (horg : orgId ≠ "") (joins : Joins) (rule : Rule) :
    impactedSystemsCount castTime tables (filters.request orgId now) joins rule =
      ((reportsOfRule castTime tables filters now orgId rule).map (joins.weight tables)).sum := by
  rw [impactedSystemsCount, reports_joined castTime tables filters now horg]
  have hlength := length_copies (tables.reports.rows.filter fun report =>
    counted tables (filters.request orgId now) report && inAccount castTime tables (filters.request orgId now) report &&
      (!false || ruleShown tables orgId report.rule) && (Truth.eq (some report.rule) (some rule.id)).holds)
    (joins.weight tables) id
  refine hlength.trans ?_
  rw [reportsOfRule]
  refine congrArg (fun reports => (List.map (joins.weight tables) reports).sum) (List.filter_congr fun report _ => ?_)
  simp

theorem nodup_forAccount (horg : orgId ≠ "") :
    ((forAccount castTime tables (filters.request orgId now)).map (·.inventoryId)).Nodup := by
  have hrows : (forAccount castTime tables (filters.request orgId now)).Nodup := by
    have hnot : (filters.request orgId now).orgId ≠ "" := horg
    rw [forAccount, if_neg hnot]
    exact (List.Nodup.of_map _ tables.inventory.unique).filter _
  refine hrows.map_on fun row hrow other hother hid => ?_
  obtain ⟨hstored, -, -, -, -, hown⟩ := (mem_forAccount horg row).mp hrow
  obtain ⟨hstored', -, -, -, -, hown'⟩ := (mem_forAccount horg other).mp hother
  refine tables.inventory.key_injOn hstored hstored' ?_
  rw [AdvisorInventoryHost.key, AdvisorInventoryHost.key, hid, hown, hown']

theorem nodup_reportsOfRule (rule : Rule) :
    ((reportsOfRule castTime tables filters now orgId rule).map (·.host)).Nodup := by
  refine ((List.Nodup.of_map _ tables.reports.unique).filter _).map_on fun report hreport other hother hhost => ?_
  obtain ⟨hstored, hcounted, -, hrule⟩ := (mem_reportsOfRule castTime tables filters now).mp hreport
  obtain ⟨hstored', hcounted', -, hrule'⟩ := (mem_reportsOfRule castTime tables filters now).mp hother
  simp only [counted, Bool.and_eq_true, decide_eq_true_eq] at hcounted hcounted'
  refine tables.reports.key_injOn hstored hstored' ?_
  rw [CurrentReport.key, CurrentReport.key, hcounted.1, hcounted'.1, hrule, hrule', hhost]

def rowsOfRule (orgId : String) (rule : Rule) : List AdvisorInventoryHost :=
  (forAccount castTime tables (filters.request orgId now)).filter fun row =>
    !(reportsOfHost castTime tables (filters.request orgId now)
      (fun report => Truth.eq (some report.rule) (some rule.id)) row.inventoryId).isEmpty

theorem systemsDetail_eq (joins : Joins) (rule : Rule) :
    (systemsDetail castTime tables (filters.request orgId now) joins rule).map (·.row.inventoryId) =
      (rowsOfRule castTime tables filters now orgId rule).flatMap fun row =>
        List.replicate (joins.passing row) row.inventoryId := by
  rw [systemsDetail, getSystemsQueryset, forAccountJoined, List.filter_map, List.map_map, List.filter_flatMap,
    List.map_flatMap, rowsOfRule, ← flatMap_filter_copies]
  refine List.flatMap_congr fun row _ => ?_
  simp only [List.filter_replicate, Function.comp_apply]
  split <;> simp_all

theorem mem_rowsOfRule (horg : orgId ≠ "") (rule : ShownRule tables orgId) {row : AdvisorInventoryHost} :
    row ∈ rowsOfRule castTime tables filters now orgId rule.rule ↔
      row ∈ forAccount castTime tables (filters.request orgId now) ∧
        ∃ report ∈ reportsOfRule castTime tables filters now orgId rule.rule,
          report.host = row.inventoryId := by
  have hshown : ruleShown tables orgId rule.rule.id = true :=
    (ruleShown_iff _).mpr (List.mem_map.mpr ⟨rule.rule, List.mem_filter.mpr ⟨rule.stored, rule.shown⟩, rfl⟩)
  simp only [rowsOfRule, List.mem_filter, Bool.not_eq_true', List.isEmpty_eq_false_iff_exists_mem,
    reports_host castTime tables filters now horg, mem_reportsOfRule, Bool.and_eq_true, decide_eq_true_eq,
    Truth.eq_some, Truth.holds_ofBool, Table.mem_def]
  constructor
  · rintro ⟨hrow, report, hstored, ⟨⟨hcounted, -⟩, hof⟩, hhost⟩
    exact ⟨hrow, report, ⟨hstored, hcounted, ⟨row, hrow, hhost.symm⟩, hof⟩, hhost⟩
  · rintro ⟨hrow, report, ⟨hstored, hcounted, -, hof⟩, hhost⟩
    refine ⟨hrow, report, hstored, ⟨⟨hcounted, ?_⟩, hof⟩, hhost⟩
    rw [hof]
    exact hshown

theorem weight_reportsOfRule (horg : orgId ≠ "") (joins : Joins) {rule : Rule} {row : AdvisorInventoryHost}
    (hrow : row ∈ forAccount castTime tables (filters.request orgId now)) {report : CurrentReport}
    (hreport : report ∈ reportsOfRule castTime tables filters now orgId rule) (hhost : report.host = row.inventoryId) :
    joins.weight tables report = joins.passing row := by
  obtain ⟨-, hcounted, -, -⟩ := (mem_reportsOfRule castTime tables filters now).mp hreport
  rw [counted, Bool.and_eq_true, decide_eq_true_eq] at hcounted
  exact weight_eq castTime tables filters now horg joins hrow hcounted.1 hhost

/-- The views of a rule list the same hosts, whatever rows are joined to them. -/
theorem mem_systemsOfRule (horg : orgId ≠ "") (joins : Joins) (rule : ShownRule tables orgId) (host : Uuid) :
    host ∈ systemsOfRule castTime tables (filters.request orgId now) joins rule.rule ↔
      host ∈ (systemsDetail castTime tables (filters.request orgId now) joins rule.rule).map (·.row.inventoryId) := by
  rw [systemsOfRule_eq castTime tables filters now horg, systemsDetail_eq, mem_copies, mem_copies]
  constructor
  · rintro ⟨report, hreport, htimes, rfl⟩
    obtain ⟨-, -, ⟨row, hrow, hid⟩, -⟩ := (mem_reportsOfRule castTime tables filters now).mp hreport
    rw [weight_reportsOfRule castTime tables filters now horg joins hrow hreport hid.symm] at htimes
    exact ⟨row, (mem_rowsOfRule castTime tables filters now horg rule).mpr ⟨hrow, report, hreport, hid.symm⟩, htimes, hid⟩
  · rintro ⟨row, hlisted, htimes, rfl⟩
    obtain ⟨hrow, report, hreport, hhost⟩ := (mem_rowsOfRule castTime tables filters now horg rule).mp hlisted
    rw [← weight_reportsOfRule castTime tables filters now horg joins hrow hreport hhost] at htimes
    exact ⟨report, hreport, htimes, hhost⟩

theorem sum_hits (horg : orgId ≠ "") (joins : Joins) :
    ((getSystemsQueryset castTime tables (filters.request orgId now) joins).map (·.hits)).sum =
      ((tables.rules.rows.filter (isShown tables orgId)).map
        (impactedSystemsCount castTime tables (filters.request orgId now) joins)).sum := by
  have hrules : ((tables.rules.rows.filter (isShown tables orgId)).map (·.id)).Nodup :=
    tables.rules.unique.sublist (List.filter_sublist.map _)
  have hrow : ∀ row ∈ forAccount castTime tables (filters.request orgId now),
      joins.passing row * (reportsOfHost castTime tables (filters.request orgId now) (fun _ => .yes)
        row.inventoryId).length =
          ((tables.reports.rows.filter fun report => (counted tables (filters.request orgId now) report &&
            ruleShown tables orgId report.rule) && report.host = row.inventoryId).map (joins.weight tables)).sum := by
    intro row hrow
    have hweights : ∀ report ∈ tables.reports.rows.filter (fun report =>
        (counted tables (filters.request orgId now) report && ruleShown tables orgId report.rule) &&
          report.host = row.inventoryId), joins.weight tables report = joins.passing row := by
      intro report hreport
      simp only [List.mem_filter, counted, Bool.and_eq_true, decide_eq_true_eq] at hreport
      obtain ⟨-, ⟨⟨hown, -⟩, -⟩, hhost⟩ := hreport
      exact weight_eq castTime tables filters now horg joins hrow hown hhost
    rw [List.map_congr_left hweights, List.map_const', List.sum_replicate_nat, Nat.mul_comm]
    simp [reports_host castTime tables filters now horg, Truth.holds]
  have hhits : ((getSystemsQueryset castTime tables (filters.request orgId now) joins).map (·.hits)).sum =
      (((forAccount castTime tables (filters.request orgId now)).map (·.inventoryId)).map fun host =>
        ((tables.reports.rows.filter fun report => (counted tables (filters.request orgId now) report &&
          ruleShown tables orgId report.rule) && report.host = host).map (joins.weight tables)).sum).sum := by
    rw [getSystemsQueryset, forAccountJoined, List.map_map, List.map_flatMap, List.flatMap_def, List.sum_flatten,
      List.map_map, List.map_map]
    refine congrArg List.sum (List.map_congr_left fun row hmem => ?_)
    rw [Function.comp_apply, Function.comp_apply, ← hrow row hmem]
    simp
  have hcounts : (tables.rules.rows.filter (isShown tables orgId)).map
      (impactedSystemsCount castTime tables (filters.request orgId now) joins) =
      ((tables.rules.rows.filter (isShown tables orgId)).map (·.id)).map fun rule =>
        ((tables.reports.rows.filter fun report => (counted tables (filters.request orgId now) report &&
          inAccount castTime tables (filters.request orgId now) report) && report.rule = rule).map
            (joins.weight tables)).sum := by
    rw [List.map_map]
    exact List.map_congr_left fun rule _ => impactedSystemsCount_eq castTime tables filters now horg joins rule
  rw [hhits, hcounts, sum_by_key (nodup_forAccount castTime tables filters now horg), sum_by_key hrules]
  refine congrArg (fun reports => (List.map (joins.weight tables) reports).sum) (List.filter_congr fun report _ => ?_)
  have hshown : ((tables.rules.rows.filter (isShown tables orgId)).map (·.id)).contains report.rule =
      ruleShown tables orgId report.rule := by
    rw [Bool.eq_iff_iff, ruleShown_iff]
    simp
  rw [hshown, inAccount, Bool.and_right_comm]

end Lists

/-- The count of a rule, its list of systems and its detailed list are about the same hosts, each once. -/
structure RuleViewsAgree (castTime : CastTime) (tables : Tables) (request : Request) (joins : Joins) (rule : Rule) :
    Prop where
  count : impactedSystemsCount castTime tables request joins rule =
    (systemsOfRule castTime tables request joins rule).toFinset.card
  listed : (systemsOfRule castTime tables request joins rule).Nodup
  detailed : ((systemsDetail castTime tables request joins rule).map (·.row.inventoryId)).Nodup
  hosts : ∀ host, host ∈ systemsOfRule castTime tables request joins rule ↔
    host ∈ (systemsDetail castTime tables request joins rule).map (·.row.inventoryId)

/-- The views of every rule shown agree, and the hits of all systems add up to the counts of all rules shown. -/
structure ViewsAgree (castTime : CastTime) (tables : Tables) (request : Request) (joins : Joins) : Prop where
  rules : ∀ rule : ShownRule tables request.orgId, RuleViewsAgree castTime tables request joins rule.rule
  sums : ((getSystemsQueryset castTime tables request joins).map (·.hits)).sum =
    ((tables.rules.rows.filter (isShown tables request.orgId)).map
      (impactedSystemsCount castTime tables request joins)).sum

/-- No row that the account shows is joined with two passing rows, if it has a report of a rule shown. -/
def JoinedOnce (castTime : CastTime) (tables : Tables) (request : Request) (joins : Joins) : Prop :=
  request.orgId ≠ "" → ∀ row ∈ tables.inventory, (forAccountWhere castTime tables request row).holds = true →
    ∀ report ∈ tables.reports, report.orgId = request.orgId → report.host = row.inventoryId →
      ruleShown tables request.orgId report.rule = true → (Truth.not (hostAcked tables request report)).holds = true →
        ((joins row).filter Truth.holds).length ≤ 1

theorem joinedOnce_none (castTime : CastTime) (tables : Tables) (request : Request) :
    JoinedOnce castTime tables request .none := fun _ _ _ _ _ _ _ _ _ _ => le_rfl

theorem ruleViewsAgree_iff (castTime : CastTime) (tables : Tables) (filters : HostFilters) (now : Instant)
    (horg : orgId ≠ "") (joins : Joins) (rule : ShownRule tables orgId) :
    RuleViewsAgree castTime tables (filters.request orgId now) joins rule.rule ↔
      ∀ report ∈ reportsOfRule castTime tables filters now orgId rule.rule, joins.weight tables report ≤ 1 := by
  have hnodup : (systemsOfRule castTime tables (filters.request orgId now) joins rule.rule).Nodup ↔
      ∀ report ∈ reportsOfRule castTime tables filters now orgId rule.rule, joins.weight tables report ≤ 1 := by
    rw [systemsOfRule_eq castTime tables filters now horg]
    exact nodup_copies (nodup_reportsOfRule castTime tables filters now rule.rule) _
  constructor
  · intro h
    exact hnodup.mp h.listed
  · intro hweights
    refine ⟨?_, hnodup.mpr hweights, ?_, mem_systemsOfRule castTime tables filters now horg joins rule⟩
    · rw [List.toFinset_card_of_nodup (hnodup.mpr hweights), impactedSystemsCount_eq castTime tables filters now horg,
        systemsOfRule_eq castTime tables filters now horg, length_copies]
    · have hrows : ((rowsOfRule castTime tables filters now orgId rule.rule).map (·.inventoryId)).Nodup :=
        (nodup_forAccount castTime tables filters now horg).sublist (List.filter_sublist.map _)
      rw [systemsDetail_eq, nodup_copies hrows]
      intro row hrow
      obtain ⟨hlisted, report, hreport, hhost⟩ := (mem_rowsOfRule castTime tables filters now horg rule).mp hrow
      rw [← weight_reportsOfRule castTime tables filters now horg joins hlisted hreport hhost]
      exact hweights report hreport

theorem views_agree_iff (castTime : CastTime) (tables : Tables) (filters : HostFilters) (orgId : String) (now : Instant)
    (joins : Joins) :
    ViewsAgree castTime tables (filters.request orgId now) joins ↔
      JoinedOnce castTime tables (filters.request orgId now) joins := by
  by_cases horg : orgId = ""
  · have hnone : (filters.request orgId now).orgId = "" := horg
    constructor
    · exact fun _ hnot => absurd hnone hnot
    · intro _
      have hlist : ∀ rule, systemsOfRule castTime tables (filters.request orgId now) joins rule = [] := by
        simp [systemsOfRule, getReportsSubquery, hnone]
      have hcount : impactedSystemsCount castTime tables (filters.request orgId now) joins = fun _ => 0 := by
        funext rule
        simp [impactedSystemsCount, getReportsSubquery, hnone]
      have hdetail : getSystemsQueryset castTime tables (filters.request orgId now) joins = [] := by
        simp [getSystemsQueryset, forAccountJoined, forAccount, hnone]
      refine ⟨fun rule => ⟨?_, ?_, ?_, ?_⟩, ?_⟩
      · simp [hcount, hlist]
      · simp [hlist]
      · simp [systemsDetail, hdetail]
      · simp [systemsDetail, hdetail, hlist]
      · simp [hcount, hdetail]
  have hrows : ∀ row, row ∈ forAccount castTime tables (filters.request orgId now) ↔
      row ∈ tables.inventory ∧ (forAccountWhere castTime tables (filters.request orgId now) row).holds = true := by
    intro row
    have hnot : (filters.request orgId now).orgId ≠ "" := horg
    rw [forAccount, if_neg hnot, List.mem_filter, Table.mem_def]
  constructor
  · intro h _ row hstored hwhere report hreport hown hhost hshown hack
    obtain ⟨rule, hrule, hid⟩ := List.mem_map.mp ((ruleShown_iff _).mp hshown)
    obtain ⟨hruleStored, hruleShown⟩ := List.mem_filter.mp hrule
    have hrow := (hrows row).mpr ⟨hstored, hwhere⟩
    have hlisted : report ∈ reportsOfRule castTime tables filters now orgId rule := by
      rw [mem_reportsOfRule]
      refine ⟨hreport, ?_, ⟨row, hrow, hhost.symm⟩, hid.symm⟩
      rw [counted, hack, Bool.and_true, decide_eq_true_eq]
      exact hown
    have hone := (ruleViewsAgree_iff castTime tables filters now horg joins
      ⟨rule, Table.mem_def.mpr hruleStored, hruleShown⟩).mp (h.rules ⟨rule, Table.mem_def.mpr hruleStored, hruleShown⟩)
        report hlisted
    rw [weight_reportsOfRule castTime tables filters now horg joins hrow hlisted hhost] at hone
    exact hone
  · intro h
    refine ⟨fun rule => ?_, sum_hits castTime tables filters now horg joins⟩
    refine (ruleViewsAgree_iff castTime tables filters now horg joins rule).mpr fun report hreport => ?_
    obtain ⟨hstored, hcounted, ⟨row, hrow, hid⟩, hof⟩ := (mem_reportsOfRule castTime tables filters now).mp hreport
    rw [weight_reportsOfRule castTime tables filters now horg joins hrow hreport hid.symm]
    rw [counted, Bool.and_eq_true, decide_eq_true_eq] at hcounted
    obtain ⟨hrowStored, hwhere⟩ := (hrows row).mp hrow
    refine h horg row hrowStored hwhere report hstored hcounted.1 hid.symm ?_ hcounted.2
    exact (ruleShown_iff _).mpr (List.mem_map.mpr ⟨rule.rule, List.mem_filter.mpr ⟨rule.stored, rule.shown⟩, hof.symm⟩)

section ReportsJoined

def fullRow : AdvisorInventoryHost where
  orgId := "1234567"
  inventoryId := 1
  updated := 0
  columns := [("insights_id", some (.uuid 5)), ("display_name", some (.text "web")), ("tags", some (.json (.list []))),
    ("created", some (.instant 0)), ("last_check_in", some (.instant 0)), ("stale_timestamp", some (.instant 0)),
    ("reporter", some (.text "puptoo")), ("workloads", some (.json (.dict []))),
    ("per_reporter_staleness", some (.json (.dict [("puptoo", .dict [("stale_warning_timestamp", .int 1)])])))]

theorem complete_fullRow : Complete fullRow := by
  rw [complete_iff]
  have hcells : ∀ name ∈ requiredColumns, (fullRow.cell name).isSome = true := by decide +kernel
  exact hcells

def reportOf (rule : Nat) : CurrentReport where
  account := none
  orgId := "1234567"
  rule
  host := 1
  upload := 1
  details := .null
  impactedDate := none

def twoReports : Tables where
  rules := ⟨[{ id := 1, ruleId := "rule|ONE", active := true }, { id := 2, ruleId := "rule|TWO", active := true }], by decide⟩
  categoryOf _ := 1
  reports := ⟨[reportOf 1, reportOf 2], by decide⟩
  acks := .empty
  hostAcks := .empty
  hosts := .single { inventoryId := 1, account := none, orgId := "1234567" }
  inventory := .single fullRow
  reportRules report h := by
    rcases List.mem_cons.mp h with rfl | h
    · rfl
    · rw [List.mem_singleton.mp h]
      rfl
  reportHosts report h := by
    rcases List.mem_cons.mp h with rfl | h
    · rfl
    · rw [List.mem_singleton.mp h]
      rfl
  complete row h := by
    rw [Table.mem_single.mp h]
    exact complete_fullRow

def castInt : CastTime
  | .int n => some n
  | _ => none

/-- `filter[system_profile][advisor_currentreports][rule_id][gte]=0` joins the system with both of its reports, and
each rule's list shows it twice. -/
theorem viewsAgree_reportsJoined :
    ¬ ViewsAgree castInt twoReports (({} : HostFilters).request "1234567" 0)
      (.currentReports twoReports fun report => Truth.ofBool (0 ≤ report.rule)) := by
  intro h
  have hlist := (h.rules ⟨{ id := 1, ruleId := "rule|ONE", active := true }, List.mem_cons_self, by decide⟩).listed
  have htwice : systemsOfRule castInt twoReports (({} : HostFilters).request "1234567" 0)
      (.currentReports twoReports fun report => Truth.ofBool (0 ≤ report.rule))
      { id := 1, ruleId := "rule|ONE", active := true } = [1, 1] := by
    decide +kernel
  rw [htwice] at hlist
  exact absurd hlist (by decide)

end ReportsJoined

end Advisor.Reports
