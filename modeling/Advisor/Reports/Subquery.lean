import Advisor.Models
import Advisor.Reports.Filters

/-! The query on current reports that every view of the API starts from, in its two variants. -/

namespace Advisor.Reports

open Python Django Relational

/-- The tables with the constraints the queries rest on. `categoryOf` stands for a column of the rules. -/
structure Tables where
  rules : Table Rule.id
  categoryOf : Nat → Nat
  reports : Table CurrentReport.key
  acks : Table Ack.key
  hostAcks : Table HostAck.key
  hosts : Table Host.inventoryId
  inventory : Table AdvisorInventoryHost.key
  reportRules : ∀ report ∈ reports, (rules.get? report.rule).isSome
  reportHosts : ∀ report ∈ reports, (hosts.get? report.host).isSome
  complete : ∀ row ∈ inventory, Complete row

structure Request extends HostFilters where
  orgId : String
  now : Instant
  categories : List Nat := []
  branchId : Option Uuid := none

structure Flags where
  excludeIneligibleRules : Bool := true
  excludeIneligibleHosts : Bool := true
  filterBranchId : Bool := true
  useJoins : Bool := false

/-- Filters on other tables, lookups of a request that leave the inventory row among them: for each report the rows
they join to it, with what they make of them. A filter on a column of the report itself joins one row. -/
abbrev OuterFilter := CurrentReport → List Truth

def OuterFilter.none : OuterFilter := fun _ => [.yes]

def OuterFilter.tagNames (tables : Tables) (names : List String) : OuterFilter := fun report =>
  (((tables.rules.get? report.rule).map (·.tags)).getD []).map fun tag => Truth.isIn (some tag) (names.map some)

def OuterFilter.where (condition : CurrentReport → Truth) : OuterFilter := fun report => [condition report]

/-- The cast of PostgreSQL from JSON text to a time, where it does not raise an error. -/
abbrev CastTime := Json → Option Instant

variable (castTime : CastTime) (tables : Tables) (request : Request) (flags : Flags)

def inventoryOf (report : CurrentReport) : Option AdvisorInventoryHost :=
  tables.inventory.get? (report.orgId, report.host)

/-- The cast reads the time of a row, or there is none to read. The queries are those of a database whose casts do not
raise; where they may, it is said. -/
def castable (staleness : Option Value) : Bool :=
  (jsonAt ["puptoo", "stale_warning_timestamp"] staleness).all fun value => (castTime value).isSome

def puptooStaleTimestamp (row : AdvisorInventoryHost) : Option Instant :=
  (jsonAt ["puptoo", "stale_warning_timestamp"] (row.cell "per_reporter_staleness")).bind castTime

/-- `puptoo_stale_timestamp > now`. -/
def isFresh (now : Instant) (row : AdvisorInventoryHost) : Truth :=
  match puptooStaleTimestamp castTime row with
  | some t => Truth.ofBool (now < t)
  | none => .unknown

def staleSystemsQ (orgId : String) (now : Instant) (host : Uuid) : Truth :=
  Truth.any tables.inventory.rows fun row =>
    Truth.and (Truth.eq (some row.orgId) (some orgId))
      (Truth.and (Truth.eq (some row.inventoryId) (some host)) (isFresh castTime now row))

def filterOnBranchId (branchId : Option Uuid) (column : Option Uuid) : Truth :=
  match branchId with
  | none => .yes
  | some value => Truth.eq column (some value)

def categoryFilter (report : CurrentReport) : Truth :=
  if request.categories = [] then .yes
  else Truth.isIn ((tables.rules.get? report.rule).map fun rule => tables.categoryOf rule.id)
    (request.categories.map some)

def staleSystemsFilter (report : CurrentReport) : Truth :=
  if flags.useJoins then
    Truth.any tables.inventory.rows fun row =>
      Truth.and (Truth.eq (some row.inventoryId) (some report.host))
        (Truth.and (Truth.eq (some row.orgId) (some request.orgId)) (isFresh castTime request.now row))
  else
    Truth.and (staleSystemsQ castTime tables request.orgId request.now report.host)
      (Truth.eq (some report.orgId) (some request.orgId))

/-- What `exclude_ineligible_hosts` turns on. -/
def hostsFilter (report : CurrentReport) : Truth :=
  if flags.excludeIneligibleHosts then
    Truth.and (filterOnHostTags request.toHostFilters tables.inventory request.orgId report.host)
      (Truth.and (request.toHostFilters.condition.onJoined (inventoryOf tables report))
        (Truth.and (categoryFilter tables request report)
          (Truth.and
            (if flags.filterBranchId then
              filterOnBranchId request.branchId ((tables.hosts.get? report.host).bind (·.branchId))
            else .yes)
            (staleSystemsFilter castTime tables request flags report))))
  else .yes

def ackFilter (report : CurrentReport) : Truth :=
  if flags.excludeIneligibleRules then
    if flags.useJoins then
      Truth.any tables.acks.rows fun ack =>
        Truth.and (Truth.eq (some ack.orgId) (some request.orgId)) (Truth.eq (some ack.rule) (some report.rule))
    else
      Truth.isIn (some report.rule)
        (((tables.rules.rows.filter fun rule => !rule.active).map (·.id) ++
          (tables.acks.rows.filter fun ack => ack.orgId = request.orgId).map (·.rule)).map some)
  else .no

def activeFilter (report : CurrentReport) : Truth :=
  if flags.useJoins && flags.excludeIneligibleRules then
    Truth.eq ((tables.rules.get? report.rule).map (·.active)) (some true)
  else .yes

def hostAcked (report : CurrentReport) : Truth :=
  Truth.any tables.hostAcks.rows fun ack =>
    Truth.and (Truth.eq (some ack.orgId) (some request.orgId))
      (Truth.and (Truth.eq (some ack.rule) (some report.rule)) (Truth.eq (some ack.host) (some report.host)))

/-- The `WHERE` of the query, on a report with a row the outer filters join to it. -/
def whereClause (report : CurrentReport) (outer : Truth) : Truth :=
  Truth.and (hostsFilter castTime tables request flags report)
    (Truth.and (Truth.eq (some report.orgId) (some request.orgId))
      (Truth.and outer
        (Truth.and (activeFilter tables flags report)
          (Truth.and (Truth.not (ackFilter tables request flags report))
            (Truth.not (hostAcked tables request report))))))

def getReportsSubquery (outer : OuterFilter) : List CurrentReport :=
  if request.orgId = "" then []
  else tables.reports.rows.flatMap fun report =>
    ((outer report).filter fun joined => (whereClause castTime tables request flags report joined).holds).map
      fun _ => report

def eligible (report : CurrentReport) : Bool :=
  (hostsFilter castTime tables request flags report).holds && report.orgId = request.orgId &&
    (activeFilter tables flags report).holds && (Truth.not (ackFilter tables request flags report)).holds &&
      (Truth.not (hostAcked tables request report)).holds

variable {castTime tables request flags}

theorem holds_whereClause (report : CurrentReport) (outer : Truth) :
    (whereClause castTime tables request flags report outer).holds =
      (eligible castTime tables request flags report && outer.holds) := by
  simp only [whereClause, eligible, Truth.holds_and, Truth.eq_some, Truth.holds_ofBool]
  cases outer.holds <;> simp [Bool.and_assoc]

theorem getReportsSubquery_stored {outer : OuterFilter} {report : CurrentReport}
    (h : report ∈ getReportsSubquery castTime tables request flags outer) : report ∈ tables.reports := by
  rw [getReportsSubquery] at h
  split at h
  · cases h
  · obtain ⟨stored, hstored, hreport⟩ := List.mem_flatMap.mp h
    obtain ⟨-, -, rfl⟩ := List.mem_map.mp hreport
    exact hstored

theorem getReportsSubquery_eq (outer : OuterFilter) (horg : request.orgId ≠ "") :
    getReportsSubquery castTime tables request flags outer =
      tables.reports.rows.flatMap fun report =>
        if eligible castTime tables request flags report then ((outer report).filter Truth.holds).map fun _ => report
        else [] := by
  rw [getReportsSubquery, if_neg horg]
  congr 1
  funext report
  simp only [holds_whereClause]
  by_cases h : eligible castTime tables request flags report = true
  · simp [h]
  · simp [h]

theorem getReportsSubquery_where (condition : CurrentReport → Truth) (horg : request.orgId ≠ "") :
    getReportsSubquery castTime tables request flags (.where condition) =
      tables.reports.rows.filter fun report =>
        eligible castTime tables request flags report && (condition report).holds := by
  rw [getReportsSubquery_eq _ horg]
  generalize tables.reports.rows = rows
  induction rows with
  | nil => rfl
  | cons report rows ih =>
    rw [List.flatMap_cons, ih, List.filter_cons, OuterFilter.where]
    by_cases hel : eligible castTime tables request flags report = true
    · by_cases hc : (condition report).holds = true
      · simp [hel, hc]
      · simp [hel, hc]
    · simp [hel]

def acked (tables : Tables) (orgId : String) (rule : Nat) : Bool :=
  tables.acks.rows.any fun ack => ack.orgId = orgId && ack.rule = rule

theorem rulesFilter_eq (request : Request) (flags : Flags) {report : CurrentReport} {rule : Rule}
    (hrule : tables.rules.get? report.rule = some rule) :
    ((activeFilter tables flags report).holds && (Truth.not (ackFilter tables request flags report)).holds) =
      (!flags.excludeIneligibleRules || (rule.active && !acked tables request.orgId report.rule)) := by
  unfold activeFilter ackFilter
  by_cases hrules : flags.excludeIneligibleRules = true
  · cases flags.useJoins with
    | true =>
      simp only [hrules, Bool.and_true, if_true, hrule, Option.map_some, Truth.eq_some, Truth.holds_ofBool,
        Truth.any, Truth.not_ofBool]
      simp [acked]
    | false =>
      have hmem : report.rule ∈ (tables.rules.rows.filter fun rule => !rule.active).map (·.id) ++
          (tables.acks.rows.filter fun ack => ack.orgId = request.orgId).map (·.rule) ↔
          rule.active = false ∨ acked tables request.orgId report.rule = true := by
        rw [List.mem_append]
        refine or_congr ?_ ?_
        · constructor
          · intro h
            obtain ⟨other, hother, hid⟩ := List.mem_map.mp h
            obtain ⟨hstored, hinactive⟩ := List.mem_filter.mp hother
            have hfound : tables.rules.get? report.rule = some other :=
              Table.get?_eq_some.mpr ⟨Table.mem_def.mpr hstored, hid⟩
            rw [hrule] at hfound
            obtain rfl := Option.some.inj hfound
            simpa using hinactive
          · intro h
            obtain ⟨hstored, hid⟩ := Table.get?_eq_some.mp hrule
            exact List.mem_map.mpr ⟨rule, List.mem_filter.mpr ⟨hstored, by simp [h]⟩, hid⟩
        · simp [acked, and_assoc]
      simp only [hrules, Bool.false_and, Bool.false_eq_true, if_true, if_false, Truth.isIn_some,
        Truth.not_ofBool, Truth.holds_ofBool, hmem]
      cases rule.active <;> cases acked tables request.orgId report.rule <;> rfl
  · simp [hrules, Truth.not, Truth.holds]

end Advisor.Reports
