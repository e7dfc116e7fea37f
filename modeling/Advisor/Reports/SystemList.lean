import Advisor.Reports.Pagination
import Advisor.Reports.Systems
import Advisor.Reports.Variants

/-! The list of systems: what it shows of each, its filters, its order and its pages; and the view of the reports of
one system. -/

namespace Advisor.Reports

open Python Django Relational

/-- The tables the list reads beside those of every view. `pathwayOf` is the slug of a rule's pathway, and
`clientSource` the source of uploads whose id is 1. -/
structure SystemTables extends Tables where
  uploads : Table Upload.id
  clientSource : String
  pathwayOf : Nat → Option String
  tagsOnce : ∀ rule ∈ rules, rule.tags.Nodup

inductive HitType where
  | all
  | yes
  | no
  | critical
  | important
  | moderate
  | low
  deriving DecidableEq

structure ListParams where
  displayName : Option String := none
  hits : List HitType := []
  incident : Option Bool := none
  rhelVersion : Option (List (Int × Int)) := none
  pathway : Option String := none
  hasDisabledRecommendation : Option Bool := none

structure SystemRow extends System where
  lastSeen : Option Instant
  criticalHits : Nat
  importantHits : Nat
  moderateHits : Nat
  lowHits : Nat
  incidentHits : Nat
  allPathwayHits : Nat
  pathwayFilterHits : Nat

abbrev Contains := String → String → Bool

variable (castTime : CastTime) (icontains : Contains) (tables : SystemTables) (request : Request) (params : ListParams)

def riskOf (report : CurrentReport) : Option Nat := (tables.rules.get? report.rule).map (·.totalRisk)

def slugOf (report : CurrentReport) : Option String := tables.pathwayOf report.rule

def tagsOf (report : CurrentReport) : List String := ((tables.rules.get? report.rule).map (·.tags)).getD []

def hitsRiskCount (value : Nat) (host : Uuid) : Nat :=
  (reportsOfHost castTime tables.toTables request (fun report => Truth.eq (riskOf tables report) (some value))
    host).length

/-- `rule__tags__name='incident'` joins a report with each tag of its rule. -/
def incidentHits (host : Uuid) : Nat :=
  (getReportsSubquery castTime tables.toTables request { excludeIneligibleHosts := false } fun report =>
    (tagsOf tables report).map fun tag =>
      Truth.and (Truth.eq (some report.host) (some host)) (Truth.eq (some tag) (some "incident"))).length

def allPathwayHits (host : Uuid) : Nat :=
  (reportsOfHost castTime tables.toTables request (fun report => Truth.isNotNull (slugOf tables report)) host).length

/-- Without a slug asked for, `rule__pathway__slug=None` is `IS NULL`. -/
def pathwayFilterHits (host : Uuid) : Nat :=
  (reportsOfHost castTime tables.toTables request (fun report =>
    match params.pathway with
    | none => Truth.isNull (slugOf tables report)
    | some slug => Truth.eq (slugOf tables report) (some slug)) host).length

def lastSeen (host : Uuid) : Option Instant :=
  (tables.uploads.rows.find? fun upload =>
    upload.host = host && upload.source = tables.clientSource && upload.current).map (·.checkedOn)

def annotateSystem (system : System) : SystemRow :=
  let host := system.row.inventoryId
  { system with
    lastSeen := lastSeen tables host
    criticalHits := hitsRiskCount castTime tables request 4 host
    importantHits := hitsRiskCount castTime tables request 3 host
    moderateHits := hitsRiskCount castTime tables request 2 host
    lowHits := hitsRiskCount castTime tables request 1 host
    incidentHits := incidentHits castTime tables request host
    allPathwayHits := allPathwayHits castTime tables request host
    pathwayFilterHits := pathwayFilterHits castTime tables request params host }

def filterOnDisplayName (system : SystemRow) : Bool :=
  match params.displayName with
  | none => true
  | some name =>
    if name = "" then true
    else
      match system.row.cell "display_name" with
      | some (.text displayName) => icontains displayName name
      | _ => false

def HitType.accepts (system : SystemRow) : HitType → Bool
  | all => true
  | yes => 0 < system.hits
  | no => system.hits = 0
  | critical => 0 < system.criticalHits
  | important => 0 < system.importantHits
  | moderate => 0 < system.moderateHits
  | low => 0 < system.lowHits

def filterOnHits (system : SystemRow) : Bool :=
  if params.hits = [] then true
  else
    match [HitType.all, .yes, .no].filter params.hits.contains with
    | special :: _ => special.accepts system
    | [] => params.hits.any (·.accepts system)

def filterOnIncident (system : SystemRow) : Bool :=
  match params.incident with
  | none => true
  | some true => 0 < system.incidentHits
  | some false => system.incidentHits = 0

def filterOnRhelVersion (system : SystemRow) : Bool :=
  match params.rhelVersion with
  | none | some [] => true
  | some versions => versions.any fun version =>
      (Truth.and (Truth.eq (system.row.cell "os_major") (some (.int version.1)))
        (Truth.eq (system.row.cell "os_minor") (some (.int version.2)))).holds

/-- Some host ack of the system, or some report of it for a rule that the organisation has acked. Django reads the
columns of `advisor_inventory` that the relations are made of from the host and from the report. -/
def hasDisabledRecommendation (row : AdvisorInventoryHost) : Bool :=
  (tables.hostAcks.rows.any fun ack =>
    ack.host = row.inventoryId && (tables.hosts.get? ack.host).any fun host => host.orgId = row.orgId) ||
    tables.reports.rows.any fun report =>
      report.host = row.inventoryId && acked tables.toTables request.orgId report.rule

def filterOnHasDisabledRecommendation (system : SystemRow) : Bool :=
  match params.hasDisabledRecommendation with
  | none => true
  | some wanted => hasDisabledRecommendation tables request system.row = wanted

def filterOnPathway (system : SystemRow) : Bool :=
  match params.pathway with
  | none => true
  | some slug => slug = "" || 0 < system.pathwayFilterHits

/-- `get_systems_queryset`, for lookups of the system profile that stay on the inventory row. -/
def systemsList : List SystemRow :=
  ((getSystemsQueryset castTime tables.toTables request .none).map
    (annotateSystem castTime tables request params)).filter fun system =>
      filterOnPathway params system && filterOnDisplayName icontains params system && filterOnHits params system &&
        filterOnIncident params system && filterOnRhelVersion params system &&
        filterOnHasDisabledRecommendation tables request params system

def reportsView (host : Uuid) : List CurrentReport :=
  getReportsSubquery castTime tables.toTables request { useJoins := true }
    (.where fun report => Truth.eq (some report.host) (some host))

/-- The numbers of a row count the reports of the system. -/
structure Shows (system : SystemRow) (shown : List CurrentReport) : Prop where
  hits : system.hits = shown.length
  criticalHits : system.criticalHits = shown.countP fun report => riskOf tables report = some 4
  importantHits : system.importantHits = shown.countP fun report => riskOf tables report = some 3
  moderateHits : system.moderateHits = shown.countP fun report => riskOf tables report = some 2
  lowHits : system.lowHits = shown.countP fun report => riskOf tables report = some 1
  incidentHits : system.incidentHits = shown.countP fun report => (tagsOf tables report).contains "incident"
  allPathwayHits : system.allPathwayHits = shown.countP fun report => (slugOf tables report).isSome
  pathwayFilterHits : system.pathwayFilterHits = shown.countP fun report => slugOf tables report = params.pathway

def HitType.risk : HitType → Option Nat
  | critical => some 4
  | important => some 3
  | moderate => some 2
  | low => some 1
  | all | yes | no => none

/-- `all` goes before `yes`, that before `no`, and these before the risks. -/
inductive HitsWanted (shown : List CurrentReport) : List HitType → Prop
  | none : HitsWanted shown []
  | all {hits : List HitType} (h : .all ∈ hits) : HitsWanted shown hits
  | yes {hits : List HitType} (hall : .all ∉ hits) (h : .yes ∈ hits) (hshown : shown ≠ []) : HitsWanted shown hits
  | no {hits : List HitType} (hall : .all ∉ hits) (hyes : .yes ∉ hits) (h : .no ∈ hits) (hshown : shown = []) :
    HitsWanted shown hits
  | risk {hits : List HitType} (hall : .all ∉ hits) (hyes : .yes ∉ hits) (hno : .no ∉ hits) {hit : HitType}
    {report : CurrentReport} {value : Nat} (hhit : hit ∈ hits) (hreport : report ∈ shown) (hvalue : hit.risk = some value)
    (hrisk : riskOf tables report = some value) : HitsWanted shown hits

structure Wanted (row : AdvisorInventoryHost) (shown : List CurrentReport) : Prop where
  pathway : ∀ slug, params.pathway = some slug → slug ≠ "" → ∃ report ∈ shown, slugOf tables report = some slug
  displayName : ∀ name, params.displayName = some name → name ≠ "" →
    ∃ displayName, row.cell "display_name" = some (.text displayName) ∧ icontains displayName name = true
  hits : HitsWanted tables shown params.hits
  incident : ∀ wanted, params.incident = some wanted →
    (wanted = true ↔ ∃ report ∈ shown, "incident" ∈ tagsOf tables report)
  rhelVersion : ∀ versions, params.rhelVersion = some versions → versions ≠ [] → ∃ version ∈ versions,
    row.cell "os_major" = some (.int version.1) ∧ row.cell "os_minor" = some (.int version.2)
  disabled : ∀ wanted, params.hasDisabledRecommendation = some wanted →
    hasDisabledRecommendation tables request row = wanted

variable {castTime icontains tables request params} {filters : HostFilters} {orgId : String} {now : Instant}

theorem reportsView_eq (horg : orgId ≠ "") (host : Uuid) :
    reportsView castTime tables (filters.request orgId now) host =
      tables.reports.rows.filter fun report => (counted tables.toTables (filters.request orgId now) report &&
        inAccount castTime tables.toTables (filters.request orgId now) report &&
          ruleShown tables.toTables orgId report.rule) && report.host = host := by
  have hflags : ({ useJoins := true } : Flags) = Flags.using { excludeIneligibleRules := true } true := rfl
  rw [reportsView, hflags, getReportsSubquery_where _ horg]
  apply List.filter_congr
  intro report hreport
  have hstored : report ∈ tables.reports := Table.mem_def.mpr hreport
  have hplain : Flags.using { excludeIneligibleRules := true } false = { excludeIneligibleRules := true } := rfl
  rw [eligible_using hstored, hplain, eligible_hosts castTime tables.toTables filters now horg true hstored]
  simp

theorem reportsOfHost_eq {row : AdvisorInventoryHost}
    (hrow : row ∈ forAccount castTime tables.toTables (filters.request orgId now)) (horg : orgId ≠ "")
    (condition : CurrentReport → Truth) :
    reportsOfHost castTime tables.toTables (filters.request orgId now) condition row.inventoryId =
      (reportsView castTime tables (filters.request orgId now) row.inventoryId).filter fun report =>
        (condition report).holds := by
  rw [reports_host castTime tables.toTables filters now horg, reportsView_eq horg, List.filter_filter]
  apply List.filter_congr
  intro report _
  by_cases hhost : report.host = row.inventoryId
  · have hin : inAccount castTime tables.toTables (filters.request orgId now) report = true := by
      rw [inAccount, hhost, List.contains_iff_mem]
      exact List.mem_map_of_mem hrow
    simp [hin, hhost, Bool.and_comm]
  · simp [hhost]

theorem length_flatMap_unit {α β : Type*} {l : List α} {f : α → List β} {p : α → Bool}
    (h : ∀ a ∈ l, (f a).length = if p a then 1 else 0) : (l.flatMap f).length = l.countP p := by
  induction l with
  | nil => rfl
  | cons a l ih =>
    rw [List.flatMap_cons, List.length_append, h a (by simp), ih fun b hb => h b (by simp [hb]), List.countP_cons]
    omega

theorem tagsOf_nodup (report : CurrentReport) : (tagsOf tables report).Nodup := by
  unfold tagsOf
  cases hrule : tables.rules.get? report.rule with
  | none => exact List.nodup_nil
  | some rule => exact tables.tagsOnce rule (Table.get?_eq_some.mp hrule).1

theorem incidentHits_eq (horg : request.orgId ≠ "") (host : Uuid) :
    incidentHits castTime tables request host =
      (reportsOfHost castTime tables.toTables request
        (fun report => Truth.ofBool ((tagsOf tables report).contains "incident")) host).length := by
  rw [incidentHits, getReportsSubquery_eq _ horg, reportsOfHost, getReportsSubquery_where _ horg,
    ← List.countP_eq_length_filter]
  apply length_flatMap_unit
  intro report _
  by_cases heligible : eligible castTime tables.toTables request { excludeIneligibleHosts := false } report = true
  · rw [if_pos heligible, List.length_map, List.filter_map, List.length_map]
    by_cases hhost : report.host = host
    · have hcount : ((tagsOf tables report).filter fun tag => decide (tag = "incident")).length =
          if (tagsOf tables report).contains "incident" then 1 else 0 := by
        rw [← List.countP_eq_length_filter]
        show (tagsOf tables report).countP _ = _
        have hbeq : (fun tag : String => decide (tag = "incident")) = fun tag => tag == "incident" := by
          funext tag
          exact (beq_eq_decide _ _).symm
        rw [hbeq]
        show (tagsOf tables report).count "incident" = _
        by_cases hmem : "incident" ∈ tagsOf tables report
        · rw [if_pos (List.contains_iff_mem.mpr hmem), List.count_eq_one_of_mem (tagsOf_nodup report) hmem]
        · rw [if_neg (fun h => hmem (List.contains_iff_mem.mp h)), List.count_eq_zero.mpr hmem]
      simpa [Function.comp_def, heligible, hhost] using hcount
    · simp [Function.comp_def, hhost]
  · rw [if_neg heligible]
    simp [heligible]

theorem annotate_shows (params : ListParams) {row : AdvisorInventoryHost}
    (hrow : row ∈ forAccount castTime tables.toTables (filters.request orgId now)) (horg : orgId ≠ "") :
    Shows tables params
      (annotateSystem castTime tables (filters.request orgId now) params
        { row, hits := (reportsOfHost castTime tables.toTables (filters.request orgId now) (fun _ => .yes)
          row.inventoryId).length })
      (reportsView castTime tables (filters.request orgId now) row.inventoryId) := by
  have hcount : ∀ condition : CurrentReport → Truth,
      (reportsOfHost castTime tables.toTables (filters.request orgId now) condition row.inventoryId).length =
        (reportsView castTime tables (filters.request orgId now) row.inventoryId).countP fun report =>
          (condition report).holds := by
    intro condition
    rw [reportsOfHost_eq hrow horg, List.countP_eq_length_filter]
  have hrisk : ∀ value, hitsRiskCount castTime tables (filters.request orgId now) value row.inventoryId =
      (reportsView castTime tables (filters.request orgId now) row.inventoryId).countP fun report =>
        riskOf tables report = some value := by
    intro value
    rw [hitsRiskCount, hcount]
    apply List.countP_congr
    intro report _
    cases riskOf tables report with
    | none => simp [Truth.eq, Truth.holds]
    | some risk => simp
  refine ⟨?_, hrisk 4, hrisk 3, hrisk 2, hrisk 1, ?_, ?_, ?_⟩
  · show (reportsOfHost castTime tables.toTables (filters.request orgId now) (fun _ => .yes) row.inventoryId).length = _
    rw [hcount]
    exact List.countP_eq_length.mpr fun _ _ => rfl
  · show incidentHits castTime tables (filters.request orgId now) row.inventoryId = _
    rw [incidentHits_eq horg, hcount]
    simp only [Truth.holds_ofBool]
  · show allPathwayHits castTime tables (filters.request orgId now) row.inventoryId = _
    rw [allPathwayHits, hcount]
    simp only [Truth.isNotNull, Truth.holds_ofBool]
  · show pathwayFilterHits castTime tables (filters.request orgId now) params row.inventoryId = _
    rw [pathwayFilterHits, hcount]
    apply List.countP_congr
    intro report _
    cases params.pathway with
    | none => simp [Truth.isNull]
    | some slug =>
      cases slugOf tables report with
      | none => simp [Truth.eq, Truth.holds]
      | some found => simp

section

variable {system : SystemRow} {shown : List CurrentReport}

theorem accepts_of_risk (h : Shows tables params system shown) {hit : HitType} {value : Nat} (hvalue : hit.risk = some value) :
    hit.accepts system = true ↔ ∃ report ∈ shown, riskOf tables report = some value := by
  have hpos : ∀ {count value : Nat}, (count = shown.countP fun report => riskOf tables report = some value) →
      (decide (0 < count) = true ↔ ∃ report ∈ shown, riskOf tables report = some value) := by
    intro count value hcount
    rw [decide_eq_true_eq, hcount, List.countP_pos_iff]
    simp only [decide_eq_true_eq]
  cases hit with
  | critical =>
    cases hvalue
    exact hpos h.criticalHits
  | important =>
    cases hvalue
    exact hpos h.importantHits
  | moderate =>
    cases hvalue
    exact hpos h.moderateHits
  | low =>
    cases hvalue
    exact hpos h.lowHits
  | all => cases hvalue
  | yes => cases hvalue
  | no => cases hvalue

theorem risk_of_others {hit : HitType} (hall : hit ≠ .all) (hyes : hit ≠ .yes) (hno : hit ≠ .no) :
    ∃ value, hit.risk = some value := by
  cases hit with
  | all => exact absurd rfl hall
  | yes => exact absurd rfl hyes
  | no => exact absurd rfl hno
  | critical => exact ⟨4, rfl⟩
  | important => exact ⟨3, rfl⟩
  | moderate => exact ⟨2, rfl⟩
  | low => exact ⟨1, rfl⟩

theorem filterOnHits_iff (h : Shows tables params system shown) :
    filterOnHits params system = true ↔ HitsWanted tables shown params.hits := by
  rw [filterOnHits]
  generalize params.hits = hits
  by_cases hnone : hits = []
  · rw [if_pos hnone, hnone]
    exact ⟨fun _ => .none, fun _ => rfl⟩
  rw [if_neg hnone]
  by_cases hall : HitType.all ∈ hits
  · have hspecial : [HitType.all, .yes, .no].filter hits.contains =
        .all :: [HitType.yes, .no].filter hits.contains := by
      rw [List.filter_cons, if_pos (List.contains_iff_mem.mpr hall)]
    rw [hspecial]
    exact ⟨fun _ => .all hall, fun _ => rfl⟩
  have hnotAll : ¬ hits.contains HitType.all = true := fun hc => hall (List.contains_iff_mem.mp hc)
  by_cases hyes : HitType.yes ∈ hits
  · have hspecial : [HitType.all, .yes, .no].filter hits.contains =
        .yes :: [HitType.no].filter hits.contains := by
      rw [List.filter_cons, if_neg hnotAll, List.filter_cons, if_pos (List.contains_iff_mem.mpr hyes)]
    rw [hspecial]
    show decide (0 < system.hits) = true ↔ _
    rw [decide_eq_true_eq, h.hits, List.length_pos_iff]
    constructor
    · exact fun hshown => .yes hall hyes hshown
    · intro hwanted
      cases hwanted with
      | none => cases hyes
      | all hmem => exact absurd hmem hall
      | yes _ _ hshown => exact hshown
      | no _ hnot _ _ => exact absurd hyes hnot
      | risk _ hnot _ _ _ _ _ => exact absurd hyes hnot
  have hnotYes : ¬ hits.contains HitType.yes = true := fun hc => hyes (List.contains_iff_mem.mp hc)
  by_cases hno : HitType.no ∈ hits
  · have hspecial : [HitType.all, .yes, .no].filter hits.contains = [.no] := by
      rw [List.filter_cons, if_neg hnotAll, List.filter_cons, if_neg hnotYes, List.filter_cons,
        if_pos (List.contains_iff_mem.mpr hno), List.filter_nil]
    rw [hspecial]
    show decide (system.hits = 0) = true ↔ _
    rw [decide_eq_true_eq, h.hits, List.length_eq_zero_iff]
    constructor
    · exact fun hshown => .no hall hyes hno hshown
    · intro hwanted
      cases hwanted with
      | none => cases hno
      | all hmem => exact absurd hmem hall
      | yes _ hmem _ => exact absurd hmem hyes
      | no _ _ _ hshown => exact hshown
      | risk _ _ hnot _ _ _ _ => exact absurd hno hnot
  have hnotNo : ¬ hits.contains HitType.no = true := fun hc => hno (List.contains_iff_mem.mp hc)
  have hspecial : [HitType.all, .yes, .no].filter hits.contains = [] := by
    rw [List.filter_cons, if_neg hnotAll, List.filter_cons, if_neg hnotYes, List.filter_cons, if_neg hnotNo,
      List.filter_nil]
  rw [hspecial]
  show hits.any (·.accepts system) = true ↔ _
  rw [List.any_eq_true]
  constructor
  · rintro ⟨hit, hhit, haccepts⟩
    obtain ⟨value, hvalue⟩ := risk_of_others (fun he => hall (he ▸ hhit)) (fun he => hyes (he ▸ hhit))
      fun he => hno (he ▸ hhit)
    obtain ⟨report, hreport, hrisk⟩ := (accepts_of_risk h hvalue).mp haccepts
    exact .risk hall hyes hno hhit hreport hvalue hrisk
  · intro hwanted
    cases hwanted with
    | none => exact absurd rfl hnone
    | all hmem => exact absurd hmem hall
    | yes _ hmem _ => exact absurd hmem hyes
    | no _ _ hmem _ => exact absurd hmem hno
    | risk _ _ _ hhit hreport hvalue hrisk =>
      exact ⟨_, hhit, (accepts_of_risk h hvalue).mpr ⟨_, hreport, hrisk⟩⟩

theorem filterOnIncident_iff (h : Shows tables params system shown) :
    filterOnIncident params system = true ↔ ∀ wanted, params.incident = some wanted →
      (wanted = true ↔ ∃ report ∈ shown, "incident" ∈ tagsOf tables report) := by
  have hpos : 0 < system.incidentHits ↔ ∃ report ∈ shown, "incident" ∈ tagsOf tables report := by
    rw [h.incidentHits, List.countP_pos_iff]
    simp only [List.contains_iff_mem]
  unfold filterOnIncident
  cases params.incident with
  | none => simp
  | some wanted =>
    simp only [Option.some.injEq, forall_eq']
    rw [← hpos]
    cases wanted with
    | true => simp
    | false =>
      simp only [decide_eq_true_eq, Bool.false_eq_true, false_iff]
      omega

theorem filterOnPathway_iff (h : Shows tables params system shown) :
    filterOnPathway params system = true ↔ ∀ slug, params.pathway = some slug → slug ≠ "" →
      ∃ report ∈ shown, slugOf tables report = some slug := by
  unfold filterOnPathway
  cases hpathway : params.pathway with
  | none => simp
  | some slug =>
    have hpos : 0 < system.pathwayFilterHits ↔ ∃ report ∈ shown, slugOf tables report = some slug := by
      rw [h.pathwayFilterHits, hpathway, List.countP_pos_iff]
      simp only [decide_eq_true_eq]
    simp only [Option.some.injEq, forall_eq', Bool.or_eq_true, decide_eq_true_eq]
    rw [hpos, or_iff_not_imp_left]

end

theorem filterOnDisplayName_iff {system : SystemRow} :
    filterOnDisplayName icontains params system = true ↔ ∀ name, params.displayName = some name → name ≠ "" →
      ∃ displayName, system.row.cell "display_name" = some (.text displayName) ∧ icontains displayName name = true := by
  unfold filterOnDisplayName
  cases params.displayName with
  | none => simp
  | some name =>
    simp only [Option.some.injEq, forall_eq']
    by_cases hempty : name = ""
    · simp [hempty]
    · rw [if_neg hempty]
      cases hcell : system.row.cell "display_name" with
      | none => simp [hempty]
      | some value => cases value <;> simp [hempty]

theorem filterOnRhelVersion_iff {system : SystemRow} :
    filterOnRhelVersion params system = true ↔ ∀ versions, params.rhelVersion = some versions → versions ≠ [] →
      ∃ version ∈ versions, system.row.cell "os_major" = some (.int version.1) ∧
        system.row.cell "os_minor" = some (.int version.2) := by
  have heq : ∀ (cell : Option Value) (n : Int), (Truth.eq cell (some (.int n))).holds = true ↔ cell = some (.int n) := by
    intro cell n
    cases cell with
    | none => simp [Truth.eq, Truth.holds]
    | some value => simp
  unfold filterOnRhelVersion
  cases params.rhelVersion with
  | none => simp
  | some versions =>
    cases versions with
    | nil => simp
    | cons version versions =>
      simp only [Option.some.injEq, forall_eq', List.any_eq_true, Truth.holds_and, Bool.and_eq_true, heq]
      exact ⟨fun h _ => h, fun h => h (List.cons_ne_nil _ _)⟩

theorem filterOnHasDisabled_iff {system : SystemRow} :
    filterOnHasDisabledRecommendation tables request params system = true ↔
      ∀ wanted, params.hasDisabledRecommendation = some wanted →
        hasDisabledRecommendation tables request system.row = wanted := by
  unfold filterOnHasDisabledRecommendation
  cases params.hasDisabledRecommendation with
  | none => simp
  | some wanted => simp

theorem wanted_iff {system : SystemRow} {shown : List CurrentReport} (h : Shows tables params system shown) :
    (filterOnPathway params system && filterOnDisplayName icontains params system && filterOnHits params system &&
        filterOnIncident params system && filterOnRhelVersion params system &&
          filterOnHasDisabledRecommendation tables request params system) = true ↔
      Wanted icontains tables request params system.row shown := by
  simp only [Bool.and_eq_true, filterOnPathway_iff h, filterOnDisplayName_iff, filterOnHits_iff h,
    filterOnIncident_iff h, filterOnRhelVersion_iff, filterOnHasDisabled_iff]
  constructor
  · rintro ⟨⟨⟨⟨⟨hpathway, hname⟩, hhits⟩, hincident⟩, hversion⟩, hdisabled⟩
    exact ⟨hpathway, hname, hhits, hincident, hversion, hdisabled⟩
  · rintro ⟨hpathway, hname, hhits, hincident, hversion, hdisabled⟩
    exact ⟨⟨⟨⟨⟨hpathway, hname⟩, hhits⟩, hincident⟩, hversion⟩, hdisabled⟩

theorem org_of_forAccount {request : Request} {row : AdvisorInventoryHost}
    (h : row ∈ forAccount castTime tables.toTables request) : request.orgId ≠ "" := by
  intro horg
  rw [forAccount, if_pos horg] at h
  cases h

theorem not_hostAcked {row : AdvisorInventoryHost}
    (hrow : row ∈ forAccount castTime tables.toTables (filters.request orgId now)) (horg : orgId ≠ "")
    (hhidden : hasDisabledRecommendation tables (filters.request orgId now) row = false)
    (hhost : ∀ host, tables.hosts.get? row.inventoryId = some host → host.orgId = orgId) {report : CurrentReport}
    (hof : report.host = row.inventoryId) : hostAcked tables.toTables (filters.request orgId now) report = .no := by
  obtain ⟨-, -, -, -, hsome, hown⟩ := (mem_forAccount horg row).mp hrow
  obtain ⟨host, hfound⟩ := Option.isSome_iff_exists.mp hsome
  have hnone : ∀ ack ∈ tables.hostAcks.rows, ack.host ≠ row.inventoryId := by
    intro ack hack heq
    rw [hasDisabledRecommendation, Bool.or_eq_false_iff] at hhidden
    have hack' := List.any_eq_false.mp hhidden.1 ack hack
    apply hack'
    rw [heq, hfound, Option.any_some, hhost host hfound, hown]
    simp
  rw [hostAcked, Truth.any, List.any_eq_false.mpr]
  · rfl
  · intro ack hack hacks
    simp only [Truth.holds_and, Truth.eq_some, Truth.holds_ofBool, Bool.and_eq_true, decide_eq_true_eq] at hacks
    exact hnone ack hack (hacks.2.2.trans hof)

theorem mem_systemsList {params : ListParams} {system : SystemRow} :
    system ∈ systemsList castTime icontains tables (filters.request orgId now) params ↔
      ∃ row ∈ forAccount castTime tables.toTables (filters.request orgId now),
        annotateSystem castTime tables (filters.request orgId now) params
          { row, hits := (reportsOfHost castTime tables.toTables (filters.request orgId now) (fun _ => .yes)
            row.inventoryId).length } = system ∧
        Wanted icontains tables (filters.request orgId now) params system.row
          (reportsView castTime tables (filters.request orgId now) system.row.inventoryId) := by
  rw [systemsList, List.mem_filter, getSystemsQueryset, forAccountJoined_none, List.map_map, List.mem_map]
  constructor
  · rintro ⟨⟨row, hrow, rfl⟩, haccepted⟩
    have hshows := annotate_shows params hrow (org_of_forAccount hrow)
    exact ⟨row, hrow, rfl, (wanted_iff hshows).mp haccepted⟩
  · rintro ⟨row, hrow, rfl, hwanted⟩
    have hshows := annotate_shows params hrow (org_of_forAccount hrow)
    exact ⟨⟨row, hrow, rfl⟩, (wanted_iff hshows).mpr hwanted⟩

/-- A system without hidden recommendations shows every active report stored for it. -/
theorem reportsView_of_unhidden {row : AdvisorInventoryHost} {report : CurrentReport}
    (hrow : row ∈ forAccount castTime tables.toTables (filters.request orgId now))
    (hhidden : hasDisabledRecommendation tables (filters.request orgId now) row = false)
    (hhost : ∀ host, tables.hosts.get? row.inventoryId = some host → host.orgId = orgId)
    (hreport : report ∈ tables.reports) (hown : report.orgId = orgId) (hof : report.host = row.inventoryId)
    (hexists : ∃ rule, tables.rules.get? report.rule = some rule ∧ rule.active = true) :
    report ∈ reportsView castTime tables (filters.request orgId now) row.inventoryId := by
  obtain ⟨rule, hrule, hactive⟩ := hexists
  have horg : orgId ≠ "" := org_of_forAccount hrow
  have hid : rule.id = report.rule := Table.get?_key hrule
  have hunacked : acked tables.toTables orgId report.rule = false := by
    have hparts := hhidden
    rw [hasDisabledRecommendation, Bool.or_eq_false_iff] at hparts
    have hnot := List.any_eq_false.mp hparts.2 report (Table.mem_def.mp hreport)
    rw [hof] at hnot
    have hsame : acked tables.toTables (filters.request orgId now).orgId report.rule = false := by simpa using hnot
    exact hsame
  have hin : inAccount castTime tables.toTables (filters.request orgId now) report = true := by
    rw [inAccount, hof, List.contains_iff_mem]
    exact List.mem_map_of_mem hrow
  have hshown : ruleShown tables.toTables orgId report.rule = true := by
    rw [ruleShown, hrule, Option.any_some, isShown, hid, hactive, hunacked]
    rfl
  have hcounted : counted tables.toTables (filters.request orgId now) report = true := by
    rw [counted, not_hostAcked hrow horg hhidden hhost hof, Bool.and_eq_true]
    exact ⟨decide_eq_true hown, rfl⟩
  rw [reportsView_eq horg, List.mem_filter]
  refine ⟨Table.mem_def.mp hreport, ?_⟩
  rw [hcounted, hin, hshown, hof]
  simp

/-- The rows of the list are the systems of the account whose own view shows reports of the kinds asked for, and their
numbers count these. A system without a disabled recommendation shows every report it has of an active rule, if its
host is of the organisation. -/
theorem listed_iff_reports (castTime : CastTime) (icontains : Contains) (tables : SystemTables) (filters : HostFilters)
    (orgId : String) (now : Instant) (params : ListParams) :
    (∀ system, system ∈ systemsList castTime icontains tables (filters.request orgId now) params ↔
      system.row ∈ forAccount castTime tables.toTables (filters.request orgId now) ∧
        system.lastSeen = lastSeen tables system.row.inventoryId ∧
          Shows tables params system
            (reportsView castTime tables (filters.request orgId now) system.row.inventoryId) ∧
          Wanted icontains tables (filters.request orgId now) params system.row
            (reportsView castTime tables (filters.request orgId now) system.row.inventoryId)) ∧
    ∀ row ∈ forAccount castTime tables.toTables (filters.request orgId now),
      hasDisabledRecommendation tables (filters.request orgId now) row = false →
      (∀ host, tables.hosts.get? row.inventoryId = some host → host.orgId = orgId) →
      ∀ report ∈ tables.reports, report.orgId = orgId → report.host = row.inventoryId →
        (∃ rule, tables.rules.get? report.rule = some rule ∧ rule.active = true) →
        report ∈ reportsView castTime tables (filters.request orgId now) row.inventoryId := by
  constructor
  · intro system
    rw [mem_systemsList]
    constructor
    · rintro ⟨row, hrow, rfl, hwanted⟩
      exact ⟨hrow, rfl, annotate_shows params hrow (org_of_forAccount hrow), hwanted⟩
    · rintro ⟨hrow, hseen, hshows, hwanted⟩
      have hown := annotate_shows params hrow (org_of_forAccount hrow)
      refine ⟨system.row, hrow, ?_, hwanted⟩
      obtain ⟨⟨row, hits⟩, seen, critical, important, moderate, low, incident, allPathway, pathway⟩ := system
      simp only [annotateSystem, SystemRow.mk.injEq, System.mk.injEq, true_and]
      exact ⟨hown.hits.trans hshows.hits.symm, hseen.symm, hown.criticalHits.trans hshows.criticalHits.symm,
        hown.importantHits.trans hshows.importantHits.symm, hown.moderateHits.trans hshows.moderateHits.symm,
        hown.lowHits.trans hshows.lowHits.symm, hown.incidentHits.trans hshows.incidentHits.symm,
        hown.allPathwayHits.trans hshows.allPathwayHits.symm, hown.pathwayFilterHits.trans hshows.pathwayFilterHits.symm⟩
  · intro row hrow hhidden hhost report hreport hown hof hexists
    exact reportsView_of_unhidden hrow hhidden hhost hreport hown hof hexists

end Advisor.Reports
