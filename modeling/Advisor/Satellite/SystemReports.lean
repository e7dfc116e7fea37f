import Mathlib.Data.List.Sort
import Advisor.Python.Search
import Advisor.Reports.Systems
import Advisor.Satellite.Maintenance

/-! The view of a system with its reports, joined by hand with the rules, the risks of their resolutions and the
maintenance actions. The system is asked for by its Insights id. -/

namespace Advisor.Satellite

open Python Django Relational

/-- A resolution of a rule, with the value of its risk. -/
structure Resolution where
  rule : Nat
  systemType : Nat
  risk : Nat
  deriving DecidableEq

/-- The tables that the view reads; `firstSource` is the source of uploads with the id 1. -/
structure SystemTables where
  tables : Reports.Tables
  uploads : Table Upload.id
  resolutions : List Resolution
  actions : Table SatMaintenanceAction.id
  firstSource : String

/-- `SatReportRuleSerializer`, without the columns that are shown as they are. -/
structure ReportRule where
  ruleId : String
  errorKey : String
  plugin : String
  severity : String
  resolutionRisk : Nat
  deriving DecidableEq

structure SystemReport where
  report : CurrentReport
  insightsId : Option Uuid
  date : Option Instant
  rule : ReportRule
  maintenanceActions : List SatMaintenanceAction
  deriving DecidableEq

structure SystemReports where
  system : AdvisorInventoryHost
  reports : List SystemReport
  deriving DecidableEq

inductive ReportsFailure where
  | notFound
  | raised (e : Exception)
  deriving DecidableEq

def ruleIdParts (ruleId : String) : List String := (ruleId.toList.splitOn '|').map String.ofList

def nth (items : List String) (i : Nat) : Except Exception String :=
  match items[i]? with
  | some item => .ok item
  | none => .error .indexError

section View

variable (castTime : Reports.CastTime) (t : SystemTables) (request : Reports.Request)

def hostOfSystem (row : AdvisorInventoryHost) : Option Host :=
  (t.tables.hosts.get? row.inventoryId).filter fun host => host.orgId = row.orgId

/-- `SystemViewSet.get_queryset`, without its annotations. -/
def systemQueryset : List AdvisorInventoryHost :=
  (Reports.forAccount castTime t.tables request).filter fun row =>
    (hostOfSystem t row).any fun host =>
      t.uploads.rows.any fun upload => upload.host = host.inventoryId && upload.current && upload.source = t.firstSource

/-- `get_system_or_404`: the first of the systems with the Insights id. -/
def getSystem (uuid : Uuid) : Option AdvisorInventoryHost :=
  (systemQueryset castTime t request).find? fun row => insightsId row = some uuid && row.orgId = request.orgId

def hostReports (host : Host) : List CurrentReport :=
  (Reports.getReportsSubquery castTime t.tables request {}
    (.where fun report => Truth.eq (some report.host) (some host.inventoryId))).insertionSort fun a b => a.rule ≤ b.rule

/-- `risks[rule_id]`: the first risk of a resolution. -/
def resolutionRisk (rule : Rule) : Except Exception Nat :=
  match t.resolutions.find? (·.rule = rule.id) with
  | some resolution => .ok resolution.risk
  | none => .error (.keyError (toString rule.id))

def ruleOfReport (report : CurrentReport) : Except Exception Rule :=
  match t.tables.rules.get? report.rule with
  | some rule => .ok rule
  | none => .error (.keyError (toString report.rule))

/-- The turn of the loop: what is put into a report. -/
def annotateReport (report : CurrentReport) : Except Exception (CurrentReport × Rule × Nat) := do
  let rule ← ruleOfReport t report
  return (report, rule, ← resolutionRisk t rule)

def serializeReport (uuid : Uuid) (entry : CurrentReport × Rule × Nat) : Except Exception SystemReport := do
  let (report, rule, resolutionRisk) := entry
  let errorKey ← nth (ruleIdParts rule.ruleId) 1
  let plugin ← nth (ruleIdParts rule.ruleId) 0
  let severity ← nth severityNames rule.totalRisk
  return {
    report
    insightsId := (Reports.inventoryOf t.tables report).bind insightsId
    date := (t.uploads.get? report.upload).map (·.checkedOn)
    rule := { ruleId := rule.ruleId, errorKey, plugin, severity, resolutionRisk }
    maintenanceActions := t.actions.rows.filter fun action => action.host = uuid && action.rule = rule.id }

def systemReports (uuid : Uuid) : Except ReportsFailure SystemReports :=
  match getSystem castTime t request uuid with
  | none => .error .notFound
  | some system =>
    match hostOfSystem t system with
    | none => .error .notFound
    | some host =>
      (do
        let annotated ← (hostReports castTime t request host).mapM (annotateReport t)
        let reports ← annotated.mapM (serializeReport t uuid)
        return SystemReports.mk system reports).mapError .raised

end View

section Spec

variable (castTime : Reports.CastTime) (t : SystemTables) (request : Reports.Request)

def EligibleReport (system : AdvisorInventoryHost) (report : CurrentReport) : Prop :=
  report ∈ t.tables.reports ∧ Reports.eligible castTime t.tables request {} report = true ∧
    report.host = system.inventoryId

/-- Every eligible report of the system is there, once, with the actions on its rule and that system. -/
def ShowsActions (uuid : Uuid) (system : AdvisorInventoryHost) : Prop :=
  ∃ answer, systemReports castTime t request uuid = .ok answer ∧
    (answer.reports.map (·.report)).Nodup ∧
    (∀ report, report ∈ answer.reports.map (·.report) ↔ EligibleReport castTime t request system report) ∧
    ∀ item ∈ answer.reports, ∀ action, action ∈ item.maintenanceActions ↔
      action ∈ t.actions ∧ action.host = system.inventoryId ∧ action.rule = item.report.rule

/-- A rule that can be shown: it has a resolution, its id has an error key, and its risk has a name. -/
def Presentable (rule : Rule) : Prop :=
  (∃ resolution ∈ t.resolutions, resolution.rule = rule.id) ∧ '|' ∈ rule.ruleId.toList ∧
    rule.totalRisk < severityNames.length

end Spec

section Parts

variable {castTime : Reports.CastTime} {t : SystemTables} {request : Reports.Request} {uuid : Uuid}
  {system : AdvisorInventoryHost} {report : CurrentReport} {rule : Rule}

theorem nth_isOk {items : List String} {i : Nat} : (∃ item, nth items i = .ok item) ↔ i < items.length := by
  rw [nth]
  cases hitem : items[i]? with
  | none => simpa using hitem
  | some item =>
    obtain ⟨hlt, -⟩ := List.getElem?_eq_some_iff.mp hitem
    exact iff_of_true ⟨item, rfl⟩ hlt

theorem two_le_ruleIdParts (ruleId : String) : 1 < (ruleIdParts ruleId).length ↔ '|' ∈ ruleId.toList := by
  rw [ruleIdParts, List.length_map]
  constructor
  · intro h
    by_contra hnot
    have hsingle := @List.splitOn_intercalate _ [ruleId.toList] _ _ '|' (by simpa using hnot) (by simp)
    have hjoined : ['|'].intercalate [ruleId.toList] = ruleId.toList := by simp [List.intercalate]
    rw [hjoined] at hsingle
    rw [hsingle] at h
    exact absurd h (by simp)
  · intro h
    by_contra hnot
    obtain ⟨first, rest, hparts⟩ := List.exists_cons_of_ne_nil (List.splitOn_ne_nil '|' ruleId.toList)
    rw [hparts, List.length_cons] at hnot
    obtain rfl : rest = [] := List.length_eq_zero_iff.mp (by omega)
    have hout : '|' ∉ first := not_mem_of_mem_splitOn (hparts ▸ List.mem_singleton_self first)
    have hjoined := @List.intercalate_splitOn _ ruleId.toList _ _ '|'
    rw [hparts] at hjoined
    rw [← hjoined] at h
    exact hout (by simpa [List.intercalate] using h)

theorem resolutionRisk_isOk : (∃ risk, resolutionRisk t rule = .ok risk) ↔
    ∃ resolution ∈ t.resolutions, resolution.rule = rule.id := by
  rw [resolutionRisk]
  cases hfind : t.resolutions.find? (·.rule = rule.id) with
  | none => simpa using hfind
  | some resolution =>
    have hmem := List.mem_of_find?_eq_some hfind
    have hrule := List.find?_some hfind
    exact iff_of_true ⟨_, rfl⟩ ⟨resolution, hmem, by simpa using hrule⟩

theorem annotateReport_eq_ok {entry : CurrentReport × Rule × Nat} : annotateReport t report = .ok entry ↔
    ∃ rule risk, t.tables.rules.get? report.rule = some rule ∧ resolutionRisk t rule = .ok risk ∧
      entry = (report, rule, risk) := by
  rw [annotateReport, bind_eq_ok]
  constructor
  · rintro ⟨rule, hrule, hentry⟩
    obtain ⟨risk, hrisk, hentry⟩ := bind_eq_ok.mp hentry
    rw [ruleOfReport] at hrule
    cases hget : t.tables.rules.get? report.rule with
    | none => simp [hget] at hrule
    | some found =>
      rw [hget] at hrule
      obtain rfl := Except.ok.inj hrule
      exact ⟨found, risk, rfl, hrisk, (Except.ok.inj hentry).symm⟩
  · rintro ⟨rule, risk, hrule, hrisk, rfl⟩
    exact ⟨rule, by rw [ruleOfReport, hrule], bind_eq_ok.mpr ⟨risk, hrisk, rfl⟩⟩

theorem serializeReport_eq_ok {risk : Nat} {item : SystemReport} :
    serializeReport t uuid (report, rule, risk) = .ok item ↔
      ∃ errorKey plugin severity, nth (ruleIdParts rule.ruleId) 1 = .ok errorKey ∧
        nth (ruleIdParts rule.ruleId) 0 = .ok plugin ∧ nth severityNames rule.totalRisk = .ok severity ∧
          item = ⟨report, (Reports.inventoryOf t.tables report).bind insightsId,
            (t.uploads.get? report.upload).map (·.checkedOn), ⟨rule.ruleId, errorKey, plugin, severity, risk⟩,
            t.actions.rows.filter fun action => action.host = uuid && action.rule = rule.id⟩ := by
  rw [serializeReport]
  simp only [bind_eq_ok]
  constructor
  · rintro ⟨errorKey, herror, plugin, hplugin, severity, hseverity, hitem⟩
    exact ⟨errorKey, plugin, severity, herror, hplugin, hseverity, (Except.ok.inj hitem).symm⟩
  · rintro ⟨errorKey, plugin, severity, herror, hplugin, hseverity, rfl⟩
    exact ⟨errorKey, herror, plugin, hplugin, severity, hseverity, rfl⟩

/-- The rule of a report can be presented exactly when the report gets through the loop and the serializer. -/
theorem presentable_iff (hrule : t.tables.rules.get? report.rule = some rule) : Presentable t rule ↔
    ∃ entry, annotateReport t report = .ok entry ∧ ∃ item, serializeReport t uuid entry = .ok item := by
  rw [Presentable, ← resolutionRisk_isOk, ← two_le_ruleIdParts, ← nth_isOk, ← nth_isOk]
  constructor
  · rintro ⟨⟨risk, hrisk⟩, ⟨errorKey, herror⟩, severity, hseverity⟩
    have hlength := nth_isOk.mp ⟨errorKey, herror⟩
    obtain ⟨plugin, hplugin⟩ := nth_isOk.mpr (Nat.lt_of_succ_lt hlength)
    exact ⟨_, annotateReport_eq_ok.mpr ⟨rule, risk, hrule, hrisk, rfl⟩, _,
      serializeReport_eq_ok.mpr ⟨errorKey, plugin, severity, herror, hplugin, hseverity, rfl⟩⟩
  · rintro ⟨entry, hentry, item, hitem⟩
    obtain ⟨found, risk, hfound, hrisk, rfl⟩ := annotateReport_eq_ok.mp hentry
    obtain rfl := Option.some.inj (hrule.symm.trans hfound)
    obtain ⟨errorKey, plugin, severity, herror, hplugin, hseverity, -⟩ := serializeReport_eq_ok.mp hitem
    exact ⟨⟨risk, hrisk⟩, ⟨errorKey, herror⟩, severity, hseverity⟩

end Parts

section Whole

variable {castTime : Reports.CastTime} {t : SystemTables} {request : Reports.Request} {uuid : Uuid}
  {system : AdvisorInventoryHost} {report : CurrentReport}

theorem hostOfSystem_of_getSystem (h : getSystem castTime t request uuid = some system) :
    request.orgId ≠ "" ∧ ∃ host, hostOfSystem t system = some host ∧ host.inventoryId = system.inventoryId := by
  have hin : system ∈ systemQueryset castTime t request := List.mem_of_find?_eq_some h
  obtain ⟨haccount, hany⟩ := List.mem_filter.mp hin
  constructor
  · intro hnone
    rw [Reports.forAccount, if_pos hnone] at haccount
    cases haccount
  · obtain ⟨host, hhost, -⟩ := (Option.any_eq_true _ _).mp hany
    refine ⟨host, hhost, ?_⟩
    exact Table.get?_key (Option.filter_eq_some_iff.mp hhost).1

theorem mem_hostReports (horg : request.orgId ≠ "") {host : Host} (hhost : host.inventoryId = system.inventoryId) :
    report ∈ hostReports castTime t request host ↔ EligibleReport castTime t request system report := by
  rw [hostReports, List.mem_insertionSort, Reports.getReportsSubquery_where _ horg, List.mem_filter, EligibleReport,
    Table.mem_def]
  simp [hhost]

theorem nodup_hostReports (horg : request.orgId ≠ "") {host : Host} :
    (hostReports castTime t request host).Nodup := by
  rw [hostReports, (List.perm_insertionSort _ _).nodup_iff, Reports.getReportsSubquery_where _ horg]
  exact (List.Nodup.of_map _ t.tables.reports.unique).filter _

theorem systemReports_eq_ok {host : Host} {answer : SystemReports}
    (hsystem : getSystem castTime t request uuid = some system) (hhost : hostOfSystem t system = some host) :
    systemReports castTime t request uuid = .ok answer ↔ answer.system = system ∧
      (hostReports castTime t request host).mapM (fun report => annotateReport t report >>= serializeReport t uuid) =
        .ok answer.reports := by
  rw [systemReports, hsystem]
  simp only [hhost]
  rw [mapError_eq_ok, ← mapM_mapM_eq_ok, bind_eq_ok]
  constructor
  · rintro ⟨annotated, hannotated, hok⟩
    obtain ⟨reports, hreports, hok⟩ := bind_eq_ok.mp hok
    obtain rfl := Except.ok.inj hok
    exact ⟨rfl, annotated, hannotated, hreports⟩
  · rintro ⟨rfl, annotated, hannotated, hreports⟩
    exact ⟨annotated, hannotated, bind_eq_ok.mpr ⟨answer.reports, hreports, rfl⟩⟩

theorem serialized_report {item : SystemReport} {entry : CurrentReport × Rule × Nat}
    (hentry : annotateReport t report = .ok entry) (hitem : serializeReport t uuid entry = .ok item) :
    item.report = report := by
  obtain ⟨rule, risk, -, -, rfl⟩ := annotateReport_eq_ok.mp hentry
  obtain ⟨errorKey, plugin, severity, -, -, -, rfl⟩ := serializeReport_eq_ok.mp hitem
  rfl

/-- The actions of a report are those on a host whose own id is the Insights id. -/
theorem mem_maintenanceActions {item : SystemReport} {entry : CurrentReport × Rule × Nat}
    (hentry : annotateReport t report = .ok entry) (hitem : serializeReport t uuid entry = .ok item)
    (action : SatMaintenanceAction) : action ∈ item.maintenanceActions ↔
      action ∈ t.actions ∧ action.host = uuid ∧ action.rule = report.rule := by
  obtain ⟨rule, risk, hrule, -, rfl⟩ := annotateReport_eq_ok.mp hentry
  obtain ⟨errorKey, plugin, severity, -, -, -, rfl⟩ := serializeReport_eq_ok.mp hitem
  rw [← Table.get?_key hrule]
  simp [Table.mem_def]

theorem map_report {rows : List CurrentReport} {items : List SystemReport}
    (h : rows.mapM (fun report => annotateReport t report >>= serializeReport t uuid) = .ok items) :
    items.map (·.report) = rows := by
  have hall := mapM_forall₂ h
  clear h
  induction hall with
  | nil => rfl
  | cons hitem _ ih =>
    obtain ⟨entry, hentry, hserialized⟩ := bind_eq_ok.mp hitem
    rw [List.map_cons, ih, serialized_report hentry hserialized]

end Whole

/-- The view of a system shows its reports with their actions exactly where the rule of each can be presented, and the
actions on it that the Insights id finds among the hosts are those of the system. -/
theorem showsActions_iff (castTime : Reports.CastTime) (t : SystemTables) (request : Reports.Request) (uuid : Uuid)
    (system : AdvisorInventoryHost) (hsystem : getSystem castTime t request uuid = some system) :
    ShowsActions castTime t request uuid system ↔
      ∀ report, EligibleReport castTime t request system report → ∀ rule ∈ t.tables.rules, rule.id = report.rule →
        Presentable t rule ∧ ∀ action ∈ t.actions, action.rule = report.rule →
          (action.host = uuid ↔ action.host = system.inventoryId) := by
  obtain ⟨horg, host, hhost, hid⟩ := hostOfSystem_of_getSystem hsystem
  have hmem : ∀ report, report ∈ hostReports castTime t request host ↔ EligibleReport castTime t request system report :=
    fun report => mem_hostReports horg hid
  constructor
  · rintro ⟨answer, hok, -, -, hactions⟩ report hreport rule hrule hon
    obtain ⟨-, hitems⟩ := (systemReports_eq_ok hsystem hhost).mp hok
    obtain ⟨item, hitem⟩ := mapM_isOk ⟨_, hitems⟩ report ((hmem report).mpr hreport)
    obtain ⟨entry, hentry, hserialized⟩ := bind_eq_ok.mp hitem
    have hget : t.tables.rules.get? report.rule = some rule := Table.get?_eq_some.mpr ⟨hrule, hon⟩
    refine ⟨(presentable_iff hget).mpr ⟨entry, hentry, item, hserialized⟩, fun action haction hsame => ?_⟩
    have hin : item ∈ answer.reports := (mapM_mem hitems).mpr ⟨report, (hmem report).mpr hreport, hitem⟩
    have hshown := (mem_maintenanceActions hentry hserialized action).symm.trans (hactions item hin action)
    rw [serialized_report hentry hserialized] at hshown
    simpa [haction, hsame] using hshown
  · intro h
    have hrule : ∀ report ∈ hostReports castTime t request host, ∃ rule,
        t.tables.rules.get? report.rule = some rule := fun report hreport =>
      Option.isSome_iff_exists.mp (t.tables.reportRules report ((hmem report).mp hreport).1)
    obtain ⟨items, hitems⟩ := mapM_of_isOk fun report hreport => by
      obtain ⟨rule, hget⟩ := hrule report hreport
      obtain ⟨hin, hon⟩ := Table.get?_eq_some.mp hget
      obtain ⟨hpresentable, -⟩ := h report ((hmem report).mp hreport) rule hin hon
      obtain ⟨entry, hentry, item, hitem⟩ := (@presentable_iff _ uuid _ _ hget).mp hpresentable
      exact ⟨item, bind_eq_ok.mpr ⟨entry, hentry, hitem⟩⟩
    refine ⟨⟨system, items⟩, (systemReports_eq_ok hsystem hhost).mpr ⟨rfl, hitems⟩, ?_, fun report => ?_, ?_⟩
    · rw [map_report hitems]
      exact nodup_hostReports horg
    · rw [map_report hitems]
      exact hmem report
    · intro item hitem action
      obtain ⟨report, hreport, hmade⟩ := (mapM_mem hitems).mp hitem
      obtain ⟨entry, hentry, hserialized⟩ := bind_eq_ok.mp hmade
      obtain ⟨rule, hget⟩ := hrule report hreport
      obtain ⟨hin, hon⟩ := Table.get?_eq_some.mp hget
      obtain ⟨-, hsame⟩ := h report ((hmem report).mp hreport) rule hin hon
      rw [mem_maintenanceActions hentry hserialized action, serialized_report hentry hserialized]
      refine and_congr_right fun haction => ?_
      exact ⟨fun ⟨hhost, hrule⟩ => ⟨(hsame action haction hrule).mp hhost, hrule⟩,
        fun ⟨hhost, hrule⟩ => ⟨(hsame action haction hrule).mpr hhost, hrule⟩⟩

def reportedSystem (insights : Uuid) : AdvisorInventoryHost where
  orgId := "1000001"
  inventoryId := 1
  updated := 0
  columns := [("insights_id", some (.uuid insights)), ("display_name", some (.text "web")),
    ("tags", some (.json (.list []))), ("created", some (.instant 0)), ("last_check_in", some (.instant 0)),
    ("stale_timestamp", some (.instant 0)), ("reporter", some (.text "puptoo")), ("workloads", some (.json (.dict []))),
    ("per_reporter_staleness", some (.json (.dict [("puptoo", .dict [("stale_warning_timestamp", .int 1)])])))]

theorem complete_reportedSystem (insights : Uuid) : Reports.Complete (reportedSystem insights) := by
  rw [Reports.complete_iff]
  have hcells : ∀ name ∈ Reports.requiredColumns, ((reportedSystem 0).cell name).isSome = true := by decide +kernel
  intro name hname
  rw [← hcells name hname]
  unfold AdvisorInventoryHost.cell reportedSystem
  cases hinsights : name == "insights_id" with
  | false => simp [List.lookup_cons, hinsights]
  | true =>
    obtain rfl := eq_of_beq hinsights
    rfl

def systemReport : CurrentReport where
  account := none
  orgId := "1000001"
  rule := 1
  host := 1
  upload := 1
  details := .null
  impactedDate := none

def oneSystem (insights : Uuid) (resolutions : List Resolution) (actions : Table SatMaintenanceAction.id) : SystemTables where
  tables :=
    { rules := .single { id := 1, ruleId := "rule|ERROR", active := true }
      categoryOf _ := 1
      reports := .single systemReport
      acks := .empty
      hostAcks := .empty
      hosts := .single { inventoryId := 1, account := none, orgId := "1000001" }
      inventory := .single (reportedSystem insights)
      reportRules := fun report h => by rw [Table.mem_single.mp h]; rfl
      reportHosts := fun report h => by rw [Table.mem_single.mp h]; rfl
      complete := fun row h => by rw [Table.mem_single.mp h]; exact complete_reportedSystem insights }
  uploads := .single
    { id := 1, host := 1, account := none, orgId := "1000001", systemType := 105, source := "insights-client", checkedOn := 0 }
  resolutions
  actions
  firstSource := "insights-client"

def castOne : Reports.CastTime
  | .int n => some n
  | _ => none

def systemRequest : Reports.Request := { orgId := "1000001", now := 0 }

def systemAction : SatMaintenanceAction := ⟨1, 1, 1, 1, none, false⟩

theorem showsActions_sameIds :
    ShowsActions castOne (oneSystem 1 [⟨1, 105, 1⟩] (.single systemAction)) systemRequest 1 (reportedSystem 1) := by
  refine (showsActions_iff castOne (oneSystem 1 [⟨1, 105, 1⟩] (.single systemAction)) systemRequest 1 (reportedSystem 1)
    (by decide +kernel)).mpr fun report _ rule hrule _ => ⟨?_, fun _ _ _ => Iff.rfl⟩
  rw [Table.mem_single.mp hrule]
  exact ⟨⟨_, List.mem_singleton_self _, rfl⟩, by decide, by decide⟩

/-- Of one with the Insights id 5 it is not, and for a rule without a resolution nothing is. -/
theorem actionOfSystem_missing :
    ¬ ShowsActions castOne (oneSystem 5 [⟨1, 105, 1⟩] (.single systemAction)) systemRequest 5 (reportedSystem 5) ∧
      systemReports castOne (oneSystem 5 [] .empty) systemRequest 5 = .error (.raised (.keyError "1")) := by
  refine ⟨?_, by decide +kernel⟩
  rintro ⟨answer, hok, -, -, hactions⟩
  have hanswer : systemReports castOne (oneSystem 5 [⟨1, 105, 1⟩] (.single systemAction)) systemRequest 5 =
      .ok ⟨reportedSystem 5, [⟨systemReport, some 5, some 0, ⟨"rule|ERROR", "ERROR", "rule", "INFO", 1⟩, []⟩]⟩ := by
    decide +kernel
  obtain rfl := Except.ok.inj (hanswer.symm.trans hok)
  have hlisted := (hactions _ (List.mem_singleton_self _) systemAction).mpr ⟨Table.mem_single.mpr rfl, rfl, rfl⟩
  cases hlisted

end Advisor.Satellite
