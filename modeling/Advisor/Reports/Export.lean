import Mathlib.Data.List.Sort
import Advisor.Python.Raise
import Advisor.Reports.Subquery
import Advisor.Service.Model

/-! The exports of hits and of reports. What is selected is read row by row after the response has begun, and columns
that may be NULL are formatted there. -/

namespace Advisor.Reports

open Python Django Relational

/-- The tables the exports read. A host has one current upload of a source. -/
structure ExportTables extends Tables where
  uploads : Table Upload.id
  nodeIdOf : Nat → String
  likelihoodOf : Nat → Nat
  reportUploads : ∀ report ∈ reports, (uploads.get? report.upload).isSome
  currentUploads : ((uploads.rows.filter (·.current)).map fun upload => (upload.host, upload.source)).Nodup

structure HitRecord where
  hostname : Option String
  rhelVersion : String
  uuid : String
  lastSeen : String
  title : String
  solutionUrl : String
  totalRisk : Nat
  likelihood : Nat
  publishDate : String
  staleAt : Option Json
  resultsUrl : String
  deriving DecidableEq

structure ReportRecord where
  hostId : String
  ruleId : String
  reportsUrl : String
  reportTime : String
  details : Json
  impactedDate : String

structure HitValues where
  report : CurrentReport
  rule : Rule
  inventory : Option AdvisorInventoryHost
  lastUpload : Option Instant

structure ReportValues where
  report : CurrentReport
  rule : Rule
  upload : Upload

def recommendationsUrl : String := "https://console.redhat.com/insights/advisor/recommendations"

def escapeBar (ruleId : String) : String :=
  String.ofList (ruleId.toList.flatMap fun c => if c = '|' then "%7C".toList else [c])

def resultsUrl (ruleId : String) (host : Uuid) : String :=
  recommendationsUrl ++ "/" ++ escapeBar ruleId ++ "/" ++ host.toText ++ "/"

section Export

variable (castTime : CastTime) (casts : AdvisorInventoryHost → Bool) (isoformat : Instant → String) (client : String)
  (tables : ExportTables) (request : Request) (outer : OuterFilter)

/-- `get_reports_subquery(request, use_joins=True)` with the filters of the export. -/
def selected : List CurrentReport := getReportsSubquery castTime tables.toTables request { useJoins := true } outer

/-- The query is sent when the first record is asked for. On which rows it casts the time is up to the database. -/
def readSelected : Except Exception (List CurrentReport) :=
  if request.orgId ≠ "" && tables.inventory.rows.any fun row =>
      casts row && !castable castTime (row.cell "per_reporter_staleness") then .error .dataError
  else .ok (selected castTime tables request outer)

/-- The subquery for the current upload from the first of the sources. -/
def lastUpload (host : Uuid) : Except Exception (Option Instant) :=
  match tables.uploads.rows.filter fun upload => upload.host = host && upload.source = client && upload.current with
  | [] => .ok none
  | [upload] => .ok (some upload.checkedOn)
  | _ => .error .cardinalityViolation

def hitValues (report : CurrentReport) : Except Exception HitValues := do
  match tables.rules.get? report.rule with
  | none => throw .doesNotExist
  | some rule => return ⟨report, rule, inventoryOf tables.toTables report, ← lastUpload client tables report.host⟩

def reportValues (report : CurrentReport) : Except Exception ReportValues :=
  match tables.rules.get? report.rule, tables.uploads.get? report.upload with
  | some rule, some upload => .ok ⟨report, rule, upload⟩
  | _, _ => .error .doesNotExist

def isoformatOf (value : Option Instant) : Except Exception String :=
  match value with
  | some t => .ok (isoformat t)
  | none => .error .attributeError

def transformHits (values : HitValues) : Except Exception HitRecord := do
  let lastSeen ← isoformatOf isoformat values.lastUpload
  let publishDate ← isoformatOf isoformat values.rule.publishDate
  let nodeId := tables.nodeIdOf values.rule.id
  return {
    hostname := values.inventory.bind (·.text? "display_name")
    rhelVersion := (values.inventory.map (·.rhelVersion)).getD "Unknown system version"
    uuid := values.report.host.toText
    lastSeen
    title := values.rule.description
    solutionUrl := if nodeId = "" then "" else "https://access.redhat.com/node/" ++ nodeId
    totalRisk := values.rule.totalRisk
    likelihood := tables.likelihoodOf values.rule.id
    publishDate
    staleAt := jsonAt ["puptoo", "stale_timestamp"] (values.inventory.bind (·.cell "per_reporter_staleness"))
    resultsUrl := resultsUrl values.rule.ruleId values.report.host }

def transformReports (values : ReportValues) : Except Exception ReportRecord := do
  let impactedDate ← isoformatOf isoformat values.report.impactedDate
  return {
    hostId := values.report.host.toText
    ruleId := values.rule.ruleId
    reportsUrl := resultsUrl values.rule.ruleId values.report.host
    reportTime := isoformat values.upload.checkedOn
    details := values.report.details
    impactedDate }

def before (a b : Uuid × String) : Bool := decide (a.1 < b.1) || a.1 = b.1 && decide (a.2 ≤ b.2)

def exportHits : Except Exception (List HitRecord) := do
  let rows ← (← readSelected castTime casts tables request outer).mapM (hitValues client tables)
  (rows.insertionSort fun a b => before (a.report.host, a.rule.ruleId) (b.report.host, b.rule.ruleId)).mapM
    (transformHits isoformat tables)

def exportReports : Except Exception (List ReportRecord) := do
  let rows ← (← readSelected castTime casts tables request outer).mapM (reportValues tables)
  (rows.insertionSort fun a b => before (a.report.host, a.rule.ruleId) (b.report.host, b.rule.ruleId)).mapM
    (transformReports isoformat)

def Describes (report : CurrentReport) (host url : String) : Prop :=
  host = report.host.toText ∧ ∃ rule, tables.rules.get? report.rule = some rule ∧ url = resultsUrl rule.ruleId report.host

def HitsWhole : Prop :=
  ∃ (reports : List CurrentReport) (records : List HitRecord),
    exportHits castTime casts isoformat client tables request outer = .ok records ∧ reports.Perm (selected castTime tables request outer) ∧
      reports.Forall₂ (fun report record => Describes tables report record.uuid record.resultsUrl) records

def ReportsWhole : Prop :=
  ∃ (reports : List CurrentReport) (records : List ReportRecord),
    exportReports castTime casts isoformat tables request outer = .ok records ∧ reports.Perm (selected castTime tables request outer) ∧
      reports.Forall₂ (fun report record => Describes tables report record.hostId record.reportsUrl) records

/-- The cast raises on none of the rows. -/
def TimesRead : Prop :=
  request.orgId ≠ "" → ∀ row ∈ tables.inventory, casts row = true →
    castable castTime (row.cell "per_reporter_staleness") = true

def Seen (host : Uuid) : Prop :=
  ∃ upload ∈ tables.uploads, upload.host = host ∧ upload.source = client ∧ upload.current = true

def Published (report : CurrentReport) : Prop :=
  ∃ rule, tables.rules.get? report.rule = some rule ∧ rule.publishDate.isSome = true

end Export

section Whole

variable {castTime : CastTime} {casts : AdvisorInventoryHost → Bool} {isoformat : Instant → String} {client : String}
  {tables : ExportTables} {request : Request} {outer : OuterFilter} {report : CurrentReport}

theorem readSelected_ok (h : TimesRead castTime casts tables request) :
    readSelected castTime casts tables request outer = .ok (selected castTime tables request outer) := by
  rw [readSelected, if_neg]
  intro hraises
  simp only [Bool.and_eq_true, decide_eq_true_eq, List.any_eq_true, Bool.not_eq_true'] at hraises
  obtain ⟨horg, row, hrow, hcast, hunread⟩ := hraises
  rw [h horg row (Table.mem_def.mpr hrow) hcast] at hunread
  cases hunread

theorem timesRead_of_ok {reports : List CurrentReport} (h : readSelected castTime casts tables request outer = .ok reports) :
    TimesRead castTime casts tables request := by
  intro horg row hrow hcast
  by_contra hunread
  rw [readSelected, if_pos] at h
  · cases h
  · simp only [Bool.and_eq_true, decide_eq_true_eq, List.any_eq_true, Bool.not_eq_true']
    exact ⟨horg, row, Table.mem_def.mp hrow, hcast, by simpa using hunread⟩

theorem selected_stored (h : report ∈ selected castTime tables request outer) : report ∈ tables.reports :=
  getReportsSubquery_stored h

theorem selected_active (h : report ∈ selected castTime tables request outer) :
    ∃ rule, tables.rules.get? report.rule = some rule ∧ rule.active = true := by
  have horg : request.orgId ≠ "" := by
    intro hempty
    rw [selected, getReportsSubquery, if_pos hempty] at h
    cases h
  obtain ⟨rule, hrule⟩ := Option.isSome_iff_exists.mp (tables.reportRules report (selected_stored h))
  refine ⟨rule, hrule, ?_⟩
  rw [selected, getReportsSubquery_eq _ horg] at h
  obtain ⟨other, -, hm⟩ := List.mem_flatMap.mp h
  split at hm
  · rename_i heligible
    obtain ⟨-, -, rfl⟩ := List.mem_map.mp hm
    simp only [eligible, Bool.and_eq_true] at heligible
    have hactive := heligible.1.1.2
    rw [activeFilter, hrule] at hactive
    simpa using hactive
  · cases hm

theorem isoformatOf_isSome {value : Option Instant} :
    (∃ text, isoformatOf isoformat value = .ok text) ↔ value.isSome = true := by
  cases value with
  | none => exact iff_of_false (by rintro ⟨text, h⟩; cases h) Bool.false_ne_true
  | some t => exact iff_of_true ⟨_, rfl⟩ rfl

theorem lastUpload_ok (host : Uuid) :
    ∃ found, lastUpload client tables host = .ok found ∧ (found.isSome = true ↔ Seen client tables host) := by
  have hmem : ∀ upload, upload ∈ tables.uploads.rows.filter (fun upload =>
      upload.host = host && upload.source = client && upload.current) ↔
        upload ∈ tables.uploads ∧ upload.host = host ∧ upload.source = client ∧ upload.current = true := by
    intro upload
    simp [List.mem_filter, Table.mem_def, and_assoc]
  have hnodup : ((tables.uploads.rows.filter fun upload =>
      upload.host = host && upload.source = client && upload.current).map fun upload => (upload.host, upload.source)).Nodup := by
    refine tables.currentUploads.sublist (List.Sublist.map _ (List.monotone_filter_right _ ?_))
    intro upload hupload
    simp only [Bool.and_eq_true] at hupload
    exact hupload.2
  rw [lastUpload]
  rcases hrows : tables.uploads.rows.filter fun upload =>
      upload.host = host && upload.source = client && upload.current with _ | ⟨upload, _ | ⟨other, rest⟩⟩
  · refine ⟨none, by rw [hrows], iff_of_false Bool.false_ne_true ?_⟩
    rintro ⟨upload, hupload⟩
    rw [← hmem, hrows] at hupload
    cases hupload
  · exact ⟨some upload.checkedOn, by rw [hrows], iff_of_true rfl ⟨upload, (hmem upload).mp (by simp [hrows])⟩⟩
  · obtain ⟨-, hhost, hsource, -⟩ := (hmem upload).mp (by simp [hrows])
    obtain ⟨-, hhost', hsource', -⟩ := (hmem other).mp (by simp [hrows])
    rw [hrows] at hnodup
    exact absurd (by simp [hhost, hsource, hhost', hsource']) (List.nodup_cons.mp hnodup).1

theorem hitValues_ok (h : report ∈ tables.reports) : ∃ values, hitValues client tables report = .ok values ∧
    values.report = report ∧ tables.rules.get? report.rule = some values.rule ∧
      (values.lastUpload.isSome = true ↔ Seen client tables report.host) := by
  obtain ⟨rule, hrule⟩ := Option.isSome_iff_exists.mp (tables.reportRules report h)
  obtain ⟨found, hfound, hseen⟩ := @lastUpload_ok client tables report.host
  refine ⟨⟨report, rule, inventoryOf tables.toTables report, found⟩, ?_, rfl, hrule, hseen⟩
  simp only [hitValues, hrule, hfound, bind, Except.bind, pure, Except.pure]

theorem reportValues_ok (h : report ∈ tables.reports) : ∃ values, reportValues tables report = .ok values ∧
    values.report = report ∧ tables.rules.get? report.rule = some values.rule := by
  obtain ⟨rule, hrule⟩ := Option.isSome_iff_exists.mp (tables.reportRules report h)
  obtain ⟨upload, hupload⟩ := Option.isSome_iff_exists.mp (tables.reportUploads report h)
  exact ⟨⟨report, rule, upload⟩, by rw [reportValues, hrule, hupload], rfl, hrule⟩

theorem transformHits_iff {values : HitValues} : (∃ record, transformHits isoformat tables values = .ok record) ↔
    values.lastUpload.isSome = true ∧ values.rule.publishDate.isSome = true := by
  rw [← @isoformatOf_isSome isoformat, ← @isoformatOf_isSome isoformat]
  constructor
  · rintro ⟨record, h⟩
    obtain ⟨lastSeen, hlast, h⟩ := bind_eq_ok.mp h
    obtain ⟨publishDate, hpublish, -⟩ := bind_eq_ok.mp h
    exact ⟨⟨lastSeen, hlast⟩, publishDate, hpublish⟩
  · rintro ⟨⟨lastSeen, hlast⟩, publishDate, hpublish⟩
    exact ⟨_, by rw [transformHits, hlast]; simp only [bind, Except.bind, hpublish]; rfl⟩

theorem transformHits_describes {values : HitValues} {record : HitRecord}
    (h : transformHits isoformat tables values = .ok record) :
    record.uuid = values.report.host.toText ∧ record.resultsUrl = resultsUrl values.rule.ruleId values.report.host := by
  obtain ⟨lastSeen, -, h⟩ := bind_eq_ok.mp h
  obtain ⟨publishDate, -, h⟩ := bind_eq_ok.mp h
  obtain rfl := Except.ok.inj h
  exact ⟨rfl, rfl⟩

theorem transformReports_iff {values : ReportValues} :
    (∃ record, transformReports isoformat values = .ok record) ↔ values.report.impactedDate.isSome = true := by
  rw [← @isoformatOf_isSome isoformat]
  constructor
  · rintro ⟨record, h⟩
    obtain ⟨impactedDate, himpacted, -⟩ := bind_eq_ok.mp h
    exact ⟨impactedDate, himpacted⟩
  · rintro ⟨impactedDate, himpacted⟩
    exact ⟨_, by rw [transformReports, himpacted]; rfl⟩

theorem transformReports_describes {values : ReportValues} {record : ReportRecord}
    (h : transformReports isoformat values = .ok record) :
    record.hostId = values.report.host.toText ∧ record.reportsUrl = resultsUrl values.rule.ruleId values.report.host := by
  obtain ⟨impactedDate, -, h⟩ := bind_eq_ok.mp h
  obtain rfl := Except.ok.inj h
  exact ⟨rfl, rfl⟩

end Whole

/-- Rows that are read, put in order and transformed one by one: all of them come through if each can be transformed. -/
theorem streamed_iff {ε ι κ ρ : Type} {rows : List ι} {read : ι → Except ε κ} {back : κ → ι} (r : κ → κ → Prop)
    [DecidableRel r] (transform : κ → Except ε ρ) (D : ι → ρ → Prop) (hread : ∀ x ∈ rows, ∃ v, read x = .ok v ∧ back v = x)
    (hdescribes : ∀ x ∈ rows, ∀ v, read x = .ok v → ∀ record, transform v = .ok record → D x record) :
    (∃ (xs : List ι) (records : List ρ), (rows.mapM read >>= fun vs => (vs.insertionSort r).mapM transform) = .ok records ∧
        xs.Perm rows ∧ xs.Forall₂ D records) ↔
      ∀ x ∈ rows, ∀ v, read x = .ok v → ∃ record, transform v = .ok record := by
  constructor
  · rintro ⟨xs, records, h, -, -⟩ x hx v hv
    obtain ⟨vs, hvs, hrecords⟩ := bind_eq_ok.mp h
    exact mapM_isOk ⟨records, hrecords⟩ v ((List.mem_insertionSort r).mpr ((mapM_mem hvs).mpr ⟨x, hx, hv⟩))
  · intro h
    obtain ⟨vs, hvs⟩ := mapM_of_isOk fun x hx => (hread x hx).imp fun v hv => hv.1
    have hsource : ∀ v ∈ vs.insertionSort r, ∃ x ∈ rows, read x = .ok v ∧ back v = x := by
      intro v hv
      obtain ⟨x, hx, hxv⟩ := (mapM_mem hvs).mp ((List.mem_insertionSort r).mp hv)
      obtain ⟨w, hw, hback⟩ := hread x hx
      obtain rfl := Except.ok.inj (hxv.symm.trans hw)
      exact ⟨x, hx, hxv, hback⟩
    obtain ⟨records, hrecords⟩ := mapM_of_isOk (f := transform) (l := vs.insertionSort r) fun v hv => by
      obtain ⟨x, hx, hxv, -⟩ := hsource v hv
      exact h x hx v hxv
    refine ⟨(vs.insertionSort r).map back, records, ?_, ?_, ?_⟩
    · rw [hvs]
      exact hrecords
    · have hback : List.Forall₂ (· = ·) (vs.map back) rows := by
        rw [List.forall₂_map_left_iff]
        refine ((List.forall₂_and_left _ _).mpr ⟨fun x hx => hx, mapM_forall₂ hvs⟩).flip.imp ?_
        rintro v x ⟨hx, hxv⟩
        obtain ⟨w, hw, hback⟩ := hread x hx
        obtain rfl := Except.ok.inj (hxv.symm.trans hw)
        exact hback
      rw [List.forall₂_eq_eq_eq] at hback
      rw [← hback]
      exact (List.perm_insertionSort r vs).map back
    · rw [List.forall₂_map_left_iff]
      refine ((List.forall₂_and_left _ _).mpr ⟨fun v hv => hv, mapM_forall₂ hrecords⟩).imp ?_
      rintro v record ⟨hv, hrecord⟩
      obtain ⟨x, hx, hxv, rfl⟩ := hsource v hv
      exact hdescribes _ hx v hxv record hrecord

section Exports

variable (castTime : CastTime) (casts : AdvisorInventoryHost → Bool) (isoformat : Instant → String) (client : String)
  (tables : ExportTables) (request : Request) (outer : OuterFilter)

/-- The export of hits comes through for hosts that the first source has seen, with rules that have been published. -/
theorem hitsWhole_iff : HitsWhole castTime casts isoformat client tables request outer ↔
    TimesRead castTime casts tables request ∧
      ∀ report ∈ selected castTime tables request outer, Seen client tables report.host ∧ Published tables report := by
  by_cases htimes : TimesRead castTime casts tables request
  swap
  · refine iff_of_false ?_ fun h => htimes h.1
    rintro ⟨reports, records, h, -⟩
    obtain ⟨read, hread, -⟩ := bind_eq_ok.mp h
    exact htimes (timesRead_of_ok hread)
  rw [and_iff_right htimes, HitsWhole, exportHits, readSelected_ok htimes]
  have hread : ∀ report ∈ selected castTime tables request outer, ∃ values,
      hitValues client tables report = .ok values ∧ values.report = report := by
    intro report hreport
    obtain ⟨values, hvalues, hback, -⟩ := @hitValues_ok client tables report (selected_stored hreport)
    exact ⟨values, hvalues, hback⟩
  refine (streamed_iff (fun a b => before (a.report.host, a.rule.ruleId) (b.report.host, b.rule.ruleId))
    (transformHits isoformat tables) (fun report record => Describes tables report record.uuid record.resultsUrl)
    hread ?_).trans (forall₂_congr fun report hreport => ?_)
  · intro report hreport values hvalues record hrecord
    obtain ⟨found, hfound, hback, hrule, -⟩ := @hitValues_ok client tables report (selected_stored hreport)
    obtain rfl := Except.ok.inj (hvalues.symm.trans hfound)
    obtain ⟨huuid, hurl⟩ := transformHits_describes hrecord
    rw [hback] at huuid hurl
    exact ⟨huuid, values.rule, hrule, hurl⟩
  · obtain ⟨values, hvalues, -, hrule, hseen⟩ := @hitValues_ok client tables report (selected_stored hreport)
    have hpublished : Published tables report ↔ values.rule.publishDate.isSome = true := by
      constructor
      · rintro ⟨rule, hother, hdate⟩
        obtain rfl := Option.some.inj (hrule.symm.trans hother)
        exact hdate
      · intro hdate
        exact ⟨values.rule, hrule, hdate⟩
    rw [← hseen, hpublished, ← transformHits_iff]
    constructor
    · intro h
      exact h values hvalues
    · rintro h other hother
      obtain rfl := Except.ok.inj (hvalues.symm.trans hother)
      exact h

/-- The export of reports comes through for reports with a date of impact. -/
theorem reportsWhole_iff : ReportsWhole castTime casts isoformat tables request outer ↔
    TimesRead castTime casts tables request ∧
      ∀ report ∈ selected castTime tables request outer, report.impactedDate.isSome = true := by
  by_cases htimes : TimesRead castTime casts tables request
  swap
  · refine iff_of_false ?_ fun h => htimes h.1
    rintro ⟨reports, records, h, -⟩
    obtain ⟨read, hread, -⟩ := bind_eq_ok.mp h
    exact htimes (timesRead_of_ok hread)
  rw [and_iff_right htimes, ReportsWhole, exportReports, readSelected_ok htimes]
  have hread : ∀ report ∈ selected castTime tables request outer, ∃ values,
      reportValues tables report = .ok values ∧ values.report = report := by
    intro report hreport
    obtain ⟨values, hvalues, hback, -⟩ := reportValues_ok (selected_stored hreport)
    exact ⟨values, hvalues, hback⟩
  refine (streamed_iff (fun a b => before (a.report.host, a.rule.ruleId) (b.report.host, b.rule.ruleId))
    (transformReports isoformat) (fun report record => Describes tables report record.hostId record.reportsUrl)
    hread ?_).trans (forall₂_congr fun report hreport => ?_)
  · intro report hreport values hvalues record hrecord
    obtain ⟨found, hfound, hback, hrule⟩ := reportValues_ok (selected_stored hreport)
    obtain rfl := Except.ok.inj (hvalues.symm.trans hfound)
    obtain ⟨hhost, hurl⟩ := transformReports_describes hrecord
    rw [hback] at hhost hurl
    exact ⟨hhost, values.rule, hrule, hurl⟩
  · obtain ⟨values, hvalues, hback, -⟩ := reportValues_ok (selected_stored hreport)
    constructor
    · intro h
      rw [← hback]
      exact transformReports_iff.mp (h values hvalues)
    · intro h other hother
      obtain rfl := Except.ok.inj (hvalues.symm.trans hother)
      exact transformReports_iff.mpr (hback ▸ h)

end Exports

end Advisor.Reports
