import Advisor.Reports.ExportRuns
import Advisor.Reports.SystemList
import Advisor.Tasks.Execute

/-! The command that deletes the hosts the inventory has no row of and nobody has written to for some time, batch after
batch while the services go on, and what the views lose by it. -/

namespace Advisor.Reports

open Python Django Relational Service

def deleteHosts (db : Database) (batch : List Uuid) : Database :=
  { db.purge fun u => batch.contains u && (db.hosts.get? u).isSome with
    hosts := db.hosts.deleteWhere fun host => batch.contains host.inventoryId }

structure StaleHostOptions where
  days : Int := 14
  batch : Int := 1000

def dayLength : Int := 24 * 60 * 60 * 1000000

/-- The raw query. `updatedAt` is a column of the hosts that no other query reads. -/
def rawHosts (updatedAt : Uuid → Instant) (staleCullDate : Instant) (db : Database) : List Uuid :=
  (db.hosts.rows.filter fun host =>
    updatedAt host.inventoryId < staleCullDate && (db.inventory.get? (host.orgId, host.inventoryId)).isNone).map
      (·.inventoryId)

/-- A batch, and the state that its deletion begins with. -/
structure CullStep where
  before : State
  batch : List Uuid

def CullStep.after (step : CullStep) : State :=
  withHostTables step.before (deleteHosts (hostTables step.before) step.batch)

/-- The loop over the batches; `concurrent i` is committed before the batch `i`. -/
def cullBatches (lib : Library) (concurrent : Nat → List Change) : Nat → List (List Uuid) → State → List CullStep
  | _, [], _ => []
  | i, batch :: rest, s =>
    let step : CullStep := ⟨(concurrent i).foldl (Change.apply lib) s, batch⟩
    step :: cullBatches lib concurrent (i + 1) rest step.after

def deleteStaleApiHosts (lib : Library) (updatedAt : Uuid → Instant) (now : Instant) (options : StaleHostOptions)
    (concurrent : Nat → List Change) (s : State) : Except Exception (List CullStep) :=
  if options.batch < 1 then .error .valueError
  else .ok (cullBatches lib concurrent 0
    ((rawHosts updatedAt (now - options.days * dayLength) (hostTables s)).toChunks options.batch.toNat) s)

def goneIn (tables : Tables) (batch : List Uuid) (u : Uuid) : Bool := batch.contains u && (tables.hosts.get? u).isSome

def SystemTables.without (tables : SystemTables) (batch : List Uuid) : SystemTables :=
  { tables with
    hosts := tables.hosts.deleteWhere fun host => batch.contains host.inventoryId
    uploads := tables.uploads.deleteWhere fun upload => goneIn tables.toTables batch upload.host
    reports := tables.reports.deleteWhere fun report => goneIn tables.toTables batch report.host ||
      (tables.uploads.get? report.upload).any fun upload => goneIn tables.toTables batch upload.host
    hostAcks := tables.hostAcks.deleteWhere fun ack => goneIn tables.toTables batch ack.host
    reportRules := fun report hreport => tables.reportRules report (Table.mem_deleteWhere.mp hreport).1
    reportHosts := by
      intro report hreport
      obtain ⟨hstored, hstays⟩ := Table.mem_deleteWhere.mp hreport
      have hhost := tables.reportHosts report hstored
      have hout := (Bool.or_eq_false_iff.mp hstays).1
      rw [goneIn, hhost, Bool.and_true] at hout
      obtain ⟨host, hfound⟩ := Option.isSome_iff_exists.mp hhost
      have hid : host.inventoryId = report.host := Table.get?_key hfound
      rw [Table.get?_deleteWhere, hfound]
      simpa [hid] using hout }

structure Presents (tables : SystemTables) (s : State) : Prop where
  rules : tables.rules = s.rules
  reports : tables.reports = s.reports
  uploads : tables.uploads = s.uploads
  acks : tables.acks = s.acks
  hostAcks : tables.hostAcks = s.hostAcks
  hosts : tables.hosts = s.hosts
  inventory : tables.inventory = s.inventory

/-- The hosts of the account, the reports of them and the list of systems are the same, whatever is asked for. -/
structure SameShown (castTime : CastTime) (tables tables' : SystemTables) : Prop where
  accounts : ∀ request, forAccount castTime tables.toTables request = forAccount castTime tables'.toTables request
  reports : ∀ request flags outer, flags.excludeIneligibleHosts = true →
    getReportsSubquery castTime tables.toTables request flags outer =
      getReportsSubquery castTime tables'.toTables request flags outer
  systems : ∀ icontains request params,
    systemsList castTime icontains tables request params = systemsList castTime icontains tables' request params

/-- No organisation has had an upload of the hosts that go which could make them fresh. -/
def Unseen (castTime : CastTime) (tables : SystemTables) (batch : List Uuid) : Prop :=
  ∀ row ∈ tables.inventory, row.orgId ≠ "" → goneIn tables.toTables batch row.inventoryId = true →
    puptooStaleTimestamp castTime row = none

section Batch

variable {castTime : CastTime} {tables : SystemTables} {batch : List Uuid} {request : Request} {flags : Flags}

theorem get?_without {u : Uuid} (hkept : goneIn tables.toTables batch u = false) :
    (tables.without batch).hosts.get? u = tables.hosts.get? u := by
  show (tables.hosts.deleteWhere _).get? u = _
  rw [Table.get?_deleteWhere]
  cases hfound : tables.hosts.get? u with
  | none => rfl
  | some host =>
    have hid : host.inventoryId = u := Table.get?_key hfound
    rw [goneIn, hfound, Option.isSome_some, Bool.and_true] at hkept
    rw [Option.filter_some, if_pos]
    rw [hid, hkept]
    rfl

theorem any_filter_of_imp {α : Type*} {l : List α} {p q : α → Bool} (h : ∀ a ∈ l, q a = true → p a = true) :
    (l.filter p).any q = l.any q := by
  rw [Bool.eq_iff_iff]
  simp only [List.any_eq_true, List.mem_filter]
  constructor
  · rintro ⟨a, ⟨ha, -⟩, hq⟩
    exact ⟨a, ha, hq⟩
  · rintro ⟨a, ha, hq⟩
    exact ⟨a, ⟨ha, h a ha hq⟩, hq⟩

theorem hostAcked_without (request : Request) {report : CurrentReport}
    (hkept : goneIn tables.toTables batch report.host = false) :
    hostAcked (tables.without batch).toTables request report = hostAcked tables.toTables request report := by
  unfold hostAcked Truth.any
  congr 1
  apply any_filter_of_imp
  intro ack _ hacks
  simp only [Truth.holds_and, Truth.eq_some, Truth.holds_ofBool, Bool.and_eq_true, decide_eq_true_eq] at hacks
  show (!goneIn tables.toTables batch ack.host) = true
  rw [hacks.2.2, hkept]
  rfl

theorem whereClause_without {report : CurrentReport} (hkept : goneIn tables.toTables batch report.host = false)
    (outer : Truth) : whereClause castTime (tables.without batch).toTables request flags report outer =
      whereClause castTime tables.toTables request flags report outer := by
  have hhost := get?_without hkept
  have hacked := hostAcked_without request hkept
  have hhosts : hostsFilter castTime (tables.without batch).toTables request flags report =
      hostsFilter castTime tables.toTables request flags report := by
    unfold hostsFilter
    rw [hhost]
    rfl
  rw [whereClause, hhosts, hacked]
  rfl

def OwnUploads (tables : SystemTables) : Prop :=
  ∀ report ∈ tables.reports, ∀ upload, tables.uploads.get? report.upload = some upload → upload.host = report.host

theorem reports_without (hown : OwnUploads tables) : (tables.without batch).reports.rows =
    tables.reports.rows.filter fun report => !goneIn tables.toTables batch report.host := by
  show List.filter _ tables.reports.rows = _
  apply List.filter_congr
  intro report hreport
  show (!(goneIn tables.toTables batch report.host ||
    (tables.uploads.get? report.upload).any fun upload => goneIn tables.toTables batch upload.host)) = _
  cases hupload : tables.uploads.get? report.upload with
  | none => rw [Option.any_none, Bool.or_false]
  | some upload => rw [Option.any_some, hown report (Table.mem_def.mpr hreport) upload hupload, Bool.or_self]

theorem getReportsSubquery_without (hown : OwnUploads tables) {outer : OuterFilter} (horg : request.orgId ≠ "")
    (hlost : ∀ report ∈ tables.reports, goneIn tables.toTables batch report.host = true → ∀ joined ∈ outer report,
      (whereClause castTime tables.toTables request flags report joined).holds = false) :
    getReportsSubquery castTime (tables.without batch).toTables request flags outer =
      getReportsSubquery castTime tables.toTables request flags outer := by
  rw [getReportsSubquery, getReportsSubquery, if_neg horg, if_neg horg, reports_without hown]
  have hall : ∀ report ∈ tables.reports.rows, report ∈ tables.reports := fun report h => Table.mem_def.mpr h
  revert hall
  generalize tables.reports.rows = rows
  intro hall
  induction rows with
  | nil => rfl
  | cons report rest ih =>
    have hrest := ih fun other hother => hall other (List.mem_cons_of_mem _ hother)
    rw [List.flatMap_cons, ← hrest]
    cases hgone : goneIn tables.toTables batch report.host with
    | true =>
      have hnone : ((outer report).filter fun joined =>
          (whereClause castTime tables.toTables request flags report joined).holds) = [] := by
        rw [List.filter_eq_nil_iff]
        intro joined hjoined
        rw [hlost report (hall report List.mem_cons_self) hgone joined hjoined]
        exact Bool.false_ne_true
      rw [List.filter_cons, if_neg (by rw [hgone]; exact Bool.false_ne_true), hnone]
      rfl
    | false =>
      rw [List.filter_cons, if_pos (by rw [hgone]; rfl), List.flatMap_cons]
      have hsame : (fun joined => (whereClause castTime (tables.without batch).toTables request flags report joined).holds) =
          fun joined => (whereClause castTime tables.toTables request flags report joined).holds := by
        funext joined
        rw [whereClause_without hgone]
      rw [hsame]

theorem Unseen.not_fresh (h : Unseen castTime tables batch) (horg : request.orgId ≠ "") {row : AdvisorInventoryHost}
    (hrow : row ∈ tables.inventory) (hof : row.orgId = request.orgId)
    (hgone : goneIn tables.toTables batch row.inventoryId = true) :
    (isFresh castTime request.now row).holds = false := by
  have hnone := h row hrow (by rw [hof]; exact horg) hgone
  rw [isFresh, hnone]
  rfl

theorem Unseen.not_eligible (h : Unseen castTime tables batch) (horg : request.orgId ≠ "")
    (hflags : flags.excludeIneligibleHosts = true) {report : CurrentReport}
    (hgone : goneIn tables.toTables batch report.host = true) (outer : Truth) :
    (whereClause castTime tables.toTables request flags report outer).holds = false := by
  have hstale : (staleSystemsFilter castTime tables.toTables request flags report).holds = false := by
    have hrows : ∀ row ∈ tables.inventory.rows, row.inventoryId = report.host → row.orgId = request.orgId →
        (isFresh castTime request.now row).holds = false := by
      intro row hrow hid hof
      exact h.not_fresh horg (Table.mem_def.mpr hrow) hof (by rw [hid]; exact hgone)
    have hjoins : (Truth.any tables.inventory.rows fun row =>
        Truth.and (Truth.eq (some row.inventoryId) (some report.host))
          (Truth.and (Truth.eq (some row.orgId) (some request.orgId)) (isFresh castTime request.now row))).holds =
        false := by
      rw [Truth.any, Truth.holds_ofBool, List.any_eq_false]
      intro row hrow hholds
      simp only [Truth.holds_and, Truth.eq_some, Truth.holds_ofBool, Bool.and_eq_true, decide_eq_true_eq] at hholds
      rw [hrows row hrow hholds.1 hholds.2.1] at hholds
      exact Bool.false_ne_true hholds.2.2
    have hexists : (staleSystemsQ castTime tables.toTables request.orgId request.now report.host).holds = false := by
      rw [staleSystemsQ, Truth.any, Truth.holds_ofBool, List.any_eq_false]
      intro row hrow hholds
      simp only [Truth.holds_and, Truth.eq_some, Truth.holds_ofBool, Bool.and_eq_true, decide_eq_true_eq] at hholds
      rw [hrows row hrow hholds.2.1 hholds.1] at hholds
      exact Bool.false_ne_true hholds.2.2
    rw [staleSystemsFilter]
    split
    · exact hjoins
    · rw [Truth.holds_and, hexists]
      rfl
  have hhosts : (hostsFilter castTime tables.toTables request flags report).holds = false := by
    rw [hostsFilter, if_pos hflags]
    simp only [Truth.holds_and, hstale, Bool.and_false]
  rw [whereClause, Truth.holds_and, hhosts]
  rfl

theorem Unseen.kept (h : Unseen castTime tables batch) {row : AdvisorInventoryHost}
    (hrow : row ∈ forAccount castTime tables.toTables request) :
    request.orgId ≠ "" ∧ goneIn tables.toTables batch row.inventoryId = false := by
  have horg := org_of_forAccount hrow
  rw [forAccount, if_neg horg, List.mem_filter] at hrow
  obtain ⟨hstored, hwhere⟩ := hrow
  simp only [forAccountWhere, Truth.holds_and, Truth.eq_some, Truth.holds_ofBool, Bool.and_eq_true,
    decide_eq_true_eq] at hwhere
  obtain ⟨-, -, -, hfresh, -, hof⟩ := hwhere
  refine ⟨horg, ?_⟩
  cases hgone : goneIn tables.toTables batch row.inventoryId with
  | false => rfl
  | true =>
    rw [h.not_fresh horg (Table.mem_def.mpr hstored) hof hgone] at hfresh
    cases hfresh

theorem Unseen.forAccount_eq (h : Unseen castTime tables batch) (request : Request) :
    forAccount castTime tables.toTables request = forAccount castTime (tables.without batch).toTables request := by
  unfold forAccount
  split
  · rfl
  rename_i horg
  apply List.filter_congr
  intro row hrow
  cases hgone : goneIn tables.toTables batch row.inventoryId with
  | false =>
    have hhost := get?_without hgone
    have hany : (tables.without batch).hosts.rows.any (fun host => host.inventoryId = row.inventoryId) =
        tables.hosts.rows.any fun host => host.inventoryId = row.inventoryId := by
      have hget : ∀ t : Table Host.inventoryId, (t.rows.any fun host => decide (host.inventoryId = row.inventoryId)) =
          (t.get? row.inventoryId).isSome := by
        intro t
        rw [Bool.eq_iff_iff]
        simp [Table.get?]
      rw [hget, hget, hhost]
    have hsame : forAccountWhere castTime (tables.without batch).toTables request row =
        forAccountWhere castTime tables.toTables request row := by
      unfold forAccountWhere
      simp only [Truth.any, Truth.eq_some, Truth.holds_ofBool, hhost, hany]
      rfl
    rw [hsame]
  | true =>
    have hnot : ∀ host : Truth, (Truth.and (isFresh castTime request.now row)
        (Truth.and host (Truth.eq (some row.orgId) (some request.orgId)))).holds = false := by
      intro host
      by_cases hof : row.orgId = request.orgId
      · rw [Truth.holds_and, h.not_fresh horg (Table.mem_def.mpr hrow) hof hgone]
        rfl
      · simp [Truth.holds_and, hof]
    unfold forAccountWhere
    rw [Truth.holds_and, Truth.holds_and, Truth.holds_and, hnot, Truth.holds_and, Truth.holds_and, Truth.holds_and, hnot]
    simp only [Bool.and_false]

theorem getReportsSubquery_kept (hown : OwnUploads tables) (horg : request.orgId ≠ "") {u : Uuid}
    (hkept : goneIn tables.toTables batch u = false) {outer : OuterFilter}
    (houter : ∀ report, report.host ≠ u → ∀ joined ∈ outer report, joined.holds = false) :
    getReportsSubquery castTime (tables.without batch).toTables request flags outer =
      getReportsSubquery castTime tables.toTables request flags outer := by
  apply getReportsSubquery_without hown horg
  intro report _ hgone joined hjoined
  have hother : report.host ≠ u := by
    intro heq
    rw [heq, hkept] at hgone
    cases hgone
  rw [holds_whereClause, houter report hother joined hjoined, Bool.and_false]

theorem reportsOfHost_without (castTime : CastTime) (hown : OwnUploads tables) (horg : request.orgId ≠ "")
    {u : Uuid} (hkept : goneIn tables.toTables batch u = false) (condition : CurrentReport → Truth) :
    reportsOfHost castTime (tables.without batch).toTables request condition u =
      reportsOfHost castTime tables.toTables request condition u := by
  unfold reportsOfHost
  apply getReportsSubquery_kept hown horg hkept
  intro report hother joined hjoined
  rw [List.mem_singleton.mp hjoined, Truth.holds_and, Truth.eq_some, Truth.holds_ofBool, decide_eq_false hother]
  rfl

theorem lastSeen_without {u : Uuid} (hkept : goneIn tables.toTables batch u = false) :
    lastSeen (tables.without batch) u = lastSeen tables u := by
  unfold lastSeen
  congr 1
  show (tables.uploads.rows.filter _).find? _ = _
  rw [List.find?_filter]
  congr 1
  funext upload
  by_cases hof : upload.host = u
  · simp [hof, hkept]
    rfl
  · simp [hof]

theorem annotateSystem_without (hown : OwnUploads tables) (horg : request.orgId ≠ "") (params : ListParams)
    {row : AdvisorInventoryHost} (hkept : goneIn tables.toTables batch row.inventoryId = false) (hits : Nat) :
    annotateSystem castTime (tables.without batch) request params { row, hits } =
      annotateSystem castTime tables request params { row, hits } := by
  have hreports := reportsOfHost_without castTime hown horg hkept
  have hincidents : incidentHits castTime (tables.without batch) request row.inventoryId =
      incidentHits castTime tables request row.inventoryId := by
    unfold incidentHits
    congr 1
    apply getReportsSubquery_kept hown horg hkept
    intro report hother joined hjoined
    obtain ⟨tag, -, rfl⟩ := List.mem_map.mp hjoined
    rw [Truth.holds_and, Truth.eq_some, Truth.holds_ofBool, decide_eq_false hother]
    rfl
  unfold annotateSystem hitsRiskCount allPathwayHits pathwayFilterHits
  simp only [hreports, hincidents, lastSeen_without hkept]
  rfl

theorem hasDisabledRecommendation_without (request : Request) (hown : OwnUploads tables)
    {row : AdvisorInventoryHost} (hkept : goneIn tables.toTables batch row.inventoryId = false) :
    hasDisabledRecommendation (tables.without batch) request row = hasDisabledRecommendation tables request row := by
  have hacks : ((tables.without batch).hostAcks.rows.any fun ack => ack.host = row.inventoryId &&
      ((tables.without batch).hosts.get? ack.host).any fun host => host.orgId = row.orgId) =
      tables.hostAcks.rows.any fun ack => ack.host = row.inventoryId &&
        (tables.hosts.get? ack.host).any fun host => host.orgId = row.orgId := by
    rw [Bool.eq_iff_iff]
    simp only [List.any_eq_true, Bool.and_eq_true, decide_eq_true_eq]
    constructor
    · rintro ⟨ack, hack, hof, hhost⟩
      have hstays : goneIn tables.toTables batch ack.host = false := by rw [hof, hkept]
      rw [get?_without hstays] at hhost
      exact ⟨ack, (Table.mem_deleteWhere.mp (Table.mem_def.mpr hack)).1, hof, hhost⟩
    · rintro ⟨ack, hack, hof, hhost⟩
      have hstays : goneIn tables.toTables batch ack.host = false := by rw [hof, hkept]
      refine ⟨ack, Table.mem_deleteWhere.mpr ⟨Table.mem_def.mpr hack, hstays⟩, hof, ?_⟩
      rw [get?_without hstays]
      exact hhost
  have hreports : ((tables.without batch).reports.rows.any fun report => report.host = row.inventoryId &&
        acked (tables.without batch).toTables request.orgId report.rule) =
      tables.reports.rows.any fun report => report.host = row.inventoryId &&
        acked tables.toTables request.orgId report.rule := by
    rw [reports_without hown]
    apply any_filter_of_imp
    intro report _ hreport
    simp only [Bool.and_eq_true, decide_eq_true_eq] at hreport
    rw [hreport.1, hkept]
    rfl
  unfold hasDisabledRecommendation
  rw [hacks, hreports]

theorem Unseen.systemsList_eq (h : Unseen castTime tables batch) (hown : OwnUploads tables) (icontains : Contains)
    (request : Request) (params : ListParams) :
    systemsList castTime icontains tables request params =
      systemsList castTime icontains (tables.without batch) request params := by
  have hrows : (getSystemsQueryset castTime (tables.without batch).toTables request .none).map
        (annotateSystem castTime (tables.without batch) request params) =
      (getSystemsQueryset castTime tables.toTables request .none).map (annotateSystem castTime tables request params) := by
    rw [getSystemsQueryset, getSystemsQueryset, forAccountJoined_none, forAccountJoined_none, ← h.forAccount_eq,
      List.map_map, List.map_map]
    apply List.map_congr_left
    intro row hrow
    obtain ⟨horg, hkept⟩ := h.kept hrow
    show annotateSystem castTime _ request params { row, hits := _ } = annotateSystem castTime _ request params _
    rw [reportsOfHost_without castTime hown horg hkept, annotateSystem_without hown horg params hkept]
  unfold systemsList
  rw [hrows]
  apply List.filter_congr
  intro system hsystem
  obtain ⟨plain, hplain, rfl⟩ := List.mem_map.mp hsystem
  rw [getSystemsQueryset, forAccountJoined_none] at hplain
  obtain ⟨row, hrow, rfl⟩ := List.mem_map.mp hplain
  have hdisabled := hasDisabledRecommendation_without request hown (h.kept hrow).2
  have hfilter : filterOnHasDisabledRecommendation (tables.without batch) request params
      (annotateSystem castTime tables request params
        { row, hits := (reportsOfHost castTime tables.toTables request (fun _ => .yes) row.inventoryId).length }) =
      filterOnHasDisabledRecommendation tables request params
        (annotateSystem castTime tables request params
          { row, hits := (reportsOfHost castTime tables.toTables request (fun _ => .yes) row.inventoryId).length }) := by
    unfold filterOnHasDisabledRecommendation
    cases params.hasDisabledRecommendation with
    | none => rfl
    | some wanted =>
      show decide (hasDisabledRecommendation (tables.without batch) request row = wanted) =
        decide (hasDisabledRecommendation tables request row = wanted)
      rw [hdisabled]
  rw [hfilter]

theorem Unseen.sameShown (h : Unseen castTime tables batch) (hown : OwnUploads tables) :
    SameShown castTime tables (tables.without batch) where
  accounts := h.forAccount_eq
  reports := by
    intro request flags outer hflags
    by_cases horg : request.orgId = ""
    · rw [getReportsSubquery, getReportsSubquery, if_pos horg, if_pos horg]
    · symm
      apply getReportsSubquery_without hown horg
      exact fun report _ hgone joined _ => h.not_eligible horg hflags hgone joined
  systems := fun icontains request params => h.systemsList_eq hown icontains request params

/-- A row that could be fresh is shown to its organisation at some time before it is stale, as long as its host is there. -/
theorem unseen_of_accounts (h : ∀ request, forAccount castTime tables.toTables request =
    forAccount castTime (tables.without batch).toTables request) : Unseen castTime tables batch := by
  intro row hrow horg hgone
  cases hstamp : puptooStaleTimestamp castTime row with
  | none => rfl
  | some t =>
    exfalso
    obtain ⟨hbatch, hhost⟩ := (Bool.and_eq_true _ _).mp hgone
    have hfresh : (isFresh castTime (t - 1) row).holds = true := by
      rw [isFresh, hstamp]
      simp
    have hshown : row ∈ forAccount castTime tables.toTables (({} : HostFilters).request row.orgId (t - 1)) :=
      (mem_forAccount horg row).mpr ⟨hrow, rfl, rfl, hfresh, hhost, rfl⟩
    rw [h] at hshown
    obtain ⟨-, -, -, -, hstays, -⟩ := (mem_forAccount horg row).mp hshown
    obtain ⟨host, hfound⟩ := Option.isSome_iff_exists.mp hstays
    obtain ⟨hmem, hid⟩ := Table.get?_eq_some.mp hfound
    have hout := (Table.mem_deleteWhere.mp hmem).2
    rw [hid, hbatch] at hout
    cases hout

theorem sameShown_iff (hown : OwnUploads tables) :
    SameShown castTime tables (tables.without batch) ↔ Unseen castTime tables batch :=
  ⟨fun h => unseen_of_accounts h.accounts, fun h => h.sameShown hown⟩

end Batch

section Runs

variable {lib : Library} {castTime : CastTime} {s : State} {tables : SystemTables} {concurrent : Nat → List Change}

theorem Presents.after {step : CullStep} (h : Presents tables step.before) :
    Presents (tables.without step.batch) step.after := by
  obtain ⟨hrules, hreports, huploads, hacks, hhostAcks, hhosts, hinventory⟩ := h
  refine ⟨hrules, ?_, ?_, hacks, ?_, ?_, hinventory⟩
  · show tables.reports.deleteWhere _ = step.before.reports.deleteWhere _
    unfold goneIn
    rw [hreports, huploads, hhosts]
    rfl
  · show tables.uploads.deleteWhere _ = step.before.uploads.deleteWhere _
    unfold goneIn
    rw [huploads, hhosts]
    rfl
  · show tables.hostAcks.deleteWhere _ = step.before.hostAcks.deleteWhere _
    unfold goneIn
    rw [hhostAcks, hhosts]
    rfl
  · show tables.hosts.deleteWhere _ = step.before.hosts.deleteWhere _
    rw [hhosts]

theorem Placed.ownUploads (hs : Placed s) (h : Presents tables s) : OwnUploads tables := by
  intro report hreport upload hupload
  rw [h.reports] at hreport
  rw [h.uploads] at hupload
  obtain ⟨own, hown, hhost, -⟩ := hs.placed report hreport
  obtain rfl := Option.some.inj (hown.symm.trans hupload)
  exact hhost

theorem deleteHosts_narrows (s : State) (batch : List Uuid) :
    Narrows s (withHostTables s (deleteHosts (hostTables s) batch)) where
  uploads := fun upload hupload => (Table.mem_deleteWhere.mp hupload).1
  reports := fun report hreport => (Table.mem_deleteWhere.mp hreport).1
  beside := by
    intro report hreport upload hupload hhost _
    obtain ⟨-, hstays⟩ := Table.mem_deleteWhere.mp hreport
    apply Table.mem_deleteWhere.mpr
    refine ⟨hupload, ?_⟩
    rw [hhost]
    exact (Bool.or_eq_false_iff.mp hstays).1

theorem placed_changes (lib : Library) (hs : Placed s) (changes : List Change) :
    Placed (changes.foldl (Change.apply lib) s) := by
  induction changes generalizing s with
  | nil => exact hs
  | cons change rest ih => exact ih (placed_apply hs change)

theorem placed_cullBatches (hs : Placed s) {batches : List (List Uuid)} {i : Nat} :
    ∀ step ∈ cullBatches lib concurrent i batches s, Placed step.before := by
  induction batches generalizing s i with
  | nil => exact fun step hstep => absurd hstep List.not_mem_nil
  | cons batch rest ih =>
    have hbefore := placed_changes lib hs (concurrent i)
    intro step hstep
    rcases List.mem_cons.mp hstep with rfl | hlater
    · exact hbefore
    · exact ih ((deleteHosts_narrows _ batch).placed hbefore) step hlater

theorem deleteWhere_deleteWhere {ρ κ : Type} [DecidableEq κ] {key : ρ → κ} {t : Table key} {p q r : ρ → Bool}
    (h : ∀ row ∈ t.rows, (p row || q row) = r row) : (t.deleteWhere p).deleteWhere q = t.deleteWhere r := by
  apply Table.eq_of_rows
  show (t.rows.filter _).filter _ = t.rows.filter _
  rw [List.filter_filter]
  apply List.filter_congr
  intro row hrow
  rw [← h row hrow]
  cases p row <;> cases q row <;> rfl

theorem deleteHosts_append (db : Database) (first rest : List Uuid) :
    deleteHosts (deleteHosts db first) rest = deleteHosts db (first ++ rest) := by
  have hhosts : ∀ u, ((deleteHosts db first).hosts.get? u).isSome = (!first.contains u && (db.hosts.get? u).isSome) := by
    intro u
    show ((db.hosts.deleteWhere _).get? u).isSome = _
    rw [Table.get?_deleteWhere]
    cases hfound : db.hosts.get? u with
    | none => rw [Option.filter_none, Option.isSome_none, Bool.and_false]
    | some host =>
      have hid : host.inventoryId = u := Table.get?_key hfound
      rw [Option.filter_some, hid]
      cases first.contains u <;> rfl
  have hgone : ∀ u, (first.contains u && (db.hosts.get? u).isSome ||
      rest.contains u && ((deleteHosts db first).hosts.get? u).isSome) =
        ((first ++ rest).contains u && (db.hosts.get? u).isSome) := by
    intro u
    rw [hhosts, List.contains_append]
    cases first.contains u <;> cases rest.contains u <;> cases (db.hosts.get? u).isSome <;> rfl
  have hhostRows : (deleteHosts (deleteHosts db first) rest).hosts = (deleteHosts db (first ++ rest)).hosts := by
    apply deleteWhere_deleteWhere
    intro host _
    rw [List.contains_append]
  have huploads : (deleteHosts (deleteHosts db first) rest).uploads = (deleteHosts db (first ++ rest)).uploads := by
    apply deleteWhere_deleteWhere
    exact fun upload _ => hgone upload.host
  have hhostAcks : (deleteHosts (deleteHosts db first) rest).hostAcks = (deleteHosts db (first ++ rest)).hostAcks := by
    apply deleteWhere_deleteWhere
    exact fun ack _ => hgone ack.host
  have hreports : (deleteHosts (deleteHosts db first) rest).reports = (deleteHosts db (first ++ rest)).reports := by
    apply deleteWhere_deleteWhere
    intro report _
    have hupload : (deleteHosts db first).uploads.get? report.upload =
        (db.uploads.get? report.upload).filter fun upload =>
          !(first.contains upload.host && (db.hosts.get? upload.host).isSome) := Table.get?_deleteWhere ..
    rw [hupload]
    cases db.uploads.get? report.upload with
    | none =>
      simp only [Option.filter_none, Option.any_none, Bool.or_false]
      exact hgone report.host
    | some upload =>
      have hown := hgone report.host
      have hother := hgone upload.host
      dsimp only
      rw [Option.filter_some, Option.any_some, Option.any_some, ← hown, ← hother]
      cases first.contains upload.host && (db.hosts.get? upload.host).isSome with
      | true => simp
      | false => simp [Bool.or_assoc]
  calc deleteHosts (deleteHosts db first) rest
      = ⟨db.inventory, (deleteHosts db (first ++ rest)).hosts, (deleteHosts db (first ++ rest)).uploads,
          (deleteHosts db (first ++ rest)).reports, (deleteHosts db (first ++ rest)).hostAcks⟩ := by
        rw [← hhostRows, ← huploads, ← hreports, ← hhostAcks]
        rfl
    _ = deleteHosts db (first ++ rest) := rfl

def finalState (s : State) (steps : List CullStep) : State := (steps.map CullStep.after).getLastD s

theorem deleteHosts_nil (db : Database) : deleteHosts db [] = db := by
  have hnone : ∀ {ρ κ : Type} [DecidableEq κ] {key : ρ → κ} (t : Table key), (t.deleteWhere fun _ => false) = t :=
    fun t => Table.deleteWhere_of_none fun _ _ => rfl
  have hreports : (deleteHosts db []).reports = db.reports := by
    apply Table.deleteWhere_of_none
    intro report _
    cases db.uploads.get? report.upload <;> rfl
  calc deleteHosts db []
      = ⟨db.inventory, db.hosts.deleteWhere fun _ => false, db.uploads.deleteWhere fun _ => false,
          (deleteHosts db []).reports, db.hostAcks.deleteWhere fun _ => false⟩ := rfl
    _ = db := by rw [hnone, hnone, hnone, hreports]

theorem cullBatches_undisturbed (lib : Library) (hquiet : ∀ i, concurrent i = []) (s : State)
    (batches : List (List Uuid)) (i : Nat) :
    finalState s (cullBatches lib concurrent i batches s) =
      withHostTables s (deleteHosts (hostTables s) batches.flatten) := by
  induction batches generalizing s i with
  | nil =>
    rw [List.flatten_nil, deleteHosts_nil]
    rfl
  | cons batch rest ih =>
    have hstep : cullBatches lib concurrent i (batch :: rest) s =
        ⟨s, batch⟩ :: cullBatches lib concurrent (i + 1) rest (CullStep.after ⟨s, batch⟩) := by
      rw [cullBatches, hquiet i]
      rfl
    have hlast : ∀ (step : CullStep) (steps : List CullStep),
        finalState s (step :: steps) = finalState step.after steps := by
      intro step steps
      rw [finalState, List.map_cons, List.getLastD_cons, finalState]
    rw [hstep, hlast, ih, List.flatten_cons, ← deleteHosts_append]
    rfl

theorem rawHosts_after (updatedAt : Uuid → Instant) (staleCullDate : Instant) (db : Database) :
    rawHosts updatedAt staleCullDate (deleteHosts db (rawHosts updatedAt staleCullDate db)) = [] := by
  rw [rawHosts, List.map_eq_nil_iff, List.filter_eq_nil_iff]
  intro host hhost hstale
  obtain ⟨hstored, hout⟩ := Table.mem_deleteWhere.mp (Table.mem_def.mpr hhost)
  have hlisted : host.inventoryId ∈ rawHosts updatedAt staleCullDate db :=
    List.mem_map_of_mem (List.mem_filter.mpr ⟨Table.mem_def.mp hstored, hstale⟩)
  rw [List.contains_iff_mem.mpr hlisted] at hout
  cases hout

variable {meets : State → Change → Prop} {updatedAt : Uuid → Instant} {now : Instant} {options : StaleHostOptions}
  {steps : List CullStep}

/-- Whatever the services do while the command runs: what a batch takes away is missing from some view if and only if
some organisation has a row of the inventory for one of its hosts that can be fresh, which is a host filed under another
organisation or one that has come back since the ids were read. Left alone, the command takes away all hosts there are
to go, and nothing that depends on the size of the batches. -/
theorem culled_unseen (castTime : CastTime) (hs : Reached lib meets s)
    (hrun : deleteStaleApiHosts lib updatedAt now options concurrent s = .ok steps) :
    (∀ step ∈ steps, ∀ tables, Presents tables step.before → Presents (tables.without step.batch) step.after ∧
      (SameShown castTime tables (tables.without step.batch) ↔ Unseen castTime tables step.batch)) ∧
    ((∀ i, concurrent i = []) →
      finalState s steps = withHostTables s (deleteHosts (hostTables s)
        (rawHosts updatedAt (now - options.days * dayLength) (hostTables s))) ∧
      rawHosts updatedAt (now - options.days * dayLength) (hostTables (finalState s steps)) = []) := by
  rw [deleteStaleApiHosts] at hrun
  split_ifs at hrun
  obtain rfl := Except.ok.inj hrun
  have hplaced := placed_of_reached hs
  refine ⟨?_, ?_⟩
  · intro step hstep tables htables
    have hown := (placed_cullBatches hplaced step hstep).ownUploads htables
    exact ⟨htables.after, sameShown_iff hown⟩
  · intro hquiet
    have hfinal := cullBatches_undisturbed lib hquiet s
      ((rawHosts updatedAt (now - options.days * dayLength) (hostTables s)).toChunks options.batch.toNat) 0
    rw [Tasks.toChunks_flatten] at hfinal
    refine ⟨hfinal, ?_⟩
    rw [hfinal]
    exact rawHosts_after updatedAt (now - options.days * dayLength) (hostTables s)

end Runs

def untold : State := Change.apply Inventory.isoLibrary imported (.upload notifying noFaults otherSource)

theorem culled_unseen_untold :
    rawHosts (fun _ => 0) (14 * dayLength) (hostTables untold) = [otherSource.inventoryId] ∧
      ∃ steps, deleteStaleApiHosts Inventory.isoLibrary (fun _ => 0) (28 * dayLength) {} (fun _ => []) untold =
          .ok steps ∧
        rawHosts (fun _ => 0) (14 * dayLength) (hostTables (finalState untold steps)) = [] := by
  have hreached : Reached Inventory.isoLibrary (fun _ _ => True) untold := .step (.step .start trivial) trivial
  have hdate : 28 * dayLength - ({} : StaleHostOptions).days * dayLength = 14 * dayLength := by decide
  have hrun : deleteStaleApiHosts Inventory.isoLibrary (fun _ => 0) (28 * dayLength) {} (fun _ => []) untold =
      .ok _ := if_neg (by decide)
  have hleft := ((culled_unseen (fun _ => none) hreached hrun).2 fun _ => rfl).2
  rw [hdate] at hleft
  exact ⟨by decide +kernel, _, hrun, hleft⟩

end Advisor.Reports
