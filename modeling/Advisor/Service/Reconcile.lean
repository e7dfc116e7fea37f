import Advisor.Service.Call

/-! When an upload leaves exactly the reports it should: one for each rule it reports that passes the filters. -/

namespace Advisor.Service

open Python Procedure Django Relational

variable {settings : Settings} {call : UploadCall} {s : State}

/-- The reported rule ids that the filters let pass: only non-RHEL ones if any is reported, and of those only
RHEL 6 ones if any is among them. -/
def passing (settings : Settings) (reported : List String) : List String :=
  let nonRhel := reported.filter settings.filterOutNonRhelRuleId.contains
  let rhel := if settings.filterOutNonRhel && !nonRhel.isEmpty then nonRhel else reported
  let rhel6 := rhel.filter settings.filterOutRhel6RuleIds.contains
  if settings.filterOutRhel6 && !rhel6.isEmpty then rhel6 else rhel

/-- What is expected of an upload and of the state it finds. -/
structure Expected (call : UploadCall) (s : State) : Prop where
  source : ∀ report ∈ s.reports, report.host = call.inventoryId →
    ∃ upload, s.uploads.get? report.upload = some upload ∧ upload.source = call.source
  rules : ∀ report ∈ s.reports, (s.rules.get? report.rule).isSome
  entries : ∀ report ∈ call.reports, ∃ id details, report.item "rule_id" = .ok id ∧ report.item "details" = .ok details
  risks : ∀ rule ∈ s.rules, rule.ruleId ∈ reportedRuleIds call.reports → 1 ≤ rule.totalRisk ∧ rule.totalRisk ≤ 4

def UploadCall.Gives (call : UploadCall) (ruleId : String) (details : Json) : Prop :=
  ∃ report ∈ call.reports, report.item "rule_id" = .ok (.str ruleId) ∧ report.item "details" = .ok details

/-- An upload leaves one report for each reported rule that passes, and no other of its host and organisation. -/
structure Reconciled (settings : Settings) (call : UploadCall) (s : State) : Prop where
  returned : (createDbReports settings noFaults call s).1 = .ok true
  passing : ∀ rule ∈ s.rules, rule.ruleId ∈ passing settings (reportedRuleIds call.reports) →
    ∃ report upload, (createDbReports settings noFaults call s).2.reports.get? (call.key rule.id) = some report ∧
      (createDbReports settings noFaults call s).2.uploads.get? report.upload = some upload ∧ call.Stamps upload ∧
        call.Gives rule.ruleId report.details
  others : ∀ report ∈ (createDbReports settings noFaults call s).2.reports, report.host = call.inventoryId →
    report.orgId = call.orgId →
      ∃ rule ∈ s.rules, rule.id = report.rule ∧ rule.ruleId ∈ Service.passing settings (reportedRuleIds call.reports)
  elsewhere : ∀ k, (∀ rid, k ≠ call.key rid) →
    (createDbReports settings noFaults call s).2.reports.get? k = s.reports.get? k

/-- The stored report of a rule is already one of the call's upload, with details the payload gives. -/
def State.AlreadyThere (s : State) (call : UploadCall) (report : CurrentReport) (ruleId : String) : Prop :=
  (∃ upload, s.uploads.get? report.upload = some upload ∧ call.ownUpload upload = true) ∧ call.Gives ruleId report.details

/-- What an upload needs to leave exactly the reports it should. -/
structure State.Reconcilable (s : State) (settings : Settings) (call : UploadCall) : Prop where
  identified : call.identified = true
  source : charStorable 50 call.source = true
  upload : s.UploadFits call
  hashable : ∀ report ∈ call.reports, ∀ id, report.item "rule_id" = .ok id → id.hashable = true
  texts : ∀ ruleId ∈ finalRuleIds settings (reportedRuleIds call.reports), '\x00' ∉ ruleId.toList
  stores : s.Stores settings call
  filters : ∀ rule ∈ s.rules, rule.ruleId ∈ reportedRuleIds call.reports →
    (rule.ruleId ∈ finalRuleIds settings (reportedRuleIds call.reports) ↔
      rule.ruleId ∈ passing settings (reportedRuleIds call.reports))
  goes : ∀ rule ∈ s.rules, (s.reports.get? (call.key rule.id)).isSome →
    rule.ruleId ∉ passing settings (reportedRuleIds call.reports) →
      rule.ruleId ∉ finalRuleIds settings (reportedRuleIds call.reports)
  accounts : ∀ rule ∈ s.rules, rule.ruleId ∈ passing settings (reportedRuleIds call.reports) →
    ∀ report, s.reports.get? (call.key rule.id) = some report → report.account ≠ call.account →
      s.AlreadyThere call report rule.ruleId

theorem passing_subset (settings : Settings) (reported : List String) :
    ∀ ruleId ∈ passing settings reported, ruleId ∈ reported := by
  intro ruleId h
  have hrhel : ∀ ruleId ∈ (if settings.filterOutNonRhel &&
      !(reported.filter settings.filterOutNonRhelRuleId.contains).isEmpty then
        reported.filter settings.filterOutNonRhelRuleId.contains else reported), ruleId ∈ reported := by
    intro ruleId hmem
    split_ifs at hmem
    · exact (List.mem_filter.mp hmem).1
    · exact hmem
  unfold passing at h
  dsimp only at h
  generalize (if settings.filterOutNonRhel && !(reported.filter settings.filterOutNonRhelRuleId.contains).isEmpty then
    reported.filter settings.filterOutNonRhelRuleId.contains else reported) = rhel at h hrhel
  split_ifs at h
  · exact hrhel ruleId (List.mem_filter.mp h).1
  · exact hrhel ruleId h

theorem gives_of_entry {entry : RuleReport} (h : entry ∈ s.reported settings call) :
    call.Gives entry.rule.ruleId entry.details := (entry_of_mem h).2.2

theorem Expected.reported_iff (h : Expected call s) {rule : Rule} :
    (∃ entry ∈ s.reported settings call, entry.rule = rule) ↔
      rule ∈ s.rules ∧ rule.ruleId ∈ reportedRuleIds call.reports ∧
        rule.ruleId ∈ finalRuleIds settings (reportedRuleIds call.reports) := by
  refine Service.reported_iff fun report hreport _ => ?_
  obtain ⟨-, details, -, hdetails⟩ := h.entries report hreport
  exact ⟨details, hdetails⟩

theorem uploadFits_withHost : (s.withHost call).UploadFits call ↔ s.UploadFits call := by
  constructor
  · intro h
    exact ⟨by simpa using h.one, by simpa using h.free⟩
  · intro h
    exact ⟨by simpa using h.one, by simpa using h.free⟩

theorem ruleReport_isOk {rules : List Rule} {report id details : Json} (hid : report.item "rule_id" = .ok id)
    (hdetails : report.item "details" = .ok details) :
    (∃ found, ruleReport rules report = .ok found) ↔ id.hashable = true := by
  unfold ruleReport
  simp only [hid, hdetails, bind, Except.bind]
  cases hhash : id.hashable with
  | false => simp [throw, throwThe, MonadExceptOf.throw]
  | true => cases (text? id).bind fun id => rules.find? fun rule => rule.ruleId = id <;> simp [pure, Except.pure]

theorem accepts_iff (h : Expected call s) :
    (s.withHost call).Accepts settings call ↔ call.identified = true ∧ charStorable 50 call.source = true ∧
      s.UploadFits call ∧ (∀ report ∈ call.reports, ∀ id, report.item "rule_id" = .ok id → id.hashable = true) ∧
        ∀ ruleId ∈ finalRuleIds settings (reportedRuleIds call.reports), '\x00' ∉ ruleId.toList := by
  have hrules : ((s.withHost call).known settings call 0).rules = (s.known settings call 0).rules := by
    rw [withHost_known]
  have hread (report : Json) (hreport : report ∈ call.reports) :
      ((s.withHost call).known settings call 0).Accepts report ↔
        ∀ id, report.item "rule_id" = .ok id → id.hashable = true := by
    obtain ⟨id, details, hid, hdetails⟩ := h.entries report hreport
    rw [Known.Accepts, hrules]
    constructor
    · rintro ⟨found, hfound, -⟩ other hother
      obtain rfl := Except.ok.inj (hid.symm.trans hother)
      exact (ruleReport_isOk hid hdetails).mp ⟨found, hfound⟩
    · intro hhash
      obtain ⟨found, hfound⟩ := (ruleReport_isOk hid hdetails).mpr (hhash id hid)
      refine ⟨found, hfound, ?_⟩
      rintro entry rfl -
      have hentry : entry ∈ s.reported settings call := mem_entries.mpr ⟨report, hreport, hfound⟩
      obtain ⟨hrule, -, other, hother, hruleId, -⟩ := entry_of_mem hentry
      exact (h.risks entry.rule hrule (mem_reportedRuleIds.mpr ⟨other, hother, hruleId⟩)).2
  constructor
  · intro ha
    exact ⟨ha.identified, ha.source, uploadFits_withHost.mp ha.upload, fun report hr => (hread report hr).mp (ha.entries report hr), ha.texts⟩
  · rintro ⟨hidentified, hsource, hfits, hhash, htexts⟩
    exact ⟨withHost_host s call fun _ => hidentified, hidentified, hsource, uploadFits_withHost.mpr hfits, htexts,
      fun report hr => (hread report hr).mpr (hhash report hr)⟩

theorem takes_iff (h : Expected call s) :
    s.Takes settings call ↔ call.identified = true ∧ charStorable 50 call.source = true ∧ s.UploadFits call ∧
      (∀ report ∈ call.reports, ∀ id, report.item "rule_id" = .ok id → id.hashable = true) ∧
        (∀ ruleId ∈ finalRuleIds settings (reportedRuleIds call.reports), '\x00' ∉ ruleId.toList) ∧
          s.Stores settings call := by
  constructor
  · intro ht
    obtain ⟨hidentified, hsource, hfits, hhash, htexts⟩ := (accepts_iff h).mp ht.accepts
    exact ⟨hidentified, hsource, hfits, hhash, htexts, ht.stores⟩
  · rintro ⟨hidentified, hsource, hfits, hhash, htexts, hstores⟩
    exact ⟨(accepts_iff h).mpr ⟨hidentified, hsource, hfits, hhash, htexts⟩, hstores⟩

theorem leaves_reported (known : Known) (hstores : s.Stores settings call) {entry : RuleReport}
    (hentry : entry ∈ s.reported settings call) :
    (∃ report, s.leaves settings call known (call.key entry.rule.id) = some report ∧ report.upload = known.upload ∧
        call.Gives entry.rule.ruleId report.details ∧
          ∀ old, s.reports.get? (call.key entry.rule.id) = some old → old.account = call.account) ∨
      ∃ old, s.reports.get? (call.key entry.rule.id) = some old ∧ old.account ≠ call.account ∧
        s.leaves settings call known (call.key entry.rule.id) = some old := by
  cases hold : s.reports.get? (call.key entry.rule.id) with
  | none =>
    have hnew := mem_newEntries.mpr ⟨hentry, hold⟩
    exact Or.inl ⟨_, leaves_new known hnew hstores.distinct, rfl, gives_of_entry hentry, by simp⟩
  | some old =>
    rcases leaves_existing known hentry hold with ⟨haccount, last, hlast, hid, hleaves⟩ | ⟨haccount, hleaves⟩
    · have hsame : last.rule = entry.rule := s.rules.key_injOn (entry_of_mem hlast).1 (entry_of_mem hentry).1 hid
      refine Or.inl ⟨_, hleaves, rfl, ?_, ?_⟩
      · rw [← hsame]
        exact gives_of_entry hlast
      · rintro other ⟨⟩
        exact haccount
    · exact Or.inr ⟨old, rfl, haccount, hleaves⟩

/-- The report left for a rule that is not reported: the stored one, if the rule is among the final ones. -/
theorem leaves_unreported_iff (known : Known) {rule : Rule} (hrule : rule ∈ s.rules)
    (hnot : ¬ ∃ entry ∈ s.reported settings call, entry.rule = rule) {report : CurrentReport} :
    s.leaves settings call known (call.key rule.id) = some report ↔
      s.reports.get? (call.key rule.id) = some report ∧
        rule.ruleId ∈ finalRuleIds settings (reportedRuleIds call.reports) := by
  have hids : ∀ entry ∈ s.reported settings call, entry.rule.id ≠ rule.id := fun entry hentry hid =>
    hnot ⟨entry, hentry, s.rules.key_injOn (entry_of_mem hentry).1 hrule hid⟩
  rw [leaves_unreported known hids, Option.filter_eq_some_iff]
  refine and_congr_right fun hget => ?_
  rw [Bool.not_eq_true', ← Bool.not_eq_true, resolves_stored hrule hget, not_not]

theorem mem_of_leaves {s' : State} {known : Known} (h : Stored settings call s s' known) {id : Nat}
    {report : CurrentReport} (hleaves : s.leaves settings call known (call.key id) = some report) :
    report ∈ s'.reports ∧ report.host = call.inventoryId ∧ report.orgId = call.orgId ∧ report.rule = id := by
  obtain ⟨hin, hkey⟩ := Table.get?_eq_some.mp ((h.reports _).trans hleaves)
  simp only [CurrentReport.key, UploadCall.key, Prod.mk.injEq] at hkey
  exact ⟨hin, hkey.2.2, hkey.1, hkey.2.1⟩

theorem reconcilable_of_reconciled {s' : State} {known : Known} (h : Expected call s) (htakes : s.Takes settings call)
    (heq : createDbReports settings noFaults call s = (.ok true, s')) (hstored : Stored settings call s s' known)
    (hr : Reconciled settings call s) : s.Reconcilable settings call := by
  obtain ⟨hidentified, hsource, hfits, hhash, htexts, hstores⟩ := (takes_iff h).mp htakes
  have hothers {rule : Rule} (hrule : rule ∈ s.rules) {report : CurrentReport}
      (hleaves : s.leaves settings call known (call.key rule.id) = some report) :
      rule.ruleId ∈ passing settings (reportedRuleIds call.reports) := by
    obtain ⟨hin, hhost, horg, hid⟩ := mem_of_leaves hstored hleaves
    have hout := hr.others report
    rw [heq] at hout
    obtain ⟨other, hother, hsame, hpass⟩ := hout hin hhost horg
    rwa [← s.rules.key_injOn hother hrule (hsame.trans hid)]
  have hpassing {rule : Rule} (hrule : rule ∈ s.rules)
      (hpass : rule.ruleId ∈ passing settings (reportedRuleIds call.reports)) :
      ∃ report upload, s.leaves settings call known (call.key rule.id) = some report ∧
        s'.uploads.get? report.upload = some upload ∧ call.Stamps upload ∧ call.Gives rule.ruleId report.details := by
    have hleft := hr.passing rule hrule hpass
    rw [heq] at hleft
    obtain ⟨report, upload, hget, hrest⟩ := hleft
    exact ⟨report, upload, (hstored.reports _).symm.trans hget, hrest⟩
  have hfilters : ∀ rule ∈ s.rules, rule.ruleId ∈ reportedRuleIds call.reports →
      (rule.ruleId ∈ finalRuleIds settings (reportedRuleIds call.reports) ↔
        rule.ruleId ∈ passing settings (reportedRuleIds call.reports)) := by
    intro rule hrule hreported
    constructor
    · intro hfinal
      obtain ⟨entry, hentry, rfl⟩ := h.reported_iff.mpr ⟨hrule, hreported, hfinal⟩
      rcases leaves_reported known hstores hentry with ⟨report, hleaves, -⟩ | ⟨old, -, -, hleaves⟩
      · exact hothers hrule hleaves
      · exact hothers hrule hleaves
    · intro hpass
      by_contra hfinal
      obtain ⟨report, -, hleaves, -⟩ := hpassing hrule hpass
      have hnot : ¬ ∃ entry ∈ s.reported settings call, entry.rule = rule :=
        fun hentry => hfinal (h.reported_iff.mp hentry).2.2
      exact hfinal ((leaves_unreported_iff known hrule hnot).mp hleaves).2
  refine ⟨hidentified, hsource, hfits, hhash, htexts, hstores, hfilters, ?_, ?_⟩
  · intro rule hrule hsome hpass hfinal
    obtain ⟨old, hold⟩ := Option.isSome_iff_exists.mp hsome
    have hnot : ¬ ∃ entry ∈ s.reported settings call, entry.rule = rule := fun hentry =>
      hpass ((hfilters rule hrule (h.reported_iff.mp hentry).2.1).mp hfinal)
    exact hpass (hothers hrule ((leaves_unreported_iff known hrule hnot).mpr ⟨hold, hfinal⟩))
  · intro rule hrule hpass old hold haccount
    have hreported := passing_subset _ _ _ hpass
    obtain ⟨entry, hentry, rfl⟩ := h.reported_iff.mpr ⟨hrule, hreported, (hfilters rule hrule hreported).mpr hpass⟩
    obtain ⟨report, upload, hleft, hupload, hstamps, hgives⟩ := hpassing hrule hpass
    rcases leaves_reported known hstores hentry with ⟨_, -, -, -, hsame⟩ | ⟨other, hother, -, hleaves⟩
    · exact absurd (hsame old hold) haccount
    · obtain rfl := Option.some.inj (hold.symm.trans hother)
      obtain rfl := Option.some.inj (hleaves.symm.trans hleft)
      obtain ⟨hin, hkey⟩ := Table.get?_eq_some.mp hold
      have hhost : old.host = call.inventoryId := congrArg (·.2.2) hkey
      obtain ⟨u, hu, -⟩ := h.source old hin hhost
      obtain ⟨s₁, hwrite, huploads⟩ := hstored.upload
      rw [huploads] at hupload
      have hown := (stamps_iff hwrite (by rw [withHost_uploads, hu]; rfl)).mp ⟨upload, hupload, hstamps⟩
      rw [withHost_uploads] at hown
      exact ⟨hown, hgives⟩

theorem reconciled_of_reconcilable {s' : State} {known : Known} (h : Expected call s)
    (heq : createDbReports settings noFaults call s = (.ok true, s')) (hstored : Stored settings call s s' known)
    (hr : s.Reconcilable settings call) : Reconciled settings call s := by
  obtain ⟨s₁, hwrite, huploads⟩ := hstored.upload
  refine ⟨by rw [heq], ?_, ?_, ?_⟩
  · intro rule hrule hpass
    have hreported := passing_subset _ _ _ hpass
    obtain ⟨entry, hentry, rfl⟩ :=
      h.reported_iff.mpr ⟨hrule, hreported, (hr.filters rule hrule hreported).mpr hpass⟩
    rw [heq]
    simp only [hstored.reports, huploads]
    rcases leaves_reported known hr.stores hentry with ⟨report, hleaves, hupload, hgives, -⟩ | ⟨old, hold, haccount, hleaves⟩
    · obtain ⟨-, -, upload, hget, hstamps⟩ := updateOrCreateUpload_ok hwrite
      exact ⟨report, upload, hleaves, by rw [hupload, hget], hstamps, hgives⟩
    · obtain ⟨⟨upload, hupload, hown⟩, hgives⟩ := hr.accounts entry.rule hrule hpass old hold haccount
      obtain ⟨stamped, hget, hstamps⟩ := (stamps_iff hwrite (by rw [withHost_uploads, hupload]; rfl)).mpr
        ⟨upload, by rw [withHost_uploads, hupload], hown⟩
      exact ⟨old, stamped, hleaves, hget, hstamps, hgives⟩
  · intro report hreport hhost horg
    rw [heq] at hreport
    have hkey : report.key = call.key report.rule := by rw [CurrentReport.key, hhost, horg, UploadCall.key]
    have hleaves : s.leaves settings call known (call.key report.rule) = some report := by
      rw [← hkey, ← hstored.reports]
      exact Table.mem_iff_get?.mp hreport
    by_cases hentry : ∃ entry ∈ s.reported settings call, entry.rule.id = report.rule
    · obtain ⟨entry, hentry, hid⟩ := hentry
      obtain ⟨hrule, hreported, hfinal⟩ := h.reported_iff.mp ⟨entry, hentry, rfl⟩
      exact ⟨entry.rule, hrule, hid, (hr.filters _ hrule hreported).mp hfinal⟩
    · have hids : ∀ entry ∈ s.reported settings call, entry.rule.id ≠ report.rule :=
        fun entry he hid => hentry ⟨entry, he, hid⟩
      have hstill := leaves_unreported known hids
      rw [hleaves] at hstill
      obtain ⟨hold, -⟩ := Option.filter_eq_some_iff.mp hstill.symm
      obtain ⟨rule, hget⟩ := Option.isSome_iff_exists.mp (h.rules report (Table.get?_eq_some.mp hold).1)
      obtain ⟨hrule, hid⟩ := Table.get?_eq_some.mp hget
      have hnot : ¬ ∃ entry ∈ s.reported settings call, entry.rule = rule := by
        rintro ⟨entry, he, rfl⟩
        exact hentry ⟨entry, he, hid⟩
      rw [← hid] at hleaves hold
      refine ⟨rule, hrule, hid, ?_⟩
      by_contra hpass
      exact hr.goes rule hrule (by rw [hold]; rfl) hpass ((leaves_unreported_iff known hrule hnot).mp hleaves).2
  · intro k hk
    rw [heq, hstored.reports, leaves_other known hk]

theorem reconciled_iff (settings : Settings) (call : UploadCall) (s : State) (h : Expected call s) :
    Reconciled settings call s ↔ s.Reconcilable settings call := by
  rcases createDbReports_noFaults s settings call with ⟨htakes, s', known, heq, hstored⟩ | ⟨hnot, heq⟩
  · exact ⟨reconcilable_of_reconciled h htakes heq hstored, reconciled_of_reconcilable h heq hstored⟩
  · refine iff_of_false (fun hr => ?_) fun hr => hnot ((takes_iff h).mpr
      ⟨hr.identified, hr.source, hr.upload, hr.hashable, hr.texts, hr.stores⟩)
    have hreturned := hr.returned
    rw [heq] at hreturned
    cases hreturned

theorem expected_ready : Expected (clientUpload [weakKeys]) .ready where
  source _ hreport := by cases hreport
  rules _ hreport := by cases hreport
  entries report hreport := by
    obtain rfl := List.mem_singleton.mp hreport
    exact ⟨_, _, rfl, rfl⟩
  risks rule hrule _ := by
    obtain rfl := Table.mem_single.mp hrule
    decide

theorem reconciled_ready :
    Reconciled notifying (clientUpload [weakKeys]) .ready ↔ State.ready.Reconcilable notifying (clientUpload [weakKeys]) :=
  reconciled_iff notifying (clientUpload [weakKeys]) .ready expected_ready

def nonRhel : Settings :=
  { notifying with
    filterOutNonRhel := true
    filterOutNonRhelRuleId := ["other_linux|SYSTEM", "other_linux|SYSTEM_V2"] }

def State.nonRhelReported : State :=
  { State.ready with
    rules := ⟨[⟨1, "other_linux|SYSTEM", true, 2, "", none, false, []⟩,
      ⟨2, "other_linux|SYSTEM_V2", true, 2, "", none, false, []⟩], by decide⟩
    uploads := .single ⟨1, 7, none, "1234", 1, "insights-client", 0, true, false⟩
    reports := .single ⟨none, "1234", 2, 7, 1, .dict [], some 0⟩
    ruleIds := by decide }

def nonRhelUpload : UploadCall :=
  clientUpload [.dict [("rule_id", .str "other_linux|SYSTEM"), ("details", .dict [])]]

/-- The report of the second rule stays, which is not reported. -/
theorem reconciled_nonRhel : Expected nonRhelUpload .nonRhelReported ∧ ¬ Reconciled nonRhel nonRhelUpload .nonRhelReported := by
  refine ⟨⟨?_, ?_, ?_, ?_⟩, fun h => ?_⟩
  · intro report hreport _
    obtain rfl := Table.mem_single.mp hreport
    exact ⟨_, rfl, rfl⟩
  · intro report hreport
    obtain rfl := Table.mem_single.mp hreport
    rfl
  · intro report hreport
    obtain rfl := List.mem_singleton.mp hreport
    exact ⟨_, _, rfl, rfl⟩
  · intro rule hrule _
    simp only [State.nonRhelReported, Table.mem_def, List.mem_cons, List.not_mem_nil, or_false] at hrule
    rcases hrule with rfl | rfl <;> decide
  · have hstays : ((createDbReports nonRhel noFaults nonRhelUpload .nonRhelReported).2.reports.get?
        (nonRhelUpload.key 2)).isSome = true := by decide +kernel
    obtain ⟨report, hreport⟩ := Option.isSome_iff_exists.mp hstays
    obtain ⟨hin, hkey⟩ := Table.get?_eq_some.mp hreport
    simp only [CurrentReport.key, UploadCall.key, Prod.mk.injEq] at hkey
    obtain ⟨rule, hrule, hid, hpass⟩ := h.others report hin hkey.2.2 hkey.1
    have hpassing : passing nonRhel (reportedRuleIds nonRhelUpload.reports) = ["other_linux|SYSTEM"] := by decide
    rw [hpassing, List.mem_singleton] at hpass
    rw [hkey.2.1] at hid
    simp only [State.nonRhelReported, Table.mem_def, List.mem_cons, List.not_mem_nil, or_false] at hrule
    rcases hrule with rfl | rfl
    · exact absurd hid (by decide)
    · exact absurd hpass (by decide)

end Advisor.Service
