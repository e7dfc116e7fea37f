import Advisor.Service.Effects

/-! The report that a call leaves for each rule: a new one, the one it found rewritten or as it was,
or none. -/

namespace Advisor.Service

open Python Procedure Django Relational

variable {settings : Settings} {faults : Faults} {call : UploadCall}

def UploadCall.key (call : UploadCall) (rule : Nat) : String × Nat × Uuid := (call.orgId, rule, call.inventoryId)

theorem ruleReport_some {rules : List Rule} {report : Json} {entry : RuleReport} :
    ruleReport rules report = .ok (some entry) ↔
      ∃ id, report.item "rule_id" = .ok (.str id) ∧ rules.find? (fun rule => rule.ruleId = id) = some entry.rule ∧
        report.item "details" = .ok entry.details := by
  unfold ruleReport
  constructor
  · intro h
    rw [bind_eq_ok] at h
    obtain ⟨value, hvalue, h⟩ := h
    cases hhash : value.hashable with
    | false =>
      rw [hhash] at h
      cases h
    | true =>
      simp only [hhash, Bool.not_true, Bool.false_eq_true, if_false] at h
      cases hfind : (text? value).bind fun id => rules.find? fun rule => rule.ruleId = id with
      | none =>
        rw [hfind] at h
        cases h
      | some rule =>
        rw [hfind] at h
        obtain ⟨details, hdetails, h⟩ := bind_eq_ok.mp h
        obtain rfl : ⟨rule, details⟩ = entry := Option.some.inj (Except.ok.inj h)
        obtain ⟨id, hid, hrule⟩ := Option.bind_eq_some_iff.mp hfind
        obtain rfl : value = .str id := by
          cases value <;> simp [text?] at hid
          rw [hid]
        exact ⟨id, hvalue, hrule, hdetails⟩
  · rintro ⟨id, hid, hrule, hdetails⟩
    simp only [hid, bind, Except.bind, Json.hashable, text?, Option.bind, hrule, hdetails]
    rfl

theorem mem_reportRules {s : State} {ruleIds : List String} {rule : Rule} :
    rule ∈ s.reportRules ruleIds ↔ rule ∈ s.rules ∧ rule.ruleId ∈ ruleIds := by
  simp [State.reportRules, Table.mem_def]

theorem find?_reportRules {s : State} {ruleIds : List String} {rule : Rule} (hrule : rule ∈ s.rules)
    (hmem : rule.ruleId ∈ ruleIds) :
    (s.reportRules ruleIds).find? (fun r => r.ruleId = rule.ruleId) = some rule := by
  cases hf : (s.reportRules ruleIds).find? fun r => r.ruleId = rule.ruleId with
  | none => simpa using List.find?_eq_none.mp hf rule (mem_reportRules.mpr ⟨hrule, hmem⟩)
  | some other =>
    have hother : other.ruleId = rule.ruleId := by simpa using List.find?_some hf
    have hstored := (mem_reportRules.mp (List.mem_of_find?_eq_some hf)).1
    rw [List.inj_on_of_nodup_map s.ruleIds hstored hrule hother]

theorem entry_of_mem {s : State} {upload : Nat} {entry : RuleReport}
    (h : entry ∈ entries (s.known settings call upload).rules call.reports) :
    entry.rule ∈ s.rules ∧ entry.rule.ruleId ∈ finalRuleIds settings (reportedRuleIds call.reports) ∧
      ∃ report ∈ call.reports, report.item "rule_id" = .ok (.str entry.rule.ruleId) ∧
        report.item "details" = .ok entry.details := by
  obtain ⟨report, hreport, hread⟩ := mem_entries.mp h
  obtain ⟨id, hid, hfind, hdetails⟩ := ruleReport_some.mp hread
  have hmem := mem_reportRules.mp (List.mem_of_find?_eq_some hfind)
  have hruleId : entry.rule.ruleId = id := by simpa using List.find?_some hfind
  exact ⟨hmem.1, hmem.2, report, hreport, by rw [hruleId, hid], hdetails⟩

theorem mem_storedReports {s : State} {stored : StoredReport} :
    stored ∈ s.storedReports call ↔
      ∃ report ∈ s.reports, report.host = call.inventoryId ∧ report.orgId = call.orgId ∧
        s.rules.get? report.rule = some stored.rule ∧ report.impactedDate = stored.impactedDate := by
  simp only [State.storedReports, List.mem_insertionSort, List.mem_filterMap, List.mem_filter, Bool.and_eq_true,
    decide_eq_true_eq, Option.map_eq_some_iff, Table.mem_def]
  constructor
  · rintro ⟨report, ⟨hreport, hhost, horg⟩, rule, hrule, rfl⟩
    exact ⟨report, hreport, hhost, horg, hrule, rfl⟩
  · rintro ⟨report, hreport, hhost, horg, hrule, hdate⟩
    exact ⟨report, ⟨hreport, hhost, horg⟩, stored.rule, hrule, by rw [hdate]⟩

theorem get?_of_stored {s : State} {stored : StoredReport} (h : stored ∈ s.storedReports call) :
    stored.rule ∈ s.rules ∧
      ∃ report, s.reports.get? (call.key stored.rule.id) = some report ∧ report.impactedDate = stored.impactedDate := by
  obtain ⟨report, hreport, hhost, horg, hrule, hdate⟩ := mem_storedReports.mp h
  obtain ⟨hmem, hid⟩ := Table.get?_eq_some.mp hrule
  refine ⟨hmem, report, Table.get?_eq_some.mpr ⟨hreport, ?_⟩, hdate⟩
  rw [CurrentReport.key, hhost, horg, UploadCall.key, hid]

theorem stored_of_get? {s : State} {rule : Rule} (hrule : rule ∈ s.rules) {report : CurrentReport}
    (h : s.reports.get? (call.key rule.id) = some report) : ⟨rule, report.impactedDate⟩ ∈ s.storedReports call := by
  obtain ⟨hreport, hkey⟩ := Table.get?_eq_some.mp h
  simp only [CurrentReport.key, UploadCall.key, Prod.mk.injEq] at hkey
  refine mem_storedReports.mpr ⟨report, hreport, hkey.2.2, hkey.1, ?_, rfl⟩
  rw [hkey.2.1]
  exact Table.get?_eq_some.mpr ⟨hrule, rfl⟩

theorem isStored_iff {s : State} {rule : Rule} (hrule : rule ∈ s.rules) (upload : Nat) :
    (s.known settings call upload).isStored rule = true ↔ (s.reports.get? (call.key rule.id)).isSome := by
  simp only [Known.isStored, State.known, List.contains_iff_mem, List.mem_map, Option.isSome_iff_exists]
  constructor
  · rintro ⟨stored, hstored, hid⟩
    obtain ⟨-, report, hreport, -⟩ := get?_of_stored hstored
    exact ⟨report, by rw [← hid, hreport]⟩
  · rintro ⟨report, hreport⟩
    exact ⟨_, stored_of_get? hrule hreport, rfl⟩

/-- A report goes on from the date of the one that is stored for its rule. -/
theorem impactedDate_eq {s : State} {rule : Rule} (hrule : rule ∈ s.rules) (upload : Nat) :
    (s.known settings call upload).impactedDate call rule =
      ((s.reports.get? (call.key rule.id)).bind (·.impactedDate)).getD call.now := by
  unfold Known.impactedDate
  congr 1
  cases hfind : (s.known settings call upload).stored.find? fun stored => stored.rule.id = rule.id with
  | none =>
    cases hget : s.reports.get? (call.key rule.id) with
    | none => rfl
    | some report =>
      have hnone := List.find?_eq_none.mp hfind _ (stored_of_get? hrule hget)
      simp at hnone
  | some stored =>
    have hid : stored.rule.id = rule.id := by simpa using List.find?_some hfind
    obtain ⟨-, report, hreport, hdate⟩ := get?_of_stored (List.mem_of_find?_eq_some hfind)
    rw [hid] at hreport
    rw [hreport]
    exact hdate.symm

namespace State

variable (s : State) (settings : Settings) (call : UploadCall)

def reported : List RuleReport := entries (s.known settings call 0).rules call.reports

def newEntries : List RuleReport :=
  (s.reported settings call).filter fun entry => !(s.known settings call 0).isStored entry.rule

def existingEntries : List RuleReport :=
  (s.reported settings call).filter fun entry => (s.known settings call 0).isStored entry.rule

def resolvedRuleIds : List String :=
  ((s.storedReports call).map (·.rule.ruleId)).filter fun ruleId =>
    !(finalRuleIds settings (reportedRuleIds call.reports)).contains ruleId

def storeSites : List Site :=
  (if (s.newEntries settings call).isEmpty then [] else [.reportInsert]) ++
    (List.range (s.existingEntries settings call).length).map .reportUpdate ++
      if (s.resolvedRuleIds settings call).isEmpty then [] else [.reportDelete]

/-- The database takes the reports of a call: no two new ones of one rule, and details it can store. -/
structure Stores : Prop where
  distinct : ((s.newEntries settings call).map (·.rule.id)).Nodup
  storable : ∀ entry ∈ s.reported settings call, jsonStorable entry.details = true
  notNull : ∀ entry ∈ s.reported settings call, entry.details = .null →
    ∃ old, s.reports.get? (call.key entry.rule.id) = some old ∧ old.account ≠ call.account

end State

namespace Prepared

variable {s s₁ : State} {plan : Plan}

theorem newReports (h : Prepared settings faults call s plan s₁) :
    plan.collected.newReports = (s.newEntries settings call).map (plan.known.reportObject call) := by
  rw [h.adds.newReports, h.known]
  rfl

theorem existingReports (h : Prepared settings faults call s plan s₁) :
    plan.collected.existingReports = (s.existingEntries settings call).map (plan.known.reportObject call) := by
  rw [h.adds.existingReports, h.known]
  rfl

theorem deleted (h : Prepared settings faults call s plan s₁) : plan.deleted = s.resolvedRuleIds settings call := by
  rw [Plan.deleted, h.known, h.ruleIds]
  rfl

theorem frame (h : Prepared settings faults call s plan s₁) : s₁ = { s with uploads := s₁.uploads } :=
  (updateOrCreateUpload_ok h.upload).2.1

theorem reports (h : Prepared settings faults call s plan s₁) : s₁.reports = s.reports := by rw [h.frame]

end Prepared

theorem mem_reportedRuleIds {reports : List Json} {ruleId : String} :
    ruleId ∈ reportedRuleIds reports ↔ ∃ report ∈ reports, report.item "rule_id" = .ok (.str ruleId) := by
  have htext (value : Json) : text? value = some ruleId ↔ value = .str ruleId := by
    cases value <;> simp [text?]
  simp only [reportedRuleIds, List.mem_filterMap, Option.bind_eq_some_iff, ← Json.item_eq_ok, htext]
  constructor
  · rintro ⟨report, hreport, id, hid, rfl⟩
    exact ⟨report, hreport, hid⟩
  · rintro ⟨report, hreport, hid⟩
    exact ⟨report, hreport, _, hid, rfl⟩

theorem reported_iff {s : State} {rule : Rule}
    (hdetails : ∀ report ∈ call.reports, report.item "rule_id" = .ok (.str rule.ruleId) →
      ∃ details, report.item "details" = .ok details) :
    (∃ entry ∈ s.reported settings call, entry.rule = rule) ↔
      rule ∈ s.rules ∧ rule.ruleId ∈ reportedRuleIds call.reports ∧
        rule.ruleId ∈ finalRuleIds settings (reportedRuleIds call.reports) := by
  constructor
  · rintro ⟨entry, hentry, rfl⟩
    obtain ⟨hrule, hfinal, report, hreport, hid, -⟩ := entry_of_mem hentry
    exact ⟨hrule, mem_reportedRuleIds.mpr ⟨report, hreport, hid⟩, hfinal⟩
  · rintro ⟨hrule, hreported, hfinal⟩
    obtain ⟨report, hreport, hid⟩ := mem_reportedRuleIds.mp hreported
    obtain ⟨details, hread⟩ := hdetails report hreport hid
    have hfind := find?_reportRules hrule hfinal
    exact ⟨⟨rule, details⟩, mem_entries.mpr ⟨report, hreport, ruleReport_some.mpr ⟨_, hid, hfind, hread⟩⟩, rfl⟩

theorem mem_newEntries {s : State} {entry : RuleReport} :
    entry ∈ s.newEntries settings call ↔
      entry ∈ s.reported settings call ∧ s.reports.get? (call.key entry.rule.id) = none := by
  simp only [State.newEntries, List.mem_filter, Bool.not_eq_true']
  refine and_congr_right fun h => ?_
  rw [← Bool.not_eq_true, isStored_iff (entry_of_mem h).1 0, Option.not_isSome_iff_eq_none]

theorem mem_existingEntries {s : State} {entry : RuleReport} :
    entry ∈ s.existingEntries settings call ↔
      entry ∈ s.reported settings call ∧ ∃ old, s.reports.get? (call.key entry.rule.id) = some old := by
  simp only [State.existingEntries, List.mem_filter]
  refine and_congr_right fun h => ?_
  rw [isStored_iff (entry_of_mem h).1 0, Option.isSome_iff_exists]

theorem insertMany?_newReports (known : Known) {s : State} :
    (s.reports.insertMany? ((s.newEntries settings call).map (known.reportObject call))).isSome ↔
      ((s.newEntries settings call).map (·.rule.id)).Nodup := by
  rw [Table.insertMany?_isSome, List.map_map]
  have hkeys : (s.newEntries settings call).map (CurrentReport.key ∘ known.reportObject call) =
      ((s.newEntries settings call).map (·.rule.id)).map call.key := by
    rw [List.map_map]
    rfl
  have hinj : Function.Injective call.key := by
    intro a b hab
    simpa [UploadCall.key] using hab
  rw [hkeys, List.nodup_map_iff hinj]
  refine and_iff_left ?_
  intro row hrow
  obtain ⟨entry, hentry, rfl⟩ := List.mem_map.mp hrow
  exact (mem_newEntries.mp hentry).2

theorem sameReport_iff {known : Known} {entry : RuleReport} {row : CurrentReport} :
    sameReport (known.reportObject call entry) row = true ↔
      row.key = call.key entry.rule.id ∧ row.account = call.account := by
  change (decide (row.rule = entry.rule.id) && decide (row.host = call.inventoryId) &&
    decide (row.account = call.account) && decide (row.orgId = call.orgId)) = true ↔ _
  simp only [CurrentReport.key, UploadCall.key, Bool.and_eq_true, decide_eq_true_eq, Prod.mk.injEq]
  tauto

theorem get?_inserted {known : Known} {s : State} {rows : Table CurrentReport.key}
    (h : s.reports.insertMany? ((s.newEntries settings call).map (known.reportObject call)) = some rows)
    (k : String × Nat × Uuid) :
    rows.get? k = (s.reports.get? k).or
      (((s.newEntries settings call).map (known.reportObject call)).find? fun row => row.key = k) := by
  rw [Table.get?_insertMany? h]
  cases hfind : ((s.newEntries settings call).map (known.reportObject call)).find? fun row => row.key = k with
  | none => simp
  | some row =>
    have hkey : row.key = k := by simpa using List.find?_some hfind
    obtain ⟨entry, hentry, rfl⟩ := List.mem_map.mp (List.mem_of_find?_eq_some hfind)
    have hnone : s.reports.get? k = none := by
      rw [← hkey]
      exact (mem_newEntries.mp hentry).2
    simp [hnone]

theorem writable_iff {known : Known} {s : State} {rows : Table CurrentReport.key}
    (h : s.reports.insertMany? ((s.newEntries settings call).map (known.reportObject call)) = some rows)
    {entry : RuleReport} (hentry : entry ∈ s.existingEntries settings call) :
    Writable rows (known.reportObject call entry) ↔
      jsonStorable entry.details = true ∧ (entry.details = .null →
        ∃ old, s.reports.get? (call.key entry.rule.id) = some old ∧ old.account ≠ call.account) := by
  obtain ⟨-, old, hold⟩ := mem_existingEntries.mp hentry
  have hrow : rows.get? (call.key entry.rule.id) = some old := by rw [get?_inserted h, hold]; rfl
  refine and_congr Iff.rfl (imp_congr_right fun _ => ?_)
  constructor
  · intro hnone
    refine ⟨old, hold, fun haccount => ?_⟩
    obtain ⟨hmem, hkey⟩ := Table.get?_eq_some.mp hrow
    have hsame : sameReport (known.reportObject call entry) old = true := sameReport_iff.mpr ⟨hkey, haccount⟩
    rw [hnone old hmem] at hsame
    cases hsame
  · rintro ⟨old', hold', haccount⟩ row hmem
    obtain rfl := Option.some.inj (hold.symm.trans hold')
    by_contra hne
    obtain ⟨hkey, hacc⟩ := sameReport_iff.mp (by simpa using hne)
    have hget := Table.get?_eq_some.mpr ⟨hmem, hkey⟩
    rw [hrow] at hget
    obtain rfl := Option.some.inj hget
    exact haccount hacc

def resolves (s : State) (settings : Settings) (call : UploadCall) (row : CurrentReport) : Bool :=
  row.host = call.inventoryId && row.orgId = call.orgId &&
    (s.rules.get? row.rule).any fun rule => (s.resolvedRuleIds settings call).contains rule.ruleId

def State.leaves (s : State) (settings : Settings) (call : UploadCall) (known : Known) (k : String × Nat × Uuid) :
    Option CurrentReport :=
  (((s.reports.get? k).or
    (((s.newEntries settings call).map (known.reportObject call)).find? fun row => row.key = k)).map
      (rewritten ((s.existingEntries settings call).map (known.reportObject call)))).filter
        fun row => !resolves s settings call row

theorem bulkCreate_ok {reports : List CurrentReport} {s s' : State} {u : Unit}
    (h : bulkCreate faults reports s = (.ok u, s')) :
    (∀ site ∈ (if reports.isEmpty then [] else [Site.reportInsert]), faults site = none) ∧
      (∀ report ∈ reports, storable report = true) ∧
        ∃ rows, s.reports.insertMany? reports = some rows ∧ s' = { s with reports := rows } := by
  cases reports with
  | nil =>
    obtain ⟨-, rfl⟩ := pure_ok h
    exact ⟨by simp, by simp, s.reports, rfl, rfl⟩
  | cons report rest =>
    obtain ⟨hsite, hinsert⟩ := statement_ok h
    obtain ⟨hstorable, rows, hrows, hs'⟩ := insertReports_ok hinsert
    exact ⟨by simpa using hsite, hstorable, rows, hrows, hs'⟩

theorem get?_deleteReports {ruleIds : List String} {s s' : State} {u : Unit}
    (h : deleteReports call ruleIds s = (.ok u, s')) :
    s' = { s with reports := s'.reports } ∧
      ∀ k, s'.reports.get? k = (s.reports.get? k).filter fun row =>
        !(row.host = call.inventoryId && row.orgId = call.orgId &&
          (s.rules.get? row.rule).any fun rule => ruleIds.contains rule.ruleId) := by
  obtain rfl : _ = s' := congrArg Prod.snd h
  exact ⟨rfl, fun k => Table.get?_deleteWhere _ _ _⟩

theorem deleteResolved_ok {ruleIds : List String} {s s' : State} {u : Unit}
    (h : deleteResolved faults call ruleIds s = (.ok u, s')) :
    (∀ site ∈ (if ruleIds.isEmpty then [] else [Site.reportDelete]), faults site = none) ∧
      s' = { s with reports := s'.reports } ∧
        ∀ k, s'.reports.get? k = (s.reports.get? k).filter fun row =>
          !(row.host = call.inventoryId && row.orgId = call.orgId &&
            (s.rules.get? row.rule).any fun rule => ruleIds.contains rule.ruleId) := by
  cases ruleIds with
  | nil =>
    obtain ⟨-, rfl⟩ := pure_ok h
    refine ⟨by simp, rfl, fun k => ?_⟩
    cases s.reports.get? k with
    | none => rfl
    | some row => cases s.rules.get? row.rule <;> simp [Option.filter]
  | cons ruleId rest =>
    obtain ⟨hsite, hdelete⟩ := statement_ok h
    exact ⟨by simpa using hsite, get?_deleteReports hdelete⟩

theorem store_ok {s s₁ s₂ : State} {plan : Plan} {u : Unit} (hp : Prepared settings faults call s plan s₁)
    (h : store faults call plan s₁ = (.ok u, s₂)) :
    s.Stores settings call ∧ (∀ site ∈ s.storeSites settings call, faults site = none) ∧
      s₂ = { s₁ with reports := s₂.reports } ∧
        ∀ k, s₂.reports.get? k = s.leaves settings call plan.known k := by
  obtain ⟨_, a, hinsert, h⟩ := bind_ok h
  obtain ⟨finsert, hstorable, rows, hrows, rfl⟩ := bulkCreate_ok hinsert
  obtain ⟨_, b, hupdate, h⟩ := bind_ok h
  obtain ⟨fupdate, hwritable, hb, hget⟩ := updateReports_ok hupdate
  obtain ⟨fdelete, hs₂, hfinal⟩ := deleteResolved_ok h
  rw [hp.newReports] at finsert hstorable hrows
  rw [hp.existingReports] at fupdate hwritable hget
  rw [hp.deleted] at fdelete hfinal
  rw [hp.reports] at hrows
  have hrules : b.rules = s.rules := by rw [hb, hp.frame]
  have hall (entry : RuleReport) (hentry : entry ∈ s.reported settings call) :
      jsonStorable entry.details = true ∧ (entry.details = .null →
        ∃ old, s.reports.get? (call.key entry.rule.id) = some old ∧ old.account ≠ call.account) := by
    cases hstored : s.reports.get? (call.key entry.rule.id) with
    | none =>
      have hnew := hstorable _ (List.mem_map.mpr ⟨entry, mem_newEntries.mpr ⟨hentry, hstored⟩, rfl⟩)
      change (decide (entry.details ≠ .null) && jsonStorable entry.details) = true at hnew
      rw [Bool.and_eq_true, decide_eq_true_eq] at hnew
      exact ⟨hnew.2, fun hnull => absurd hnull hnew.1⟩
    | some old =>
      have hexisting := mem_existingEntries.mpr ⟨hentry, old, hstored⟩
      rw [← hstored]
      exact (writable_iff hrows hexisting).mp (hwritable _ (List.mem_map.mpr ⟨entry, hexisting, rfl⟩))
  refine ⟨⟨(insertMany?_newReports plan.known).mp (by rw [hrows]; rfl), fun e he => (hall e he).1,
    fun e he => (hall e he).2⟩, ?_, ?_, ?_⟩
  · intro site hsite
    simp only [State.storeSites, List.mem_append, List.mem_map, List.mem_range] at hsite
    rcases hsite with (hs | ⟨i, hi, rfl⟩) | hs
    · exact finsert site (by simpa using hs)
    · simpa using fupdate i (by simpa using hi)
    · exact fdelete site hs
  · rw [hs₂, hb]
  · intro k
    rw [hfinal, hget, get?_inserted hrows, hrules]
    rfl

theorem store_of_stores {s s₁ : State} {plan : Plan} (hp : Prepared settings faults call s plan s₁)
    (hstores : s.Stores settings call) (hsites : ∀ site ∈ s.storeSites settings call, faults site = none) :
    ∃ s₂, store faults call plan s₁ = (.ok (), s₂) := by
  have hinsertSite (h : s.newEntries settings call ≠ []) : faults .reportInsert = none :=
    hsites _ (by simp [State.storeSites, h])
  have hupdateSite (i : Nat) (h : i < (s.existingEntries settings call).length) : faults (.reportUpdate i) = none :=
    hsites _ (by simp [State.storeSites, h])
  have hdeleteSite (h : s.resolvedRuleIds settings call ≠ []) : faults .reportDelete = none :=
    hsites _ (by simp [State.storeSites, h])
  obtain ⟨rows, hrows⟩ := Option.isSome_iff_exists.mp ((insertMany?_newReports plan.known).mpr hstores.distinct)
  have hstorable : ∀ report ∈ (s.newEntries settings call).map (plan.known.reportObject call),
      storable report = true := by
    intro report hreport
    obtain ⟨entry, hentry, rfl⟩ := List.mem_map.mp hreport
    obtain ⟨hmem, hnone⟩ := mem_newEntries.mp hentry
    have hnotNull : entry.details ≠ .null := by
      intro hnull
      obtain ⟨old, hold, -⟩ := hstores.notNull entry hmem hnull
      rw [hnone] at hold
      cases hold
    change (decide (entry.details ≠ .null) && jsonStorable entry.details) = true
    rw [Bool.and_eq_true, decide_eq_true_eq]
    exact ⟨hnotNull, hstores.storable entry hmem⟩
  have hinsert : bulkCreate faults plan.collected.newReports s₁ = (.ok (), { s₁ with reports := rows }) := by
    rw [hp.newReports, bulkCreate]
    by_cases hnew : s.newEntries settings call = []
    · obtain rfl : s.reports = rows := by
        rw [hnew] at hrows
        exact Option.some.inj hrows
      rw [hnew, ← hp.reports]
      rfl
    · rw [if_neg (by simpa using hnew), statement_of_none (hinsertSite hnew)]
      exact insertReports_of hstorable (by rw [hp.reports, hrows])
  have hwritable : ∀ report ∈ (s.existingEntries settings call).map (plan.known.reportObject call),
      Writable rows report := by
    intro report hreport
    obtain ⟨entry, hentry, rfl⟩ := List.mem_map.mp hreport
    have hmem := (mem_existingEntries.mp hentry).1
    exact (writable_iff hrows hentry).mpr ⟨hstores.storable entry hmem, hstores.notNull entry hmem⟩
  have hupdate : ∃ s₂, updateReports faults plan.collected.existingReports 0 { s₁ with reports := rows } =
      (.ok (), s₂) := by
    rw [hp.existingReports]
    refine updateReports_of ?_ hwritable
    intro i hi
    rw [Nat.zero_add]
    exact hupdateSite i (by simpa using hi)
  obtain ⟨s₂, hs₂⟩ := hupdate
  have hdelete : ∃ s₃, deleteResolved faults call plan.deleted s₂ = (.ok (), s₃) := by
    rw [hp.deleted, deleteResolved]
    by_cases hnone : s.resolvedRuleIds settings call = []
    · rw [hnone]
      exact ⟨s₂, rfl⟩
    · rw [if_neg (by simpa using hnone), statement_of_none (hdeleteSite hnone)]
      exact ⟨_, rfl⟩
  obtain ⟨s₃, hs₃⟩ := hdelete
  exact ⟨s₃, by rw [store, bind_of_ok hinsert, bind_of_ok hs₂, hs₃]⟩

theorem resolves_eq {s : State} {row : CurrentReport} {rid : Nat} (hkey : row.key = call.key rid) :
    resolves s settings call row =
      (s.rules.get? rid).any fun rule => (s.resolvedRuleIds settings call).contains rule.ruleId := by
  simp only [CurrentReport.key, UploadCall.key, Prod.mk.injEq] at hkey
  simp [resolves, hkey.1, hkey.2.1, hkey.2.2]

/-- A stored report goes exactly if the id of its rule is not among the final ones. -/
theorem resolves_stored {s : State} {row : CurrentReport} {rule : Rule} (hrule : rule ∈ s.rules)
    (h : s.reports.get? (call.key rule.id) = some row) :
    resolves s settings call row = true ↔ rule.ruleId ∉ finalRuleIds settings (reportedRuleIds call.reports) := by
  rw [resolves_eq (Table.get?_key h), Table.get?_eq_some.mpr ⟨hrule, rfl⟩, Option.any_some, List.contains_iff_mem,
    State.resolvedRuleIds, List.mem_filter, List.mem_map]
  refine ⟨fun hm => by simpa using hm.2, fun hn => ⟨⟨_, stored_of_get? hrule h, rfl⟩, by simpa using hn⟩⟩

theorem reported_not_resolved {s : State} {entry : RuleReport} (h : entry ∈ s.reported settings call)
    {row : CurrentReport} (hkey : row.key = call.key entry.rule.id) : resolves s settings call row = false := by
  obtain ⟨hrule, hfinal, -⟩ := entry_of_mem h
  rw [resolves_eq hkey, Table.get?_eq_some.mpr ⟨hrule, rfl⟩, Option.any_some, State.resolvedRuleIds]
  simp [hfinal]

theorem rewritten_key (reports : List CurrentReport) (row : CurrentReport) : (rewritten reports row).key = row.key := by
  unfold rewritten
  split
  · exact (rewriteReport _).2 row
  · rfl

theorem rewritten_of_none {reports : List CurrentReport} {row : CurrentReport}
    (h : ∀ report ∈ reports, sameReport report row = false) : rewritten reports row = row := by
  unfold rewritten
  have hnone : reports.reverse.find? (fun report => sameReport report row) = none := by
    simpa [List.find?_eq_none] using h
  rw [hnone]

section Leaves

variable {s : State} (known : Known)

theorem leaves_other {k : String × Nat × Uuid} (hk : ∀ rid, k ≠ call.key rid) :
    s.leaves settings call known k = s.reports.get? k := by
  have hnew : ((s.newEntries settings call).map (known.reportObject call)).find? (fun row => row.key = k) = none := by
    simp only [List.find?_eq_none, List.mem_map, decide_eq_true_eq, forall_exists_index, and_imp,
      forall_apply_eq_imp_iff₂]
    exact fun entry _ hkey => hk entry.rule.id hkey.symm
  rw [State.leaves, hnew, Option.or_none]
  cases hrow : s.reports.get? k with
  | none => rfl
  | some row =>
    have hkey := Table.get?_key hrow
    have hsame : rewritten ((s.existingEntries settings call).map (known.reportObject call)) row = row := by
      refine rewritten_of_none fun report hreport => ?_
      obtain ⟨entry, -, rfl⟩ := List.mem_map.mp hreport
      by_contra hne
      exact hk entry.rule.id (hkey.symm.trans (sameReport_iff.mp (by simpa using hne)).1)
    have hstays : resolves s settings call row = false := by
      by_contra hne
      simp only [resolves, Bool.not_eq_false, Bool.and_eq_true, decide_eq_true_eq] at hne
      exact hk row.rule (by rw [← hkey, CurrentReport.key, hne.1.1, hne.1.2]; rfl)
    simp [hsame, hstays, Option.filter]

theorem leaves_unreported {rid : Nat} (h : ∀ entry ∈ s.reported settings call, entry.rule.id ≠ rid) :
    s.leaves settings call known (call.key rid) =
      (s.reports.get? (call.key rid)).filter fun row => !resolves s settings call row := by
  have hinj {a b : Nat} (hab : call.key a = call.key b) : a = b := by simpa [UploadCall.key] using hab
  have hnew : ((s.newEntries settings call).map (known.reportObject call)).find?
      (fun row => row.key = call.key rid) = none := by
    simp only [List.find?_eq_none, List.mem_map, decide_eq_true_eq, forall_exists_index, and_imp,
      forall_apply_eq_imp_iff₂]
    exact fun entry hentry hkey => h entry (mem_newEntries.mp hentry).1 (hinj hkey)
  rw [State.leaves, hnew, Option.or_none]
  cases hrow : s.reports.get? (call.key rid) with
  | none => rfl
  | some row =>
    have hsame : rewritten ((s.existingEntries settings call).map (known.reportObject call)) row = row := by
      refine rewritten_of_none fun report hreport => ?_
      obtain ⟨entry, hentry, rfl⟩ := List.mem_map.mp hreport
      by_contra hne
      have hkey := (sameReport_iff.mp (by simpa using hne)).1
      exact h entry (mem_existingEntries.mp hentry).1 (hinj (hkey.symm.trans (Table.get?_key hrow)))
    simp [hsame]

theorem leaves_new {entry : RuleReport} (hentry : entry ∈ s.newEntries settings call)
    (hdistinct : ((s.newEntries settings call).map (·.rule.id)).Nodup) :
    s.leaves settings call known (call.key entry.rule.id) = some (known.reportObject call entry) := by
  obtain ⟨hmem, hnone⟩ := mem_newEntries.mp hentry
  have hfind : ((s.newEntries settings call).map (known.reportObject call)).find?
      (fun row => row.key = call.key entry.rule.id) = some (known.reportObject call entry) := by
    cases hf : ((s.newEntries settings call).map (known.reportObject call)).find?
        fun row => row.key = call.key entry.rule.id with
    | none =>
      have hno := List.find?_eq_none.mp hf _ (List.mem_map.mpr ⟨entry, hentry, rfl⟩)
      have hkey : (known.reportObject call entry).key = call.key entry.rule.id := rfl
      simp [hkey] at hno
    | some row =>
      have hkey : row.key = call.key entry.rule.id := by simpa using List.find?_some hf
      obtain ⟨other, hother, rfl⟩ := List.mem_map.mp (List.mem_of_find?_eq_some hf)
      have hid : other.rule.id = entry.rule.id := by
        have h : call.key other.rule.id = call.key entry.rule.id := hkey
        simpa [UploadCall.key] using h
      rw [List.inj_on_of_nodup_map hdistinct hother hentry hid]
  have hsame : rewritten ((s.existingEntries settings call).map (known.reportObject call))
      (known.reportObject call entry) = known.reportObject call entry := by
    refine rewritten_of_none fun report hreport => ?_
    obtain ⟨other, hother, rfl⟩ := List.mem_map.mp hreport
    by_contra hne
    have hmatch : sameReport (known.reportObject call other) (known.reportObject call entry) = true := by
      simpa using hne
    have hkey : call.key entry.rule.id = call.key other.rule.id := (sameReport_iff.mp hmatch).1
    obtain ⟨-, old, hold⟩ := mem_existingEntries.mp hother
    rw [← hkey, hnone] at hold
    cases hold
  have hstays : resolves s settings call (known.reportObject call entry) = false := reported_not_resolved hmem rfl
  rw [State.leaves, hnone, Option.none_or, hfind, Option.map_some, hsame]
  simp [hstays, Option.filter]

/-- A stored report of a rule that is reported is rewritten by the last entry of the rule, unless it has another
account: then it stays as it is. -/
theorem leaves_existing {entry : RuleReport} (hentry : entry ∈ s.reported settings call) {old : CurrentReport}
    (hold : s.reports.get? (call.key entry.rule.id) = some old) :
    (old.account = call.account ∧ ∃ last ∈ s.reported settings call, last.rule.id = entry.rule.id ∧
        s.leaves settings call known (call.key entry.rule.id) =
          some ((rewriteReport (known.reportObject call last)).1 old)) ∨
      (old.account ≠ call.account ∧ s.leaves settings call known (call.key entry.rule.id) = some old) := by
  have hkey := Table.get?_key hold
  have hleaves (row : CurrentReport)
      (hrow : rewritten ((s.existingEntries settings call).map (known.reportObject call)) old = row) :
      s.leaves settings call known (call.key entry.rule.id) = some row := by
    have hstays : resolves s settings call row = false := by
      refine reported_not_resolved hentry ?_
      rw [← hrow, rewritten_key, hkey]
    rw [State.leaves, hold, Option.some_or, Option.map_some, hrow]
    simp [hstays, Option.filter]
  by_cases haccount : old.account = call.account
  · refine Or.inl ⟨haccount, ?_⟩
    have hthere : ∃ last, (((s.existingEntries settings call).map (known.reportObject call)).reverse.find?
        fun report => sameReport report old) = some last := by
      rw [← Option.isSome_iff_exists, List.find?_isSome]
      exact ⟨known.reportObject call entry,
        List.mem_reverse.mpr (List.mem_map.mpr ⟨entry, mem_existingEntries.mpr ⟨hentry, old, hold⟩, rfl⟩),
        sameReport_iff.mpr ⟨hkey, haccount⟩⟩
    obtain ⟨report, hreport⟩ := hthere
    obtain ⟨last, hlast, rfl⟩ :=
      List.mem_map.mp (List.mem_reverse.mp (List.mem_of_find?_eq_some hreport))
    have hmatch : sameReport (known.reportObject call last) old = true := by simpa using List.find?_some hreport
    have hsame := (sameReport_iff.mp hmatch).1
    refine ⟨last, (mem_existingEntries.mp hlast).1, ?_, hleaves _ ?_⟩
    · have h : call.key last.rule.id = call.key entry.rule.id := hsame.symm.trans hkey
      simpa [UploadCall.key] using h
    · rw [rewritten, hreport]
  · refine Or.inr ⟨haccount, hleaves old (rewritten_of_none fun report hreport => ?_)⟩
    obtain ⟨other, -, rfl⟩ := List.mem_map.mp hreport
    by_contra hne
    exact haccount (sameReport_iff.mp (by simpa using hne)).2

end Leaves

end Advisor.Service
