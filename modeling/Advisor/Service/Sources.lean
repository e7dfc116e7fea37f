import Advisor.Service.Call

/-! When an upload leaves the reports of other sources alone. Uploads are kept by source, but reports are
found, updated and deleted by host and organisation. -/

namespace Advisor.Service

open Python Procedure Django Relational

variable {settings : Settings} {call : UploadCall} {s : State}

def State.Foreign (s : State) (call : UploadCall) (report : CurrentReport) : Prop :=
  ∃ upload, s.uploads.get? report.upload = some upload ∧ upload.source ≠ call.source

def announcesResolved (messages : List Message) (ruleId : String) : Prop :=
  ∃ message, .webhook message ∈ messages ∧ message.eventType = "resolved-recommendation" ∧
    ∃ event ∈ message.events, event.ruleId = ruleId

/-- A call leaves the reports of other sources as they were, and does not announce them as resolved. -/
structure SourcesApart (settings : Settings) (call : UploadCall) (s : State) : Prop where
  left : ∀ report ∈ s.reports, s.Foreign call report → report ∈ (createDbReports settings noFaults call s).2.reports
  unannounced : ∀ report ∈ s.reports, s.Foreign call report → report.host = call.inventoryId →
    report.orgId = call.orgId → ∀ rule, s.rules.get? report.rule = some rule →
      ¬ announcesResolved ((createDbReports settings noFaults call s).2.sent.drop s.sent.length) rule.ruleId

/-- The hooks of a call find a rule resolved, and nothing stops them before they say so. -/
def State.resolvesAloud (s : State) (settings : Settings) (call : UploadCall) (rule : Rule) : Prop :=
  settings.webhooksTopic = true ∧ ∃ host, s.inventory.get? (call.orgId, call.inventoryId) = some host ∧
    let reportList := (s.reported settings call).map (·.rule)
    published (newReportList (s.ackedRules host) reportList (s.storedReports call)) = true ∧
      published (resolvedReportList (s.ackedRules host) reportList (s.storedReports call)) = true ∧
        rule ∈ resolvedReportList (s.ackedRules host) reportList (s.storedReports call)

/-- What keeps a call from touching a report of its host. -/
structure Spared (settings : Settings) (call : UploadCall) (s : State) (report : CurrentReport) (rule : Rule) :
    Prop where
  kept : rule.ruleId ∈ finalRuleIds settings (reportedRuleIds call.reports)
  unwritten : ∀ entry ∈ s.reported settings call, entry.rule.id = rule.id → report.account ≠ call.account
  silent : ¬ (s.withHost call).resolvesAloud settings call rule

theorem upload_other {s' : State} {id : Nat} (h : updateOrCreateUpload call s = (.ok id, s')) {report : CurrentReport}
    (hforeign : s.Foreign call report) : report.upload ≠ id := by
  rintro rfl
  obtain ⟨upload, hupload, hsource⟩ := hforeign
  obtain ⟨hmem, hid⟩ := Table.get?_eq_some.mp hupload
  rcases updateOrCreateUpload_cases h with ⟨own, hown, hsame, -⟩ | ⟨-, -, hnext, -⟩
  · obtain ⟨howned, how⟩ := List.mem_filter.mp (by rw [hown]; simp : own ∈ s.uploads.rows.filter call.ownUpload)
    obtain rfl := s.uploads.key_injOn howned hmem (hsame.trans hid.symm)
    simp only [UploadCall.ownUpload, Bool.and_eq_true, decide_eq_true_eq] at how
    exact hsource how.2
  · have hlt := lt_nextUploadId hmem
    omega

theorem mem_hookMessages_resolved (host : AdvisorInventoryHost) {acked : List Nat} {reportList : List Rule}
    {dbReports : List StoredReport} {message : WebhookMessage} :
    (.webhook message ∈ hookMessages settings noFaults host acked reportList dbReports ∧
        message.eventType = "resolved-recommendation") ↔
      settings.webhooksTopic = true ∧ published (newReportList acked reportList dbReports) = true ∧
        published (resolvedReportList acked reportList dbReports) = true ∧
          resolvedReportList acked reportList dbReports ≠ [] ∧
            message = newWebhookMessage host "resolved-recommendation" ((resolvedReportList acked reportList dbReports).filterMap
              fun rule => (makeEventStruct settings rule).toOption) := by
  have hevents (site : Site) (eventType : String) (rules : List Rule) :
      .webhook message ∈ eventMessages settings noFaults site host eventType rules ↔
        settings.webhooksTopic = true ∧ rules ≠ [] ∧ message = newWebhookMessage host eventType
          (rules.filterMap fun rule => (makeEventStruct settings rule).toOption) := by
    cases hw : settings.webhooksTopic <;> cases rules <;> simp [eventMessages, noFaults, hw]
  unfold hookMessages
  dsimp only
  cases hnew : published (newReportList acked reportList dbReports) with
  | false => simp
  | true =>
    cases hresolved : published (resolvedReportList acked reportList dbReports) with
    | false =>
      simp only [Bool.not_true, Bool.false_eq_true, if_false, Bool.not_false, if_true, List.append_nil, hevents,
        false_and, and_false, iff_false]
      rintro ⟨⟨-, -, rfl⟩, htype⟩
      exact absurd htype (by simp [newWebhookMessage])
    | true =>
      simp only [Bool.not_true, Bool.false_eq_true, if_false, List.mem_append, hevents, true_and]
      constructor
      · rintro ⟨⟨-, -, rfl⟩ | ⟨h⟩ | h, htype⟩
        · exact absurd htype (by simp [newWebhookMessage])
        · exact h
        · split_ifs at h <;> simp at h
      · rintro ⟨hw, hne, rfl⟩
        exact ⟨Or.inr (Or.inl ⟨hw, hne, rfl⟩), rfl⟩

theorem announcesResolved_iff {stored : State} {rule : Rule} (hrule : rule ∈ s.rules)
    (hinventory : stored.inventory = s.inventory) (hacks : stored.acks = s.acks)
    (hhostAcks : stored.hostAcks = s.hostAcks) (collected : Collected) :
    announcesResolved (stored.hookMessages settings noFaults call
        (if settings.webhooksTopic || settings.remediationsHookTopic then (s.reported settings call).map (·.rule) else [])
        (s.storedReports call) ++ viewMessages settings noFaults call collected) rule.ruleId ↔
      s.resolvesAloud settings call rule := by
  have hview (message : WebhookMessage) : .webhook message ∉ viewMessages settings noFaults call collected := by
    unfold viewMessages
    split_ifs <;> simp
  have hacked (host : AdvisorInventoryHost) : stored.ackedRules host = s.ackedRules host := by
    rw [State.ackedRules, State.ackedRules, hacks, hhostAcks]
  simp only [announcesResolved, List.mem_append, hview, or_false, State.hookMessages, hinventory]
  constructor
  · rintro ⟨message, hmessage, htype, event, hevent, hid⟩
    split_ifs at hmessage with htopics
    · cases hhost : s.inventory.get? (call.orgId, call.inventoryId) with
      | none => simp [hhost, noFaults] at hmessage
      | some host =>
        simp only [hhost, noFaults, hacked] at hmessage
        obtain ⟨hw, hnew, hresolved, -, rfl⟩ := (mem_hookMessages_resolved host).mp ⟨hmessage, htype⟩
        refine ⟨hw, host, hhost, hnew, hresolved, ?_⟩
        obtain ⟨other, hother, hstruct⟩ := List.mem_filterMap.mp hevent
        obtain ⟨report, hreport, hsame⟩ := List.mem_map.mp (List.mem_filter.mp hother).1
        have hmem : other ∈ s.rules := by
          rw [← hsame]
          exact (get?_of_stored hreport).1
        rwa [← List.inj_on_of_nodup_map s.ruleIds hmem hrule ((ruleId_of_event hstruct).symm.trans hid)]
    · cases hmessage
  · rintro ⟨hw, host, hhost, hnew, hresolved, hmem⟩
    have htopics : (settings.webhooksTopic || settings.remediationsHookTopic) = true := by rw [hw]; rfl
    obtain ⟨event, hevent⟩ := event_of_published settings (List.all_eq_true.mp hresolved rule hmem)
    have hne := List.ne_nil_of_mem hmem
    obtain ⟨hin, htype⟩ := (mem_hookMessages_resolved host).mpr ⟨hw, hnew, hresolved, hne, rfl⟩
    refine ⟨_, ?_, htype, event, List.mem_filterMap.mpr ⟨rule, hmem, hevent⟩, ruleId_of_event hevent⟩
    rw [if_pos htopics, if_pos htopics, hhost]
    simp only [noFaults, hacked]
    exact hin

/-- A report of another source stays exactly if its rule is among the final ones and no entry writes over it. -/
theorem left_iff {s' : State} {known : Known} (h : Stored settings call s s' known) {report : CurrentReport}
    (hreport : report ∈ s.reports) (hforeign : s.Foreign call report) {rule : Rule} (hrule : rule ∈ s.rules)
    (hkey : report.key = call.key rule.id) :
    report ∈ s'.reports ↔ rule.ruleId ∈ finalRuleIds settings (reportedRuleIds call.reports) ∧
      ∀ entry ∈ s.reported settings call, entry.rule.id = rule.id → report.account ≠ call.account := by
  have hget : s.reports.get? (call.key rule.id) = some report := Table.get?_eq_some.mpr ⟨hreport, hkey⟩
  have hmem : report ∈ s'.reports ↔ s.leaves settings call known (call.key rule.id) = some report := by
    rw [Table.mem_iff_get?, hkey, h.reports]
  rw [hmem]
  by_cases hreported : ∃ entry ∈ s.reported settings call, entry.rule.id = rule.id
  · obtain ⟨entry, hentry, hid⟩ := hreported
    have hfinal : rule.ruleId ∈ finalRuleIds settings (reportedRuleIds call.reports) := by
      obtain ⟨hmem, hfinal, -⟩ := entry_of_mem hentry
      rwa [← s.rules.key_injOn hmem hrule hid]
    rcases leaves_existing known hentry (hid ▸ hget) with ⟨haccount, last, -, -, hleaves⟩ | ⟨haccount, hleaves⟩
    · rw [hid] at hleaves
      rw [hleaves]
      refine iff_of_false ?_ fun hn => hn.2 entry hentry hid haccount
      intro hsame
      obtain ⟨s₁, hupload, -⟩ := h.upload
      have hother : (s.withHost call).Foreign call report := by
        obtain ⟨upload, hu, hsource⟩ := hforeign
        exact ⟨upload, by rw [withHost_uploads, hu], hsource⟩
      have hnew : known.upload = report.upload := congrArg CurrentReport.upload (Option.some.inj hsame)
      exact upload_other hupload hother hnew.symm
    · rw [hid] at hleaves
      exact iff_of_true hleaves ⟨hfinal, fun _ _ _ => haccount⟩
  · rw [leaves_unreported known fun entry he hid => hreported ⟨entry, he, hid⟩, hget, Option.filter_eq_some_iff]
    have hkept : resolves s settings call report = true ↔ _ := resolves_stored hrule hget
    constructor
    · rintro ⟨-, hstays⟩
      refine ⟨?_, fun entry he hid => absurd ⟨entry, he, hid⟩ hreported⟩
      by_contra hnot
      rw [hkept.mpr hnot] at hstays
      cases hstays
    · rintro ⟨hfinal, -⟩
      refine ⟨rfl, ?_⟩
      rw [Bool.not_eq_true', ← Bool.not_eq_true]
      exact fun hres => hkept.mp hres hfinal

/-- A call leaves the reports of other sources alone exactly if it fails, or spares each of those of its host. -/
theorem sourcesApart_iff (settings : Settings) (call : UploadCall) (s : State) :
    SourcesApart settings call s ↔
      (s.Takes settings call → ∀ report ∈ s.reports, s.Foreign call report → report.host = call.inventoryId →
        report.orgId = call.orgId → ∀ rule, s.rules.get? report.rule = some rule →
          Spared settings call s report rule) := by
  rcases createDbReports_noFaults s settings call with ⟨htakes, s', known, heq, hstored⟩ | ⟨hnot, heq⟩
  · obtain ⟨collected, hsent⟩ := hstored.sent
    have hmessages : s'.sent.drop s.sent.length = s'.hookMessages settings noFaults call
        (if settings.webhooksTopic || settings.remediationsHookTopic then (s.reported settings call).map (·.rule)
          else []) (s.storedReports call) ++ viewMessages settings noFaults call collected := by
      rw [hsent, List.drop_left]
    have hloud {rule : Rule} (hrule : rule ∈ s.rules) :
        announcesResolved (s'.sent.drop s.sent.length) rule.ruleId ↔
          (s.withHost call).resolvesAloud settings call rule := by
      rw [hmessages, ← withHost_reported, ← withHost_storedReports]
      refine announcesResolved_iff ?_ ?_ ?_ ?_ collected
      · rwa [withHost_rules]
      · rw [hstored.frame]
      · rw [hstored.frame]
      · rw [hstored.frame]
    constructor
    · intro h _ report hreport hforeign hhost horg rule hrule
      obtain ⟨hmem, hid⟩ := Table.get?_eq_some.mp hrule
      have hkey : report.key = call.key rule.id := by rw [CurrentReport.key, hhost, horg, UploadCall.key, hid]
      have hleft := h.left report hreport hforeign
      have hquiet := h.unannounced report hreport hforeign hhost horg rule hrule
      rw [heq] at hleft hquiet
      obtain ⟨hkept, hunwritten⟩ := (left_iff hstored hreport hforeign hmem hkey).mp hleft
      exact ⟨hkept, hunwritten, fun hloudly => hquiet ((hloud hmem).mpr hloudly)⟩
    · intro h
      refine ⟨?_, ?_⟩
      · intro report hreport hforeign
        rw [heq]
        by_cases hown : report.host = call.inventoryId ∧ report.orgId = call.orgId
        · have hkey : report.key = call.key report.rule := by rw [CurrentReport.key, hown.1, hown.2, UploadCall.key]
          cases hrule : s.rules.get? report.rule with
          | some rule =>
            have hspared := h htakes report hreport hforeign hown.1 hown.2 rule hrule
            obtain ⟨hmem, hid⟩ := Table.get?_eq_some.mp hrule
            exact (left_iff hstored hreport hforeign hmem (hid ▸ hkey)).mpr ⟨hspared.kept, hspared.unwritten⟩
          | none =>
            rw [Table.mem_iff_get?, hstored.reports, hkey, leaves_unreported, ← hkey, Table.mem_iff_get?.mp hreport,
              Option.filter_some, resolves_eq hkey, hrule]
            · rfl
            · intro entry hentry hid
              have hget := Table.get?_eq_some.mpr ⟨(entry_of_mem hentry).1, hid⟩
              rw [hrule] at hget
              cases hget
        · rw [Table.mem_iff_get?, hstored.reports, leaves_other, ← Table.mem_iff_get?]
          · exact hreport
          · rintro rid hkey
            simp only [CurrentReport.key, UploadCall.key, Prod.mk.injEq] at hkey
            exact hown ⟨hkey.2.2, hkey.1⟩
      · intro report hreport hforeign hhost horg rule hrule
        rw [heq]
        have hspared := h htakes report hreport hforeign hhost horg rule hrule
        exact fun hannounced => hspared.silent ((hloud (Table.get?_eq_some.mp hrule).1).mp hannounced)
  · refine iff_of_true ⟨?_, ?_⟩ fun htakes => absurd htakes hnot
    · intro report hreport _
      rw [heq]
      simpa using hreport
    · intro report _ _ _ _ rule _
      rw [heq]
      simp [announcesResolved]

def State.reportedByClient : State :=
  { State.ready with
    uploads := .single { id := 1, host := 7, account := none, orgId := "1234", systemType := 1, source := "insights-client", checkedOn := 0 }
    reports := .single ⟨none, "1234", 1, 7, 1, .dict [], some 0⟩ }

/-- An upload of another source without reports deletes the report of the client. -/
theorem sourcesApart_otherSource :
    ¬ SourcesApart notifying { clientUpload [] with source := "aiops" } State.reportedByClient := by
  intro h
  have hleft := h.left ⟨none, "1234", 1, 7, 1, .dict [], some 0⟩ (Table.mem_single.mpr rfl) ⟨_, rfl, by decide⟩
  have hgone : (createDbReports notifying noFaults { clientUpload [] with source := "aiops" }
      State.reportedByClient).2.reports.rows = [] := by decide +kernel
  rw [Table.mem_def, hgone] at hleft
  cases hleft

end Advisor.Service
