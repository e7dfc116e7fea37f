import Advisor.Service.Call

/-! Which rows of other organisations the messages about an upload depend on. -/

namespace Advisor.Service

open Python Procedure Django Relational

variable {settings : Settings} {call : UploadCall} {s s' : State}

/-- Two states have the same rules and the same rows of an organisation. -/
structure Agree (orgId : String) (s s' : State) : Prop where
  rules : s.rules.Same s'.rules
  inventory : ∀ row, row.orgId = orgId → (row ∈ s.inventory ↔ row ∈ s'.inventory)
  hosts : ∀ row, row.orgId = orgId → (row ∈ s.hosts ↔ row ∈ s'.hosts)
  uploads : ∀ row, row.orgId = orgId → (row ∈ s.uploads ↔ row ∈ s'.uploads)
  reports : ∀ row, row.orgId = orgId → (row ∈ s.reports ↔ row ∈ s'.reports)
  acks : ∀ row, row.orgId = orgId → (row ∈ s.acks ↔ row ∈ s'.acks)
  hostAcks : ∀ row, row.orgId = orgId → (row ∈ s.hostAcks ↔ row ∈ s'.hostAcks)

def State.emits (s : State) (settings : Settings) (call : UploadCall) : List Message :=
  match s.inventory.get? (call.orgId, call.inventoryId) with
  | some host =>
    (triggerReportHooks settings noFaults host ((s.reported settings call).map (·.rule)) (s.storedReports call)
      { s with sent := [] }).2.sent
  | none => []

theorem find?_ruleId (h : s.rules.Same s'.rules) (ruleIds : List String) (id : String) :
    (s.reportRules ruleIds).find? (fun rule => rule.ruleId = id) =
      (s'.reportRules ruleIds).find? (fun rule => rule.ruleId = id) := by
  have hone {s s' : State} (h : s.rules.Same s'.rules) {rule : Rule}
      (hfind : (s.reportRules ruleIds).find? (fun rule => rule.ruleId = id) = some rule) :
      (s'.reportRules ruleIds).find? (fun rule => rule.ruleId = id) = some rule := by
    obtain ⟨hmem, hids⟩ := mem_reportRules.mp (List.mem_of_find?_eq_some hfind)
    have hid : rule.ruleId = id := by simpa using List.find?_some hfind
    rw [← hid]
    exact find?_reportRules ((h rule).mp hmem) hids
  cases hf : (s.reportRules ruleIds).find? (fun rule => rule.ruleId = id) with
  | some rule => exact (hone h hf).symm
  | none =>
    cases hf' : (s'.reportRules ruleIds).find? (fun rule => rule.ruleId = id) with
    | none => rfl
    | some rule =>
      rw [hone h.symm hf'] at hf
      cases hf

theorem reported_agree (h : s.rules.Same s'.rules) : s.reported settings call = s'.reported settings call := by
  have hread : ruleReport? (s.known settings call 0).rules = ruleReport? (s'.known settings call 0).rules := by
    funext report
    simp only [ruleReport?, ruleReport, State.known, find?_ruleId h]
  rw [State.reported, State.reported, entries, entries, hread]

theorem storedReports_ids (s : State) (call : UploadCall) :
    (s.storedReports call).Pairwise fun a b => a.rule.id ≠ b.rule.id := by
  refine ((List.perm_insertionSort _ _).pairwise_iff fun h => h.symm).mpr ?_
  rw [List.pairwise_filterMap]
  have hkeys : s.reports.rows.Pairwise fun a b => a.key ≠ b.key := List.pairwise_map.mp s.reports.unique
  refine (hkeys.filter _).imp_of_mem fun {a b} ha hb hne => ?_
  rintro x hx y hy
  simp only [List.mem_filter, Bool.and_eq_true, decide_eq_true_eq] at ha hb
  obtain ⟨rule, hrule, rfl⟩ := Option.map_eq_some_iff.mp hx
  obtain ⟨rule', hrule', rfl⟩ := Option.map_eq_some_iff.mp hy
  intro hid
  refine hne ?_
  have hids : a.rule = b.rule := (Table.get?_key hrule).symm.trans (hid.trans (Table.get?_key hrule'))
  rw [CurrentReport.key, CurrentReport.key, hids, ha.2.1, ha.2.2, hb.2.1, hb.2.2]

theorem storedReports_agree (h : Agree call.orgId s s') : s.storedReports call = s'.storedReports call := by
  have hmem (stored : StoredReport) : stored ∈ s.storedReports call ↔ stored ∈ s'.storedReports call := by
    rw [mem_storedReports, mem_storedReports]
    have hrules : s.rules.get? = s'.rules.get? := funext (Table.same_iff_get?.mp h.rules)
    rw [hrules]
    constructor
    · rintro ⟨report, hreport, hhost, horg, hrest⟩
      exact ⟨report, (h.reports report horg).mp hreport, hhost, horg, hrest⟩
    · rintro ⟨report, hreport, hhost, horg, hrest⟩
      exact ⟨report, (h.reports report horg).mpr hreport, hhost, horg, hrest⟩
  have hnodup (s : State) : (s.storedReports call).Nodup :=
    (storedReports_ids s call).imp fun hne heq => hne (by rw [heq])
  have hperm : (s.storedReports call).Perm (s'.storedReports call) :=
    (List.perm_ext_iff_of_nodup (hnodup s) (hnodup s')).mpr hmem
  let le (a b : StoredReport) : Prop := a.rule.ruleId ≤ b.rule.ruleId
  have : Std.Total le := ⟨fun a b => String.le_total a.rule.ruleId b.rule.ruleId⟩
  have : IsTrans StoredReport le := ⟨fun a b c hab hbc => String.le_trans hab hbc⟩
  have hsorted (s : State) : (s.storedReports call).Pairwise le := List.pairwise_insertionSort le _
  refine hperm.eq_of_pairwise ?_ (hsorted s) (hsorted s')
  intro a b ha hb hab hba
  obtain ⟨harule, report, hreport, hdate⟩ := get?_of_stored ha
  obtain ⟨hbrule, other, hother, hdate'⟩ := get?_of_stored ((hmem b).mpr hb)
  have hrule : a.rule = b.rule := List.inj_on_of_nodup_map s.ruleIds harule hbrule (String.le_antisymm hab hba)
  rw [hrule, hother] at hreport
  obtain rfl := Option.some.inj hreport
  rcases a with ⟨rule, date⟩
  rcases b with ⟨rule', date'⟩
  simp only at hrule hdate hdate'
  rw [hrule, ← hdate, hdate']

def State.acksOf (s : State) (host : AdvisorInventoryHost) (orgs : String → Bool) : List Nat :=
  (s.acks.rows.filter fun ack => ack.account = host.account && orgs ack.orgId).map (·.rule) ++
    (s.hostAcks.rows.filter fun ack => ack.account = host.account && ack.host = host.inventoryId &&
      orgs ack.orgId).map (·.rule)

def State.ownAcks (s : State) (host : AdvisorInventoryHost) : List Nat := s.acksOf host fun orgId => orgId = host.orgId

def State.foreignAcks (s : State) (host : AdvisorInventoryHost) : List Nat :=
  s.acksOf host fun orgId => orgId ≠ host.orgId

theorem mem_acksOf {host : AdvisorInventoryHost} {orgs : String → Bool} {rule : Nat} :
    rule ∈ s.acksOf host orgs ↔
      (∃ ack ∈ s.acks, ack.account = host.account ∧ orgs ack.orgId = true ∧ ack.rule = rule) ∨
        ∃ ack ∈ s.hostAcks, ack.account = host.account ∧ ack.host = host.inventoryId ∧ orgs ack.orgId = true ∧
          ack.rule = rule := by
  simp only [State.acksOf, List.mem_append, List.mem_map, List.mem_filter, Bool.and_eq_true, decide_eq_true_eq,
    and_assoc, Table.mem_def]

theorem mem_ackedRules {host : AdvisorInventoryHost} {rule : Nat} :
    rule ∈ s.ackedRules host ↔ rule ∈ s.ownAcks host ++ s.foreignAcks host := by
  have hall : rule ∈ s.ackedRules host ↔ rule ∈ s.acksOf host fun _ => true := by
    simp only [State.ackedRules, State.acksOf, Bool.and_true]
  rw [hall, List.mem_append, State.ownAcks, State.foreignAcks]
  simp only [mem_acksOf, decide_eq_true_eq, true_and]
  constructor
  · rintro (⟨ack, hack, hacc, hr⟩ | ⟨ack, hack, hacc, hhost, hr⟩)
    · by_cases horg : ack.orgId = host.orgId
      · exact Or.inl (Or.inl ⟨ack, hack, hacc, horg, hr⟩)
      · exact Or.inr (Or.inl ⟨ack, hack, hacc, horg, hr⟩)
    · by_cases horg : ack.orgId = host.orgId
      · exact Or.inl (Or.inr ⟨ack, hack, hacc, hhost, horg, hr⟩)
      · exact Or.inr (Or.inr ⟨ack, hack, hacc, hhost, horg, hr⟩)
  · rintro ((⟨ack, hack, hacc, -, hr⟩ | ⟨ack, hack, hacc, hhost, -, hr⟩) |
      (⟨ack, hack, hacc, -, hr⟩ | ⟨ack, hack, hacc, hhost, -, hr⟩))
    · exact Or.inl ⟨ack, hack, hacc, hr⟩
    · exact Or.inr ⟨ack, hack, hacc, hhost, hr⟩
    · exact Or.inl ⟨ack, hack, hacc, hr⟩
    · exact Or.inr ⟨ack, hack, hacc, hhost, hr⟩

theorem mem_ownAcks_agree {host : AdvisorInventoryHost} (h : Agree host.orgId s s') (rule : Nat) :
    rule ∈ s.ownAcks host ↔ rule ∈ s'.ownAcks host := by
  have hone {s s' : State} (hacks : ∀ row, row.orgId = host.orgId → (row ∈ s.acks ↔ row ∈ s'.acks))
      (hhostAcks : ∀ row, row.orgId = host.orgId → (row ∈ s.hostAcks ↔ row ∈ s'.hostAcks))
      (hr : rule ∈ s.ownAcks host) : rule ∈ s'.ownAcks host := by
    rw [State.ownAcks, mem_acksOf] at hr ⊢
    simp only [decide_eq_true_eq] at hr ⊢
    rcases hr with ⟨ack, hack, hacc, horg, hr⟩ | ⟨ack, hack, hacc, hhost, horg, hr⟩
    · exact Or.inl ⟨ack, (hacks ack horg).mp hack, hacc, horg, hr⟩
    · exact Or.inr ⟨ack, (hhostAcks ack horg).mp hack, hacc, hhost, horg, hr⟩
  exact ⟨hone h.acks h.hostAcks, hone (fun row hr => (h.acks row hr).symm) fun row hr => (h.hostAcks row hr).symm⟩

/-- The lists of rules that the hooks announce under some acks: none after one with a rule without a publish
date. -/
structure News where
  new : List Rule
  resolved : List Rule
  remediations : Bool
  deriving DecidableEq

def news (settings : Settings) (acked : List Nat) (reportList : List Rule) (dbReports : List StoredReport) : News :=
  let new := newReportList acked reportList dbReports
  let resolved := resolvedReportList acked reportList dbReports
  { new := if settings.webhooksTopic && published new then new else []
    resolved := if settings.webhooksTopic && published new && published resolved then resolved else []
    remediations := settings.remediationsHookTopic && !reportList.isEmpty && published new && published resolved }

def eventsMessage (settings : Settings) (host : AdvisorInventoryHost) (eventType : String) (rules : List Rule) :
    List Message :=
  if rules.isEmpty then []
  else [.webhook (newWebhookMessage host eventType
    (rules.filterMap fun rule => (makeEventStruct settings rule).toOption))]

def remediationsMessage (host : AdvisorInventoryHost) (reportList : List Rule) (sends : Bool) : List Message :=
  if sends then [.remediations host.inventoryId (reportList.map fun rule => "advisor:" ++ rule.ruleId)] else []

theorem hookMessages_news (host : AdvisorInventoryHost) (acked : List Nat) (reportList : List Rule)
    (dbReports : List StoredReport) :
    hookMessages settings noFaults host acked reportList dbReports =
      eventsMessage settings host "new-recommendation" (news settings acked reportList dbReports).new ++
        (eventsMessage settings host "resolved-recommendation" (news settings acked reportList dbReports).resolved ++
          remediationsMessage host reportList (news settings acked reportList dbReports).remediations) := by
  have hevents (site : Site) (eventType : String) (rules : List Rule) :
      eventMessages settings noFaults site host eventType rules =
        eventsMessage settings host eventType (if settings.webhooksTopic then rules else []) := by
    cases hw : settings.webhooksTopic <;> cases rules <;> simp [eventMessages, eventsMessage, noFaults, hw]
  simp only [hookMessages, news, hevents, remediationsMessage, noFaults, Option.isNone_none, Bool.and_true]
  rcases Bool.eq_false_or_eq_true (published (newReportList acked reportList dbReports)) with hnew | hnew
  · rcases Bool.eq_false_or_eq_true (published (resolvedReportList acked reportList dbReports)) with hresolved | hresolved
    · simp [hnew, hresolved]
    · simp [hnew, hresolved, eventsMessage]
  · simp [hnew, eventsMessage]

theorem eq_of_map_ruleId {rules rules' : List Rule} (hmem : ∀ rule ∈ rules, rule ∈ s.rules)
    (hmem' : ∀ rule ∈ rules', rule ∈ s.rules) (h : rules.map (·.ruleId) = rules'.map (·.ruleId)) : rules = rules' := by
  induction rules generalizing rules' with
  | nil => exact (List.map_eq_nil_iff.mp h.symm).symm
  | cons rule rest ih =>
    cases rules' with
    | nil => cases h
    | cons rule' rest' =>
      rw [List.map_cons, List.map_cons, List.cons.injEq] at h
      have hrule : rule = rule' :=
        List.inj_on_of_nodup_map s.ruleIds (hmem rule (by simp)) (hmem' rule' (by simp)) h.1
      rw [hrule, ih (fun r hr => hmem r (by simp [hr])) (fun r hr => hmem' r (by simp [hr])) h.2]

theorem map_events {rules : List Rule} (h : published rules = true) :
    (rules.filterMap fun rule => (makeEventStruct settings rule).toOption).map (·.ruleId) =
      rules.map (·.ruleId) := by
  induction rules with
  | nil => rfl
  | cons rule rest ih =>
    have hall := List.all_eq_true.mp h
    have hrest : published rest = true := List.all_eq_true.mpr fun r hr => hall r (by simp [hr])
    obtain ⟨event, hevent⟩ := event_of_published settings (hall rule (by simp))
    rw [List.filterMap_cons, hevent, List.map_cons, List.map_cons, ruleId_of_event hevent, ih hrest]

/-- A message about events says which rules they are about, and does not pass for another. -/
theorem eventsMessage_inj {host : AdvisorInventoryHost} {eventType : String} {rules rules' : List Rule}
    (hmem : ∀ rule ∈ rules, rule ∈ s.rules) (hmem' : ∀ rule ∈ rules', rule ∈ s.rules)
    (hpublished : published rules = true) (hpublished' : published rules' = true) {rest rest' : List Message}
    (hrest : ∀ events, .webhook (newWebhookMessage host eventType events) ∉ rest)
    (hrest' : ∀ events, .webhook (newWebhookMessage host eventType events) ∉ rest')
    (h : eventsMessage settings host eventType rules ++ rest = eventsMessage settings host eventType rules' ++ rest') :
    rules = rules' ∧ rest = rest' := by
  cases rules with
  | nil =>
    cases rules' with
    | nil => exact ⟨rfl, h⟩
    | cons rule' tail' =>
      have hhead : rest = _ := h
      exact absurd (by rw [hhead]; simp [eventsMessage]) (hrest ((rule' :: tail').filterMap fun rule =>
        (makeEventStruct settings rule).toOption))
  | cons rule tail =>
    cases rules' with
    | nil =>
      have hhead : _ = rest' := h
      exact absurd (by rw [← hhead]; simp [eventsMessage]) (hrest' ((rule :: tail).filterMap fun rule =>
        (makeEventStruct settings rule).toOption))
    | cons rule' tail' =>
      obtain ⟨hhead, htail⟩ := List.cons.inj h
      have hevents := congrArg WebhookMessage.events (Message.webhook.inj hhead)
      refine ⟨eq_of_map_ruleId hmem hmem' ?_, htail⟩
      rw [← map_events hpublished, ← map_events hpublished']
      exact congrArg (List.map (·.ruleId)) hevents

theorem hookMessages_eq_iff {host : AdvisorInventoryHost} {reportList : List Rule} {dbReports : List StoredReport}
    (hreports : ∀ rule ∈ reportList, rule ∈ s.rules) (hstored : ∀ stored ∈ dbReports, stored.rule ∈ s.rules)
    (acked acked' : List Nat) :
    hookMessages settings noFaults host acked reportList dbReports =
        hookMessages settings noFaults host acked' reportList dbReports ↔
      news settings acked reportList dbReports = news settings acked' reportList dbReports := by
  rw [hookMessages_news, hookMessages_news]
  have hnew (acked : List Nat) : ∀ rule ∈ (news settings acked reportList dbReports).new, rule ∈ s.rules := by
    intro rule hrule
    simp only [news] at hrule
    split_ifs at hrule
    · exact hreports rule (List.mem_filter.mp hrule).1
    · cases hrule
  have hresolved (acked : List Nat) : ∀ rule ∈ (news settings acked reportList dbReports).resolved, rule ∈ s.rules := by
    intro rule hrule
    simp only [news] at hrule
    split_ifs at hrule
    · obtain ⟨stored, hs, rfl⟩ := List.mem_map.mp (List.mem_filter.mp hrule).1
      exact hstored stored hs
    · cases hrule
  have hpublished (acked : List Nat) : published (news settings acked reportList dbReports).new = true := by
    simp only [news]
    split_ifs with h
    · simp only [Bool.and_eq_true] at h
      exact h.2
    · rfl
  have hpublished' (acked : List Nat) : published (news settings acked reportList dbReports).resolved = true := by
    simp only [news]
    split_ifs with h
    · simp only [Bool.and_eq_true] at h
      exact h.2
    · rfl
  constructor
  · intro h
    have hrest (acked : List Nat) (events : List ReportEvent) :
        .webhook (newWebhookMessage host "new-recommendation" events) ∉
          eventsMessage settings host "resolved-recommendation" (news settings acked reportList dbReports).resolved ++
            remediationsMessage host reportList (news settings acked reportList dbReports).remediations := by
      unfold eventsMessage remediationsMessage
      split_ifs <;> simp [newWebhookMessage]
    have hlast (acked : List Nat) (events : List ReportEvent) :
        .webhook (newWebhookMessage host "resolved-recommendation" events) ∉
          remediationsMessage host reportList (news settings acked reportList dbReports).remediations := by
      unfold remediationsMessage
      split_ifs <;> simp
    obtain ⟨hnews, htail⟩ := eventsMessage_inj (hnew acked) (hnew acked') (hpublished acked) (hpublished acked')
      (hrest acked) (hrest acked') h
    obtain ⟨hres, hrem⟩ := eventsMessage_inj (hresolved acked) (hresolved acked') (hpublished' acked)
      (hpublished' acked') (hlast acked) (hlast acked') htail
    have hremediations : (news settings acked reportList dbReports).remediations =
        (news settings acked' reportList dbReports).remediations := by
      cases hr : (news settings acked reportList dbReports).remediations <;>
        cases hr' : (news settings acked' reportList dbReports).remediations <;>
          simp [remediationsMessage, hr, hr'] at hrem ⊢
    rcases hn : news settings acked reportList dbReports with ⟨a, b, c⟩
    rcases hn' : news settings acked' reportList dbReports with ⟨a', b', c'⟩
    simp only [hn, hn'] at hnews hres hremediations
    rw [hnews, hres, hremediations]
  · intro h
    rw [h]

theorem news_congr {acked acked' : List Nat} (h : ∀ rule, rule ∈ acked ↔ rule ∈ acked') (reportList : List Rule)
    (dbReports : List StoredReport) :
    news settings acked reportList dbReports = news settings acked' reportList dbReports := by
  have hcontains (rule : Nat) : acked.contains rule = acked'.contains rule := by
    rw [Bool.eq_iff_iff, List.contains_iff_mem, List.contains_iff_mem, h]
  have hnew : newReportList acked reportList dbReports = newReportList acked' reportList dbReports := by
    simp only [newReportList, hcontains]
  have hresolved : resolvedReportList acked reportList dbReports = resolvedReportList acked' reportList dbReports := by
    simp only [resolvedReportList, hcontains]
  unfold news
  rw [hnew, hresolved]

/-- What the acks of other organisations with the account of a host leave of the news about an upload. -/
def State.newsBeside (s : State) (settings : Settings) (call : UploadCall) (foreign : List Nat)
    (host : AdvisorInventoryHost) : News :=
  news settings (s.ownAcks host ++ foreign) ((s.reported settings call).map (·.rule)) (s.storedReports call)

/-- The messages of two states that agree on an organisation are the same exactly if the acks of other
organisations leave the same news in both. -/
theorem emits_agree_iff (settings : Settings) (call : UploadCall) (s s' : State) (h : Agree call.orgId s s') :
    s.emits settings call = s'.emits settings call ↔
      ∀ host, s.inventory.get? (call.orgId, call.inventoryId) = some host →
        s.newsBeside settings call (s.foreignAcks host) host =
          s.newsBeside settings call (s'.foreignAcks host) host := by
  have hget : s.inventory.get? (call.orgId, call.inventoryId) = s'.inventory.get? (call.orgId, call.inventoryId) := by
    apply Option.ext
    intro row
    rw [Table.get?_eq_some, Table.get?_eq_some]
    refine and_congr_left fun hkey => h.inventory row (Prod.mk.inj hkey).1
  unfold State.emits
  rw [← hget, ← reported_agree h.rules, ← storedReports_agree h]
  cases hhost : s.inventory.get? (call.orgId, call.inventoryId) with
  | none => simp
  | some host =>
    have hkey : host.key = (call.orgId, call.inventoryId) := Table.get?_key hhost
    have horg : host.orgId = call.orgId := congrArg Prod.fst hkey
    have hsent (s : State) (reportList : List Rule) (dbReports : List StoredReport) :
        (triggerReportHooks settings noFaults host reportList dbReports { s with sent := [] }).2.sent =
          hookMessages settings noFaults host (s.ackedRules host) reportList dbReports := by
      rw [triggerReportHooks_state]
      rfl
    simp only [hsent, Option.some.injEq, forall_eq']
    rw [← horg] at h
    have hown (rule : Nat) : rule ∈ s'.ackedRules host ↔ rule ∈ s.ownAcks host ++ s'.foreignAcks host := by
      rw [mem_ackedRules, List.mem_append, List.mem_append, mem_ownAcks_agree h]
    have hreports : ∀ rule ∈ (s.reported settings call).map (·.rule), rule ∈ s.rules := by
      intro rule hrule
      obtain ⟨entry, hentry, rfl⟩ := List.mem_map.mp hrule
      exact (entry_of_mem hentry).1
    rw [hookMessages_eq_iff hreports (fun stored hstored => (get?_of_stored hstored).1), State.newsBeside,
      State.newsBeside, news_congr fun rule => mem_ackedRules, news_congr hown]

def State.foreignAcked : State := { State.ready with acks := .single ⟨1, none, "5678", "", ""⟩ }

theorem agree_foreignAcked : Agree "1234" State.ready State.foreignAcked where
  rules := .refl _
  inventory _ _ := Iff.rfl
  hosts _ _ := Iff.rfl
  uploads _ _ := Iff.rfl
  reports _ _ := Iff.rfl
  acks row horg := by
    refine iff_of_false (List.not_mem_nil) fun h => ?_
    rw [Table.mem_single.mp h] at horg
    exact absurd horg (by decide)
  hostAcks _ _ := Iff.rfl

theorem emits_agree_foreignAcked :
    State.ready.emits notifying (clientUpload [weakKeys]) = State.foreignAcked.emits notifying (clientUpload [weakKeys]) ↔
      ∀ host, State.ready.inventory.get? ("1234", 7) = some host →
        State.ready.newsBeside notifying (clientUpload [weakKeys]) (State.ready.foreignAcks host) host =
          State.ready.newsBeside notifying (clientUpload [weakKeys]) (State.foreignAcked.foreignAcks host) host :=
  emits_agree_iff notifying (clientUpload [weakKeys]) State.ready State.foreignAcked agree_foreignAcked

/-- The other organisation's ack keeps the message about the new report from being sent. -/
theorem emits_foreignAck : Agree "1234" State.ready State.foreignAcked ∧
    (State.ready.emits notifying (clientUpload [weakKeys])).length = 2 ∧
      (State.foreignAcked.emits notifying (clientUpload [weakKeys])).length = 1 := by
  refine ⟨agree_foreignAcked, ?_, ?_⟩
  · decide +kernel
  · decide +kernel

end Advisor.Service
