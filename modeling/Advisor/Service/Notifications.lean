import Advisor.Service.Continuity
import Mathlib.Data.List.Chain

/-! Whether the messages about new and resolved reports are those about the reports an upload inserted and deleted,
and whether they alternate then. -/

namespace Advisor.Service

open Python Procedure Django Relational

variable {settings : Settings} {call : UploadCall} {s s' : State}

section Messages

/-- The type of a webhook message, its org and host, and the ids of the rules it lists. -/
def telling : Message → Option (String × String × Uuid × List String)
  | .webhook message =>
    some (message.eventType, message.orgId, message.inventoryId, message.events.map (·.ruleId))
  | _ => none

def tellings (messages : List Message) : List (String × String × Uuid × List String) := messages.filterMap telling

def told (eventType : String) (messages : List Message) : List (String × Uuid × List String) :=
  (tellings messages).filterMap fun t => if t.1 = eventType then some t.2 else none

@[simp] theorem tellings_nil : tellings [] = [] := rfl

@[simp] theorem tellings_append (l l' : List Message) : tellings (l ++ l') = tellings l ++ tellings l' :=
  List.filterMap_append

@[simp] theorem tellings_remediations (host : Uuid) (issues : List String) (c : Prop) [Decidable c] :
    tellings (if c then [.remediations host issues] else []) = [] := by
  split <;> rfl

@[simp] theorem tellings_viewMessages (faults : Faults) (counts : Collected) :
    tellings (viewMessages settings faults call counts) = [] := by
  simp only [viewMessages]
  split <;> rfl

variable (settings) in
theorem map_ruleId_events {rules : List Rule} (h : published rules = true) :
    (rules.filterMap fun rule => (makeEventStruct settings rule).toOption).map (·.ruleId) = rules.map (·.ruleId) := by
  induction rules with
  | nil => rfl
  | cons rule rules ih =>
    simp only [published, List.all_cons, Bool.and_eq_true] at h
    obtain ⟨event, hevent⟩ := event_of_published settings h.1
    rw [List.filterMap_cons, hevent, List.map_cons, List.map_cons, ruleId_of_event hevent, ih h.2]

theorem tellings_eventMessages {site : Site} {host : AdvisorInventoryHost} {eventType : String} {rules : List Rule}
    (hweb : settings.webhooksTopic = true) (h : published rules = true) :
    tellings (eventMessages settings noFaults site host eventType rules) =
      if rules ≠ [] then [(eventType, host.orgId, host.inventoryId, rules.map (·.ruleId))] else [] := by
  cases rules with
  | nil => simp [eventMessages]
  | cons rule rest =>
    have hids := map_ruleId_events settings h
    simp [eventMessages, hweb, noFaults, tellings, telling, newWebhookMessage, ← hids]

variable {host : AdvisorInventoryHost} {acked : List Nat} {reportList : List Rule} {dbReports : List StoredReport}

theorem tellings_hookMessages (hweb : settings.webhooksTopic = true) :
    tellings (hookMessages settings noFaults host acked reportList dbReports) =
      (if published (newReportList acked reportList dbReports) = true ∧ newReportList acked reportList dbReports ≠ [] then
        [("new-recommendation", host.orgId, host.inventoryId,
          (newReportList acked reportList dbReports).map (·.ruleId))]
      else []) ++
      if (published (newReportList acked reportList dbReports) = true ∧
          published (resolvedReportList acked reportList dbReports) = true) ∧
          resolvedReportList acked reportList dbReports ≠ [] then
        [("resolved-recommendation", host.orgId, host.inventoryId,
          (resolvedReportList acked reportList dbReports).map (·.ruleId))]
      else [] := by
  simp only [hookMessages]
  cases hnew : published (newReportList acked reportList dbReports) with
  | false => simp
  | true =>
    cases hresolved : published (resolvedReportList acked reportList dbReports) with
    | false => simp [tellings_eventMessages hweb hnew]
    | true =>
      simp only [Bool.not_true, Bool.false_eq_true, if_false, tellings_append, tellings_eventMessages hweb hnew,
        tellings_eventMessages hweb hresolved, tellings_remediations]
      simp

end Messages

section Lists

def State.muted (s : State) (orgId : String) (host : Uuid) (rule : Rule) : Bool :=
  (s.acks.get? (rule.id, orgId)).isSome || (s.hostAcks.get? (rule.id, orgId, host)).isSome

def Inserted (s s' : State) (call : UploadCall) (rule : Rule) : Prop :=
  s.reports.get? (call.key rule.id) = none ∧ (s'.reports.get? (call.key rule.id)).isSome = true

def Deleted (s s' : State) (call : UploadCall) (rule : Rule) : Prop :=
  (s.reports.get? (call.key rule.id)).isSome = true ∧ s'.reports.get? (call.key rule.id) = none

/-- There is one message of the type, which lists exactly the rules of a kind and each once; or none, if there is no
such rule. -/
def Tells (call : UploadCall) (messages : List Message) (eventType : String) (p : Rule → Prop) : Prop :=
  ∃ ids : List String, ids.Nodup ∧ (∀ id, id ∈ ids ↔ ∃ rule, p rule ∧ rule.ruleId = id) ∧
    told eventType messages = if ids = [] then [] else [(call.orgId, call.inventoryId, ids)]

def State.since (s s' : State) : List Message := s'.sent.drop s.sent.length

theorem rule_of_ruleId {rule rule' : Rule} (h : rule ∈ s.rules) (h' : rule' ∈ s.rules)
    (hid : rule.ruleId = rule'.ruleId) : rule = rule' :=
  List.inj_on_of_nodup_map s.ruleIds h h' hid

theorem tells_iff {messages : List Message} {eventType : String} {p : Rule → Prop} {b : Prop} [Decidable b]
    {rules : List Rule} (hp : ∀ rule, p rule → rule ∈ s.rules) (hrules : ∀ rule ∈ rules, rule ∈ s.rules)
    (hnodup : rules.Nodup) (htold : told eventType messages =
      if b ∧ rules ≠ [] then [(call.orgId, call.inventoryId, rules.map (·.ruleId))] else []) :
    Tells call messages eventType p ↔ (b → ∀ rule, p rule ↔ rule ∈ rules) ∧ (¬ b → ∀ rule, ¬ p rule) := by
  constructor
  · rintro ⟨ids, -, hids, hsame⟩
    rw [htold] at hsame
    constructor
    · intro hb
      have heq : ids = rules.map (·.ruleId) := by
        by_cases hnil : rules = [] <;> by_cases hempty : ids = [] <;> simp_all
      intro rule
      constructor
      · intro hrule
        have hmem := (hids rule.ruleId).mpr ⟨rule, hrule, rfl⟩
        rw [heq] at hmem
        obtain ⟨other, hother, hid⟩ := List.mem_map.mp hmem
        rwa [← rule_of_ruleId (hrules other hother) (hp rule hrule) hid]
      · intro hrule
        obtain ⟨other, hother, hid⟩ := (hids rule.ruleId).mp (heq ▸ List.mem_map_of_mem hrule)
        rwa [← rule_of_ruleId (hp other hother) (hrules rule hrule) hid]
    · intro hb rule hrule
      have hempty : ids = [] := by
        by_contra hne
        simp [hb, hne] at hsame
      have hmem := (hids rule.ruleId).mpr ⟨rule, hrule, rfl⟩
      rw [hempty] at hmem
      cases hmem
  · rintro ⟨hyes, hno⟩
    by_cases hb : b
    · refine ⟨rules.map (·.ruleId), ?_, ?_, ?_⟩
      · refine hnodup.map_on ?_
        intro rule hrule other hother hid
        exact rule_of_ruleId (hrules rule hrule) (hrules other hother) hid
      · intro id
        simp only [List.mem_map, hyes hb]
      · rw [htold]
        simp [hb]
    · refine ⟨[], List.nodup_nil, ?_, by simp [htold, hb]⟩
      intro id
      simp [hno hb]

end Lists

section Call

variable (s settings call)

def State.newList (host : AdvisorInventoryHost) : List Rule :=
  newReportList ((s.withHost call).ackedRules host) ((s.reported settings call).map (·.rule)) (s.storedReports call)

def State.resolvedList (host : AdvisorInventoryHost) : List Rule :=
  resolvedReportList ((s.withHost call).ackedRules host) ((s.reported settings call).map (·.rule)) (s.storedReports call)

/-- Both messages of an upload that goes through are about what it inserted and deleted, for a host the inventory
has. -/
def Exact : Prop :=
  settings.webhooksTopic = true → (s.inventory.get? (call.orgId, call.inventoryId)).isSome = true →
    ∀ s', createDbReports settings noFaults call s = (.ok true, s') →
      Tells call (s.since s') "new-recommendation" (fun rule => rule ∈ s.rules ∧ rule.active = true ∧
        s'.muted call.orgId call.inventoryId rule = false ∧ Inserted s s' call rule) ∧
      Tells call (s.since s') "resolved-recommendation" (fun rule => rule ∈ s.rules ∧ rule.active = true ∧
        s'.muted call.orgId call.inventoryId rule = false ∧ Deleted s s' call rule)

def State.Mutes (rule : Rule) : Prop := (s.withHost call).muted call.orgId call.inventoryId rule = true

/-- The newly reported rules that no ack of the account covers have a publish date. -/
def State.NewsDated (host : AdvisorInventoryHost) : Prop :=
  ∀ entry ∈ s.newEntries settings call, entry.rule.active = true →
    entry.rule.id ∉ (s.withHost call).ackedRules host → entry.rule.publishDate.isSome = true

/-- The stored rules that are not reported and that no ack of the account covers have a publish date. -/
def State.ResolvedDated (host : AdvisorInventoryHost) : Prop :=
  ∀ stored ∈ s.storedReports call, (∀ entry ∈ s.reported settings call, entry.rule.id ≠ stored.rule.id) →
    stored.rule.active = true → stored.rule.id ∉ (s.withHost call).ackedRules host →
      stored.rule.publishDate.isSome = true

/-- For the newly reported rules the acks of the account are those of the organisation and the host; without a date for
each rule to be told of, there is none to tell of. -/
structure State.NewsClear (host : AdvisorInventoryHost) : Prop where
  told : s.NewsDated settings call host → ∀ entry ∈ s.newEntries settings call, entry.rule.active = true →
    (s.Mutes call entry.rule ↔ entry.rule.id ∈ (s.withHost call).ackedRules host)
  untold : ¬ s.NewsDated settings call host → ∀ entry ∈ s.newEntries settings call, entry.rule.active = true →
    s.Mutes call entry.rule

/-- A stored rule is neither final nor muted exactly if it is not reported and no ack of the account covers it; without
a date for each rule to be told of, there is none to tell of. -/
structure State.ResolvedClear (host : AdvisorInventoryHost) : Prop where
  told : s.NewsDated settings call host ∧ s.ResolvedDated settings call host →
    ∀ stored ∈ s.storedReports call, stored.rule.active = true →
      (stored.rule.ruleId ∉ finalRuleIds settings (reportedRuleIds call.reports) ∧ ¬ s.Mutes call stored.rule ↔
        (∀ entry ∈ s.reported settings call, entry.rule.id ≠ stored.rule.id) ∧
          stored.rule.id ∉ (s.withHost call).ackedRules host)
  untold : ¬ (s.NewsDated settings call host ∧ s.ResolvedDated settings call host) →
    ∀ stored ∈ s.storedReports call, stored.rule.active = true →
      stored.rule.ruleId ∉ finalRuleIds settings (reportedRuleIds call.reports) → s.Mutes call stored.rule

/-- What an upload needs to tell of what it does, if it goes through and the inventory has its host. -/
def Clear : Prop :=
  settings.webhooksTopic = true → ∀ host, s.inventory.get? (call.orgId, call.inventoryId) = some host →
    s.Takes settings call → s.NewsClear settings call host ∧ s.ResolvedClear settings call host

variable {s settings call} {known : Known} {host : AdvisorInventoryHost} {rule : Rule}

theorem newList_eq : s.newList settings call host =
    ((s.newEntries settings call).map (·.rule)).filter fun rule =>
      rule.active && !((s.withHost call).ackedRules host).contains rule.id := by
  rw [State.newList, newReportList, State.newEntries, List.filter_map, List.filter_map, List.filter_filter]
  congr 1
  refine List.filter_congr fun entry _ => ?_
  simp only [Function.comp_apply, Known.isStored, State.known, Bool.and_assoc]
  rw [Bool.and_comm, Bool.and_assoc]

theorem mem_newList : rule ∈ s.newList settings call host ↔
    (∃ entry ∈ s.newEntries settings call, entry.rule = rule) ∧ rule.active = true ∧
      rule.id ∉ (s.withHost call).ackedRules host := by
  simp [newList_eq, List.mem_filter]

theorem mem_resolvedList : rule ∈ s.resolvedList settings call host ↔
    (∃ stored ∈ s.storedReports call, stored.rule = rule) ∧ rule.active = true ∧
      (∀ entry ∈ s.reported settings call, entry.rule.id ≠ rule.id) ∧
        rule.id ∉ (s.withHost call).ackedRules host := by
  simp [State.resolvedList, resolvedReportList, List.mem_filter, and_assoc, and_left_comm]

theorem published_newList : published (s.newList settings call host) = true ↔ s.NewsDated settings call host := by
  simp only [published, List.all_eq_true, mem_newList, State.NewsDated]
  constructor
  · intro hall entry hentry hactive hacked
    exact hall entry.rule ⟨⟨entry, hentry, rfl⟩, hactive, hacked⟩
  · rintro hall _ ⟨⟨entry, hentry, rfl⟩, hactive, hacked⟩
    exact hall entry hentry hactive hacked

theorem published_resolvedList :
    published (s.resolvedList settings call host) = true ↔ s.ResolvedDated settings call host := by
  simp only [published, List.all_eq_true, mem_resolvedList, State.ResolvedDated]
  constructor
  · intro hall stored hstored hreported hactive hacked
    exact hall stored.rule ⟨⟨stored, hstored, rfl⟩, hactive, hreported, hacked⟩
  · rintro hall _ ⟨⟨stored, hstored, rfl⟩, hactive, hreported, hacked⟩
    exact hall stored hstored hreported hactive hacked

theorem nodup_newList (h : s.Stores settings call) : (s.newList settings call host).Nodup := by
  have hids : ((s.newEntries settings call).map (·.rule)).map (·.id) = (s.newEntries settings call).map (·.rule.id) :=
    List.map_map
  rw [newList_eq]
  exact ((List.Nodup.of_map (·.id) (hids ▸ h.distinct)).filter _)

theorem nodup_storedReports : ((s.storedReports call).map (·.rule)).Nodup := by
  have hrows := List.pairwise_map.mp s.reports.unique
  rw [State.storedReports, ((List.perm_insertionSort _ _).map _).nodup_iff, List.Nodup, List.pairwise_map,
    List.pairwise_filterMap]
  refine (hrows.filter _).imp_of_mem ?_
  intro row other hrow hother hne stored hstored stored' hstored' hsame
  obtain ⟨rule, hrule, rfl⟩ := Option.map_eq_some_iff.mp hstored
  obtain ⟨rule', hrule', rfl⟩ := Option.map_eq_some_iff.mp hstored'
  obtain rfl : rule = rule' := hsame
  simp only [List.mem_filter, Bool.and_eq_true, decide_eq_true_eq] at hrow hother
  have hid : row.rule = other.rule := (Table.get?_key hrule).symm.trans (Table.get?_key hrule')
  refine hne ?_
  simp only [CurrentReport.key, hrow.2.1, hrow.2.2, hother.2.1, hother.2.2, hid]

theorem nodup_resolvedList : (s.resolvedList settings call host).Nodup := nodup_storedReports.filter _

theorem since_eq (hweb : settings.webhooksTopic = true)
    (hhost : s.inventory.get? (call.orgId, call.inventoryId) = some host) (h : Stored settings call s s' known) :
    ∃ counts, s.since s' = hookMessages settings noFaults host ((s.withHost call).ackedRules host)
      ((s.reported settings call).map (·.rule)) (s.storedReports call) ++ viewMessages settings noFaults call counts := by
  obtain ⟨counts, hsent⟩ := h.sent
  refine ⟨counts, ?_⟩
  have hinventory : s'.inventory.get? (call.orgId, call.inventoryId) = some host := by
    rw [h.frame, withHost_inventory, hhost]
  have hacked : s'.ackedRules host = (s.withHost call).ackedRules host := by rw [h.frame]; rfl
  rw [State.since, hsent, List.drop_left, State.hookMessages, hinventory]
  simp [hweb, noFaults, hacked]

theorem tellings_call (hweb : settings.webhooksTopic = true)
    (hhost : s.inventory.get? (call.orgId, call.inventoryId) = some host) (h : Stored settings call s s' known) :
    tellings (s.since s') =
      (if published (s.newList settings call host) = true ∧ s.newList settings call host ≠ [] then
        [("new-recommendation", call.orgId, call.inventoryId, (s.newList settings call host).map (·.ruleId))]
      else []) ++
      if (published (s.newList settings call host) = true ∧ published (s.resolvedList settings call host) = true) ∧
          s.resolvedList settings call host ≠ [] then
        [("resolved-recommendation", call.orgId, call.inventoryId, (s.resolvedList settings call host).map (·.ruleId))]
      else [] := by
  obtain ⟨counts, hsince⟩ := since_eq hweb hhost h
  have hkey := Table.get?_key hhost
  obtain ⟨horg, hid⟩ := Prod.mk.inj hkey
  rw [hsince, tellings_append, tellings_viewMessages, List.append_nil, tellings_hookMessages hweb, horg, hid]
  rfl

theorem inserted_iff (hstores : s.Stores settings call) (h : Stored settings call s s' known) :
    Inserted s s' call rule ↔ ∃ entry ∈ s.newEntries settings call, entry.rule.id = rule.id := by
  rw [Inserted, h.reports]
  constructor
  · rintro ⟨hnone, hsome⟩
    by_contra hno
    push Not at hno
    by_cases hreported : ∃ entry ∈ s.reported settings call, entry.rule.id = rule.id
    · obtain ⟨entry, hentry, hid⟩ := hreported
      exact hno entry (mem_newEntries.mpr ⟨hentry, by rw [hid, hnone]⟩) hid
    · push Not at hreported
      rw [leaves_unreported known hreported, hnone] at hsome
      cases hsome
  · rintro ⟨entry, hentry, hid⟩
    rw [← hid, leaves_new known hentry hstores.distinct]
    exact ⟨(mem_newEntries.mp hentry).2, rfl⟩

theorem deleted_iff (hrule : rule ∈ s.rules) (h : Stored settings call s s' known) :
    Deleted s s' call rule ↔ (s.reports.get? (call.key rule.id)).isSome = true ∧
      rule.ruleId ∉ finalRuleIds settings (reportedRuleIds call.reports) := by
  rw [Deleted, h.reports]
  refine and_congr_right fun hsome => ?_
  obtain ⟨old, hold⟩ := Option.isSome_iff_exists.mp hsome
  by_cases hreported : ∃ entry ∈ s.reported settings call, entry.rule.id = rule.id
  · obtain ⟨entry, hentry, hid⟩ := hreported
    obtain ⟨hstored, hfinal, -⟩ := entry_of_mem hentry
    have hsame : entry.rule = rule := s.rules.key_injOn hstored hrule hid
    rw [hsame] at hfinal
    refine iff_of_false ?_ fun hnot => hnot hfinal
    rw [← hid] at hold ⊢
    rcases leaves_existing known hentry hold with ⟨-, last, -, -, hleaves⟩ | ⟨-, hleaves⟩ <;> simp [hleaves]
  · push Not at hreported
    rw [leaves_unreported known hreported, hold, Option.filter_eq_none_iff]
    simp only [Option.some.injEq, forall_eq', Bool.not_eq_true', Bool.not_eq_false]
    exact resolves_stored hrule hold

theorem muted_stored (h : Stored settings call s s' known) :
    s'.muted call.orgId call.inventoryId rule = false ↔ ¬ s.Mutes call rule := by
  rw [State.Mutes, Bool.not_eq_true, h.frame]
  rfl

theorem tellsNew_iff (hweb : settings.webhooksTopic = true)
    (hhost : s.inventory.get? (call.orgId, call.inventoryId) = some host) (hstores : s.Stores settings call)
    (h : Stored settings call s s' known) :
    Tells call (s.since s') "new-recommendation" (fun rule => rule ∈ s.rules ∧ rule.active = true ∧
      s'.muted call.orgId call.inventoryId rule = false ∧ Inserted s s' call rule) ↔ s.NewsClear settings call host := by
  have hkind : ∀ rule, (rule ∈ s.rules ∧ rule.active = true ∧ s'.muted call.orgId call.inventoryId rule = false ∧
      Inserted s s' call rule) ↔
        (∃ entry ∈ s.newEntries settings call, entry.rule = rule) ∧ rule.active = true ∧ ¬ s.Mutes call rule := by
    intro rule
    rw [muted_stored h, inserted_iff hstores h]
    constructor
    · rintro ⟨hrule, hactive, hmuted, entry, hentry, hid⟩
      have hstored := (entry_of_mem (mem_newEntries.mp hentry).1).1
      exact ⟨⟨entry, hentry, s.rules.key_injOn hstored hrule hid⟩, hactive, hmuted⟩
    · rintro ⟨⟨entry, hentry, rfl⟩, hactive, hmuted⟩
      exact ⟨(entry_of_mem (mem_newEntries.mp hentry).1).1, hactive, hmuted, entry, hentry, rfl⟩
  have htold : told "new-recommendation" (s.since s') =
      if published (s.newList settings call host) = true ∧ s.newList settings call host ≠ [] then
        [(call.orgId, call.inventoryId, (s.newList settings call host).map (·.ruleId))] else [] := by
    rw [told, tellings_call hweb hhost h]
    split_ifs <;> simp
  have hrules : ∀ rule ∈ s.newList settings call host, rule ∈ s.rules := by
    intro rule hrule
    obtain ⟨⟨entry, hentry, rfl⟩, -, -⟩ := mem_newList.mp hrule
    exact (entry_of_mem (mem_newEntries.mp hentry).1).1
  rw [tells_iff (fun rule hrule => hrule.1) hrules (nodup_newList hstores) htold]
  simp only [hkind, mem_newList, published_newList]
  constructor
  · rintro ⟨htells, huntold⟩
    refine ⟨fun hdated entry hentry hactive => ?_, fun hdated entry hentry hactive => ?_⟩
    · have hsame := and_congr_right_iff.mp (htells hdated entry.rule) ⟨entry, hentry, rfl⟩
      exact not_iff_not.mp (and_congr_right_iff.mp hsame hactive)
    · by_contra hmute
      exact huntold hdated entry.rule ⟨⟨entry, hentry, rfl⟩, hactive, hmute⟩
  · intro hclear
    constructor
    · intro hdated rule
      refine and_congr_right fun hentry => and_congr_right fun hactive => ?_
      obtain ⟨entry, hentry, rfl⟩ := hentry
      exact not_congr (hclear.told hdated entry hentry hactive)
    · rintro hdated rule ⟨⟨entry, hentry, rfl⟩, hactive, hmute⟩
      exact hmute (hclear.untold hdated entry hentry hactive)

theorem tellsResolved_iff (hweb : settings.webhooksTopic = true)
    (hhost : s.inventory.get? (call.orgId, call.inventoryId) = some host) (h : Stored settings call s s' known) :
    Tells call (s.since s') "resolved-recommendation" (fun rule => rule ∈ s.rules ∧ rule.active = true ∧
      s'.muted call.orgId call.inventoryId rule = false ∧ Deleted s s' call rule) ↔
        s.ResolvedClear settings call host := by
  have hkind : ∀ rule, (rule ∈ s.rules ∧ rule.active = true ∧ s'.muted call.orgId call.inventoryId rule = false ∧
      Deleted s s' call rule) ↔
        (∃ stored ∈ s.storedReports call, stored.rule = rule) ∧ rule.active = true ∧
          (rule.ruleId ∉ finalRuleIds settings (reportedRuleIds call.reports) ∧ ¬ s.Mutes call rule) := by
    intro rule
    rw [muted_stored h]
    constructor
    · rintro ⟨hrule, hactive, hmuted, hdeleted⟩
      obtain ⟨hsome, hfinal⟩ := (deleted_iff hrule h).mp hdeleted
      obtain ⟨report, hreport⟩ := Option.isSome_iff_exists.mp hsome
      exact ⟨⟨_, stored_of_get? hrule hreport, rfl⟩, hactive, hfinal, hmuted⟩
    · rintro ⟨⟨stored, hstored, rfl⟩, hactive, hfinal, hmuted⟩
      obtain ⟨hrule, report, hreport, -⟩ := get?_of_stored hstored
      exact ⟨hrule, hactive, hmuted, (deleted_iff hrule h).mpr ⟨by rw [hreport]; rfl, hfinal⟩⟩
  have htold : told "resolved-recommendation" (s.since s') =
      if (published (s.newList settings call host) = true ∧ published (s.resolvedList settings call host) = true) ∧
          s.resolvedList settings call host ≠ [] then
        [(call.orgId, call.inventoryId, (s.resolvedList settings call host).map (·.ruleId))] else [] := by
    rw [told, tellings_call hweb hhost h]
    split_ifs <;> simp
  have hrules : ∀ rule ∈ s.resolvedList settings call host, rule ∈ s.rules := by
    intro rule hrule
    obtain ⟨⟨stored, hstored, rfl⟩, -⟩ := mem_resolvedList.mp hrule
    exact (get?_of_stored hstored).1
  rw [tells_iff (fun rule hrule => hrule.1) hrules nodup_resolvedList htold]
  simp only [hkind, mem_resolvedList, published_newList, published_resolvedList]
  constructor
  · rintro ⟨htells, huntold⟩
    refine ⟨fun hdated stored hstored hactive => ?_, fun hdated stored hstored hactive hfinal => ?_⟩
    · have hsame := and_congr_right_iff.mp (htells hdated stored.rule) ⟨stored, hstored, rfl⟩
      exact and_congr_right_iff.mp hsame hactive
    · by_contra hmute
      exact huntold hdated stored.rule ⟨⟨stored, hstored, rfl⟩, hactive, hfinal, hmute⟩
  · intro hclear
    constructor
    · intro hdated rule
      refine and_congr_right fun hstored => ?_
      obtain ⟨stored, hstored, rfl⟩ := hstored
      exact and_congr_right fun hactive => hclear.told hdated stored hstored hactive
    · rintro hdated rule ⟨⟨stored, hstored, rfl⟩, hactive, hfinal, hmute⟩
      exact hmute (hclear.untold hdated stored hstored hactive hfinal)

theorem exact_iff : Exact settings call s ↔ Clear settings call s := by
  rcases createDbReports_noFaults s settings call with ⟨htakes, s', known, heq, hstored⟩ | ⟨hnot, heq⟩
  · constructor
    · intro hexact hweb host hhost _
      obtain ⟨hnew, hresolved⟩ := hexact hweb (by rw [hhost]; rfl) s' heq
      exact ⟨(tellsNew_iff hweb hhost htakes.stores hstored).mp hnew, (tellsResolved_iff hweb hhost hstored).mp hresolved⟩
    · intro hclear hweb hsome s'' hcall
      obtain ⟨host, hhost⟩ := Option.isSome_iff_exists.mp hsome
      obtain ⟨hnew, hresolved⟩ := hclear hweb host hhost htakes
      obtain rfl := congrArg Prod.snd (heq.symm.trans hcall)
      exact ⟨(tellsNew_iff hweb hhost htakes.stores hstored).mpr hnew,
        (tellsResolved_iff hweb hhost hstored).mpr hresolved⟩
  · constructor
    · intro _ _ _ _ htakes
      exact absurd htakes hnot
    · intro _ _ _ s' hcall
      rw [heq] at hcall
      cases congrArg Prod.fst hcall

end Call

section Sequence

def EachUpload (P : Settings → UploadCall → State → Prop) : List (Settings × UploadCall) → State → Prop
  | [], _ => True
  | upload :: rest, s => P upload.1 upload.2 s ∧ EachUpload P rest (after upload.1 upload.2 s)

def final : List (Settings × UploadCall) → State → State
  | [], s => s
  | upload :: rest, s => final rest (after upload.1 upload.2 s)

def listed (orgId : String) (host : Uuid) (ruleId eventType : String) (t : String × Uuid × List String) : List String :=
  if t.1 = orgId ∧ t.2.1 = host then (t.2.2.filter (· = ruleId)).map fun _ => eventType else []

/-- The types of the messages about a rule of a host, in the order they were sent. -/
def eventsOf (orgId : String) (host : Uuid) (ruleId : String) (messages : List Message) : List String :=
  (tellings messages).flatMap fun t => listed orgId host ruleId t.1 t.2

def State.present (s : State) (orgId : String) (host : Uuid) (rule : Rule) : Bool :=
  (s.reports.get? (orgId, rule.id, host)).isSome

def changed (before now : Bool) : List String :=
  if !before && now then ["new-recommendation"]
  else if before && !now then ["resolved-recommendation"]
  else []

/-- What the messages of a sequence of uploads are to be. -/
structure Notified (uploads : List (Settings × UploadCall)) (s : State) : Prop where
  exact : EachUpload Exact uploads s
  alternate : EachUpload (fun settings call s => settings.webhooksTopic = true ∧ (after settings call s).acks = s.acks)
      uploads s → ∀ orgId host, (s.inventory.get? (orgId, host)).isSome = true → ∀ ruleId,
        (eventsOf orgId host ruleId (s.since (final uploads s))).IsChain (· ≠ ·)

variable {uploads : List (Settings × UploadCall)} {orgId : String} {host : Uuid} {ruleId : String} {rule : Rule}

theorem eachUpload_congr {P Q : Settings → UploadCall → State → Prop} (h : ∀ settings call s, P settings call s ↔ Q settings call s) :
    EachUpload P uploads s ↔ EachUpload Q uploads s := by
  induction uploads generalizing s with
  | nil => rfl
  | cons upload rest ih => exact and_congr (h upload.1 upload.2 s) ih

theorem sent_after (settings : Settings) (call : UploadCall) (s : State) :
    (after settings call s).sent = s.sent ++ s.since (after settings call s) := by
  rcases createDbReports_noFaults s settings call with ⟨-, s', known, heq, hstored⟩ | ⟨-, heq⟩
  · obtain ⟨counts, hsent⟩ := hstored.sent
    rw [after, heq, State.since, hsent, List.drop_left]
  · rw [after, heq, State.since, withHost_sent, List.drop_length, List.append_nil]

theorem sent_final (uploads : List (Settings × UploadCall)) (s : State) :
    (final uploads s).sent = s.sent ++ s.since (final uploads s) := by
  induction uploads generalizing s with
  | nil => rw [final, State.since, List.drop_length, List.append_nil]
  | cons upload rest ih =>
    rw [final, State.since, ih, sent_after, List.append_assoc, List.drop_left]

theorem since_final (upload : Settings × UploadCall) :
    s.since (final (upload :: uploads) s) =
      s.since (after upload.1 upload.2 s) ++ (after upload.1 upload.2 s).since (final uploads (after upload.1 upload.2 s)) := by
  rw [State.since, final, sent_final, sent_after, List.append_assoc, List.drop_left]

theorem eventsOf_append (l l' : List Message) :
    eventsOf orgId host ruleId (l ++ l') = eventsOf orgId host ruleId l ++ eventsOf orgId host ruleId l' := by
  rw [eventsOf, tellings_append, List.flatMap_append]
  rfl

theorem after_rules (settings : Settings) (call : UploadCall) (s : State) : (after settings call s).rules = s.rules := by
  rcases createDbReports_noFaults s settings call with ⟨-, s', known, heq, hstored⟩ | ⟨-, heq⟩
  · rw [after, heq, hstored.frame, withHost_rules]
  · rw [after, heq, withHost_rules]

theorem after_inventory (settings : Settings) (call : UploadCall) (s : State) :
    (after settings call s).inventory = s.inventory := by
  rcases createDbReports_noFaults s settings call with ⟨-, s', known, heq, hstored⟩ | ⟨-, heq⟩
  · rw [after, heq, hstored.frame, withHost_inventory]
  · rw [after, heq, withHost_inventory]

theorem after_hostAcks (settings : Settings) (call : UploadCall) (s : State) :
    (after settings call s).hostAcks = s.hostAcks := by
  rcases createDbReports_noFaults s settings call with ⟨-, s', known, heq, hstored⟩ | ⟨-, heq⟩
  · rw [after, heq, hstored.frame, withHost_hostAcks]
  · rw [after, heq, withHost_hostAcks]

theorem muted_after (h : (after settings call s).acks = s.acks) :
    (after settings call s).muted orgId host rule = s.muted orgId host rule := by
  rw [State.muted, h, after_hostAcks, State.muted]

theorem eventsOf_other (hweb : settings.webhooksTopic = true) (hne : ¬ (call.orgId = orgId ∧ call.inventoryId = host)) :
    eventsOf orgId host ruleId (s.since (after settings call s)) = [] := by
  rcases createDbReports_noFaults s settings call with ⟨-, s', known, heq, hstored⟩ | ⟨-, heq⟩
  · rw [after, heq]
    cases hhost : s.inventory.get? (call.orgId, call.inventoryId) with
    | none =>
      obtain ⟨counts, hsent⟩ := hstored.sent
      have hinventory : s'.inventory.get? (call.orgId, call.inventoryId) = none := by
        rw [hstored.frame, withHost_inventory, hhost]
      have hsince : s.since s' = viewMessages settings noFaults call counts := by
        rw [State.since, hsent, List.drop_left, State.hookMessages, hinventory]
        simp
      rw [eventsOf, hsince, tellings_viewMessages, List.flatMap_nil]
    | some found =>
      rw [eventsOf, tellings_call hweb hhost hstored]
      split_ifs <;> simp [listed, hne]
  · rw [after, heq, State.since, withHost_sent, List.drop_length]
    rfl

theorem present_other (hne : ¬ (call.orgId = orgId ∧ call.inventoryId = host)) :
    (after settings call s).present orgId host rule = s.present orgId host rule := by
  have hkey : ∀ rid, (orgId, rule.id, host) ≠ call.key rid := by
    intro rid hkey
    simp only [UploadCall.key, Prod.mk.injEq] at hkey
    exact hne ⟨hkey.1.symm, hkey.2.2.symm⟩
  rcases createDbReports_noFaults s settings call with ⟨-, s', known, heq, hstored⟩ | ⟨-, heq⟩
  · rw [State.present, after, heq, hstored.reports, leaves_other known hkey, State.present]
  · rw [State.present, after, heq, withHost_reports, State.present]

theorem listed_of_tells {messages : List Message} {eventType : String} {p : Rule → Prop}
    (h : Tells call messages eventType p) :
    ∃ ids : List String, (∀ id, id ∈ ids ↔ ∃ rule, p rule ∧ rule.ruleId = id) ∧ ∀ ruleId,
      (told eventType messages).flatMap (listed call.orgId call.inventoryId ruleId eventType) =
        if ruleId ∈ ids then [eventType] else [] := by
  obtain ⟨ids, hnodup, hids, htold⟩ := h
  refine ⟨ids, hids, fun ruleId => ?_⟩
  have hcount : (ids.filter (· = ruleId)).length = ids.count ruleId := List.count_eq_length_filter.symm
  rw [htold]
  by_cases hmem : ruleId ∈ ids
  · rw [List.count_eq_one_of_mem hnodup hmem] at hcount
    simp [List.ne_nil_of_mem hmem, hmem, listed, hcount]
  · rw [List.count_eq_zero.mpr hmem] at hcount
    split_ifs <;> simp [listed, hcount]

theorem eventsOf_told {inventoryHost : AdvisorInventoryHost} {known : Known} (hweb : settings.webhooksTopic = true)
    (hhost : s.inventory.get? (call.orgId, call.inventoryId) = some inventoryHost)
    (h : Stored settings call s s' known) :
    eventsOf orgId host ruleId (s.since s') =
      (told "new-recommendation" (s.since s')).flatMap (listed orgId host ruleId "new-recommendation") ++
        (told "resolved-recommendation" (s.since s')).flatMap (listed orgId host ruleId "resolved-recommendation") := by
  rw [eventsOf, told, told, tellings_call hweb hhost h]
  split_ifs <;> simp

/-- The events about a rule of an exact upload of its host are those about the change of its report. -/
theorem eventsOf_own (hexact : Exact settings call s) (hweb : settings.webhooksTopic = true)
    (hinventory : (s.inventory.get? (call.orgId, call.inventoryId)).isSome = true) (hrule : rule ∈ s.rules) :
    eventsOf call.orgId call.inventoryId rule.ruleId (s.since (after settings call s)) =
      if rule.active && !(after settings call s).muted call.orgId call.inventoryId rule then
        changed (s.present call.orgId call.inventoryId rule)
          ((after settings call s).present call.orgId call.inventoryId rule)
      else [] := by
  rcases createDbReports_noFaults s settings call with ⟨-, s', known, heq, hstored⟩ | ⟨-, heq⟩
  · rw [after, heq]
    obtain ⟨inventoryHost, hhost⟩ := Option.isSome_iff_exists.mp hinventory
    obtain ⟨hnew, hresolved⟩ := hexact hweb hinventory s' heq
    obtain ⟨newIds, hnewIds, hnewListed⟩ := listed_of_tells hnew
    obtain ⟨resolvedIds, hresolvedIds, hresolvedListed⟩ := listed_of_tells hresolved
    rw [eventsOf_told hweb hhost hstored, hnewListed, hresolvedListed]
    have honly {p : Rule → Prop} (hp : ∀ rule, p rule → rule ∈ s.rules) :
        (∃ other, p other ∧ other.ruleId = rule.ruleId) ↔ p rule := by
      constructor
      · rintro ⟨other, hother, hid⟩
        rwa [← rule_of_ruleId (hp other hother) hrule hid]
      · exact fun h => ⟨rule, h, rfl⟩
    have hinserted : rule.ruleId ∈ newIds ↔ rule.active = true ∧
        s'.muted call.orgId call.inventoryId rule = false ∧ s.present call.orgId call.inventoryId rule = false ∧
          s'.present call.orgId call.inventoryId rule = true := by
      rw [hnewIds, honly fun rule h => h.1]
      simp only [hrule, true_and, Inserted, State.present, UploadCall.key, Option.isSome_eq_false_iff, Option.isNone_iff_eq_none]
    have hdeleted : rule.ruleId ∈ resolvedIds ↔ rule.active = true ∧
        s'.muted call.orgId call.inventoryId rule = false ∧ s.present call.orgId call.inventoryId rule = true ∧
          s'.present call.orgId call.inventoryId rule = false := by
      rw [hresolvedIds, honly fun rule h => h.1]
      simp only [hrule, true_and, Deleted, State.present, UploadCall.key, Option.isSome_eq_false_iff, Option.isNone_iff_eq_none]
    simp only [hinserted, hdeleted]
    cases rule.active <;> cases s'.muted call.orgId call.inventoryId rule <;>
      cases s.present call.orgId call.inventoryId rule <;> cases s'.present call.orgId call.inventoryId rule <;>
        simp [changed]
  · rw [after, heq, State.since, withHost_sent, List.drop_length]
    simp only [State.present, withHost_reports]
    cases (s.reports.get? (call.orgId, rule.id, call.inventoryId)).isSome <;> simp [changed, eventsOf]

theorem eventsOf_unknown (hexact : Exact settings call s) (hweb : settings.webhooksTopic = true)
    (hinventory : (s.inventory.get? (call.orgId, call.inventoryId)).isSome = true)
    (hnone : ∀ rule ∈ s.rules, rule.ruleId ≠ ruleId) :
    eventsOf call.orgId call.inventoryId ruleId (s.since (after settings call s)) = [] := by
  rcases createDbReports_noFaults s settings call with ⟨-, s', known, heq, hstored⟩ | ⟨-, heq⟩
  · rw [after, heq]
    obtain ⟨inventoryHost, hhost⟩ := Option.isSome_iff_exists.mp hinventory
    obtain ⟨hnew, hresolved⟩ := hexact hweb hinventory s' heq
    obtain ⟨newIds, hnewIds, hnewListed⟩ := listed_of_tells hnew
    obtain ⟨resolvedIds, hresolvedIds, hresolvedListed⟩ := listed_of_tells hresolved
    rw [eventsOf_told hweb hhost hstored, hnewListed, hresolvedListed, if_neg, if_neg]
    · rfl
    · intro hmem
      obtain ⟨rule, hrule, hid⟩ := (hresolvedIds ruleId).mp hmem
      exact hnone rule hrule.1 hid
    · intro hmem
      obtain ⟨rule, hrule, hid⟩ := (hnewIds ruleId).mp hmem
      exact hnone rule hrule.1 hid
  · rw [after, heq, State.since, withHost_sent, List.drop_length]
    rfl

theorem isChain_changed {before now : Bool} {events : List String} (h : events.IsChain (· ≠ ·))
    (hhead : ∀ event ∈ events.head?, changed now (!now) = [event]) :
    (changed before now ++ events).IsChain (· ≠ ·) ∧
      ∀ event ∈ (changed before now ++ events).head?, changed before (!before) = [event] := by
  cases before <;> cases now
  · exact ⟨h, hhead⟩
  · refine ⟨List.isChain_cons.mpr ⟨?_, h⟩, by simp [changed]⟩
    intro event hevent hsame
    have hlater := hhead event hevent
    simp [changed, ← hsame] at hlater
  · refine ⟨List.isChain_cons.mpr ⟨?_, h⟩, by simp [changed]⟩
    intro event hevent hsame
    have hlater := hhead event hevent
    simp [changed, ← hsame] at hlater
  · exact ⟨h, hhead⟩

/-- The events about a rule of a sequence of exact uploads that leave the acks alternate, and the first of them is about
a change of the report that is there. -/
theorem events_alternate (hexact : EachUpload Exact uploads s)
    (hacks : EachUpload (fun settings call s => settings.webhooksTopic = true ∧ (after settings call s).acks = s.acks)
      uploads s) (hinventory : (s.inventory.get? (orgId, host)).isSome = true) (hrule : rule ∈ s.rules)
    (htold : rule.active = true ∧ s.muted orgId host rule = false) :
    (eventsOf orgId host rule.ruleId (s.since (final uploads s))).IsChain (· ≠ ·) ∧
      ∀ event ∈ (eventsOf orgId host rule.ruleId (s.since (final uploads s))).head?,
        changed (s.present orgId host rule) (!s.present orgId host rule) = [event] := by
  induction uploads generalizing s with
  | nil => simp [final, State.since, eventsOf]
  | cons upload rest ih =>
    obtain ⟨settings, call⟩ := upload
    obtain ⟨hfirst, hrest⟩ := hexact
    obtain ⟨⟨hweb, hsame⟩, hlater⟩ := hacks
    obtain ⟨hchain, hhead⟩ := ih hrest hlater (by rw [after_inventory]; exact hinventory)
      (by rw [after_rules]; exact hrule) (by rw [muted_after hsame]; exact htold)
    have hstep : eventsOf orgId host rule.ruleId (s.since (after settings call s)) =
        changed (s.present orgId host rule) ((after settings call s).present orgId host rule) := by
      by_cases hown : call.orgId = orgId ∧ call.inventoryId = host
      · obtain ⟨rfl, rfl⟩ := hown
        rw [eventsOf_own hfirst hweb hinventory hrule, muted_after hsame, htold.1, htold.2]
        rfl
      · rw [eventsOf_other hweb hown, present_other hown]
        cases s.present orgId host rule <;> rfl
    rw [since_final, eventsOf_append, hstep]
    exact isChain_changed hchain hhead

theorem events_none (hexact : EachUpload Exact uploads s)
    (hacks : EachUpload (fun settings call s => settings.webhooksTopic = true ∧ (after settings call s).acks = s.acks)
      uploads s) (hinventory : (s.inventory.get? (orgId, host)).isSome = true)
    (hquiet : ∀ rule ∈ s.rules, rule.ruleId = ruleId → rule.active = true → s.muted orgId host rule = true) :
    eventsOf orgId host ruleId (s.since (final uploads s)) = [] := by
  induction uploads generalizing s with
  | nil => simp [final, State.since, eventsOf]
  | cons upload rest ih =>
    obtain ⟨settings, call⟩ := upload
    obtain ⟨hfirst, hrest⟩ := hexact
    obtain ⟨⟨hweb, hsame⟩, hlater⟩ := hacks
    have hnone := ih hrest hlater (by rw [after_inventory]; exact hinventory) (by
      intro rule hrule
      rw [after_rules] at hrule
      rw [muted_after hsame]
      exact hquiet rule hrule)
    rw [since_final, eventsOf_append, hnone, List.append_nil]
    by_cases hown : call.orgId = orgId ∧ call.inventoryId = host
    · obtain ⟨rfl, rfl⟩ := hown
      by_cases hknown : ∃ rule ∈ s.rules, rule.ruleId = ruleId
      · obtain ⟨rule, hrule, rfl⟩ := hknown
        rw [eventsOf_own hfirst hweb hinventory hrule, muted_after hsame, if_neg]
        intro htold
        rw [Bool.and_eq_true] at htold
        simp [hquiet rule hrule rfl htold.1] at htold
      · push Not at hknown
        exact eventsOf_unknown hfirst hweb hinventory hknown
    · exact eventsOf_other hweb hown

theorem notified_iff (uploads : List (Settings × UploadCall)) (s : State) :
    Notified uploads s ↔ EachUpload Clear uploads s := by
  constructor
  · intro h
    exact (eachUpload_congr fun _ _ _ => exact_iff).mp h.exact
  · intro h
    have hexact := (eachUpload_congr fun _ _ _ => exact_iff).mpr h
    refine ⟨hexact, ?_⟩
    intro hacks orgId host hinventory ruleId
    by_cases htold : ∃ rule ∈ s.rules, rule.ruleId = ruleId ∧ rule.active = true ∧ s.muted orgId host rule = false
    · obtain ⟨rule, hrule, rfl, htold⟩ := htold
      exact (events_alternate hexact hacks hinventory hrule htold).1
    · have hnone : eventsOf orgId host ruleId (s.since (final uploads s)) = [] := by
        refine events_none hexact hacks hinventory ?_
        intro rule hrule hid hactive
        by_contra hmuted
        exact htold ⟨rule, hrule, hid, hactive, by simpa using hmuted⟩
      rw [hnone]
      exact .nil

def State.ackedElsewhere : State := { State.ready with acks := .single ⟨1, none, "5678", "", ""⟩ }

/-- The upload inserts a report of the active rule, which its organisation has not acked, and no message tells of it. -/
theorem notified_ackedElsewhere : ¬ Notified [(notifying, clientUpload [weakKeys])] .ackedElsewhere := by
  intro h
  have hcall : createDbReports notifying noFaults (clientUpload [weakKeys]) .ackedElsewhere =
      (.ok true, after notifying (clientUpload [weakKeys]) .ackedElsewhere) := eq_after (by decide +kernel)
  obtain ⟨⟨ids, -, hids, htold⟩, -⟩ := h.exact.1 rfl rfl _ hcall
  have hmem : hardening.ruleId ∈ ids :=
    (hids _).mpr ⟨hardening, ⟨Table.mem_single.mpr rfl, rfl, by decide +kernel, rfl, by decide +kernel⟩, rfl⟩
  have hnothing : told "new-recommendation" (State.ackedElsewhere.since
      (after notifying (clientUpload [weakKeys]) .ackedElsewhere)) = [] := by decide +kernel
  rw [hnothing, if_neg (List.ne_nil_of_mem hmem)] at htold
  cases htold

end Sequence

end Advisor.Service
