import Advisor.Service.Failure
import Advisor.Service.Notifications
import Mathlib.Data.List.Dedup

/-! The numbers an upload sends to the inventory view: they are taken from its entries as the loop reads them, and
are meant to be those of the reports its host has afterwards. -/

namespace Advisor.Service

open Python Procedure Django Relational

variable {settings : Settings} {faults : Faults} {call : UploadCall} {s s' : State}

def InventoryViewCounts.risks (counts : InventoryViewCounts) : Nat :=
  counts.low + counts.moderate + counts.important + counts.critical

def hasSeverity (rule : Rule) : Bool := 1 ≤ rule.totalRisk && rule.totalRisk ≤ 4

namespace State

variable (s : State) (settings : Settings) (faults : Faults) (call : UploadCall)

def hostReports : List CurrentReport :=
  s.reports.rows.filter fun report => report.host = call.inventoryId && report.orgId = call.orgId

def enabled (rule : Nat) : Bool :=
  !(s.orgDisabledRules call).contains rule && !(s.hostDisabledRules call).contains rule

def rated (rule : Nat) : Bool := s.enabled call rule && (s.rules.get? rule).any hasSeverity

def incident (rule : Nat) : Bool := s.enabled call rule && (s.rules.get? rule).any (·.hasIncident)

/-- The numbers are those of the reports that the host has. -/
structure Counts (recommendations : Nat) (counts : InventoryViewCounts) : Prop where
  recommendations : recommendations = (s.hostReports call).length
  risks : counts.risks = (s.hostReports call).countP fun report => s.rated call report.rule
  incidents : counts.incidents = (s.hostReports call).countP fun report => s.incident call report.rule

/-- The view event of a call that returns `True` tells what the host has then. -/
def CountsReports : Prop :=
  ∀ s', createDbReports settings faults call s = (.ok true, s') →
    ∀ orgId hostId recommendations counts, .inventoryView orgId hostId recommendations counts ∈ s.since s' →
      orgId = call.orgId ∧ hostId = call.inventoryId ∧ s'.Counts call recommendations counts

def reportedIds : List Nat := (s.reported settings call).map (·.rule.id)

def repeatedIds : List Nat := (s.reportedIds settings call).diff (s.reportedIds settings call).dedup

/-- The stored reports of rules that are not reported, but are among the final ones, or unknown: they stay. -/
def unreported : List CurrentReport :=
  (s.hostReports call).filter fun report =>
    !(s.reportedIds settings call).contains report.rule && (s.rules.get? report.rule).all fun rule =>
      (finalRuleIds settings (reportedRuleIds call.reports)).contains rule.ruleId

/-- As many rules with `p` are counted as have a report then. If the hooks have caught an error of the database,
that is the reports stored before. -/
def Balanced (p : Nat → Bool) : Prop :=
  if s.hooksAbort settings faults call then
    (s.reportedIds settings call).countP p = (s.hostReports call).countP fun report => p report.rule
  else
    (s.repeatedIds settings call).countP p = (s.unreported settings call).countP fun report => p report.rule

/-- What a call needs for that, if it sends its view event and commits. -/
def Countable : Prop :=
  s.HostReady faults call → (s.withHost call).Passes settings faults call → faults .commit = none →
    settings.inventoryViewTopic = true → faults .viewEvent = none →
      s.Balanced settings faults call (fun _ => true) ∧
        s.Balanced settings faults call ((s.withHost call).rated call) ∧
          s.Balanced settings faults call ((s.withHost call).incident call)

end State

section Loop

variable {known : Known}

structure Counted (known : Known) (rules : List Rule) (counts counts' : InventoryViewCounts) : Prop where
  risks : counts'.risks = counts.risks +
    rules.countP fun rule => !known.disabled.contains rule.id && hasSeverity rule
  incidents : counts'.incidents = counts.incidents +
    rules.countP fun rule => !known.disabled.contains rule.id && rule.hasIncident

theorem Counted.refl (counts : InventoryViewCounts) : Counted known [] counts counts := ⟨rfl, rfl⟩

theorem Counted.trans {rules rules' : List Rule} {a b c : InventoryViewCounts} (h : Counted known rules a b)
    (h' : Counted known rules' b c) : Counted known (rules ++ rules') a c := by
  refine ⟨?_, ?_⟩
  · rw [h'.risks, h.risks, List.countP_append, Nat.add_assoc]
  · rw [h'.incidents, h.incidents, List.countP_append, Nat.add_assoc]

theorem update_ok {counts counts' : InventoryViewCounts} {rule : Rule} (h : counts.update rule = .ok counts') :
    counts'.risks = counts.risks + (if hasSeverity rule then 1 else 0) ∧
      counts'.incidents = counts.incidents + if rule.hasIncident then 1 else 0 := by
  unfold InventoryViewCounts.update at h
  rcases hr : rule.totalRisk with _ | _ | _ | _ | _ | n <;> rw [hr] at h <;>
    cases hi : rule.hasIncident <;> simp [hi] at h <;>
    simp [← h, InventoryViewCounts.risks, hasSeverity, hr] <;> omega

theorem count_ok {counts counts' : InventoryViewCounts} {rule : Rule} (h : known.count counts rule = .ok counts') :
    Counted known [rule] counts counts' := by
  unfold Known.count at h
  cases hd : known.disabled.contains rule.id with
  | true =>
    rw [hd, if_pos rfl] at h
    obtain rfl := Except.ok.inj h
    refine ⟨?_, ?_⟩
    · rw [List.countP_singleton, hd, Bool.not_true, Bool.false_and]
      rfl
    · rw [List.countP_singleton, hd, Bool.not_true, Bool.false_and]
      rfl
  | false =>
    rw [hd, if_neg Bool.false_ne_true] at h
    obtain ⟨hrisks, hincidents⟩ := update_ok h
    refine ⟨?_, ?_⟩
    · rw [hrisks, List.countP_singleton, hd, Bool.not_false, Bool.true_and]
    · rw [hincidents, List.countP_singleton, hd, Bool.not_false, Bool.true_and]

theorem counted_collect {report : Json} {collected collected' : Collected}
    (h : known.collect call settings collected report = .ok collected') :
    Counted known ((entries known.rules [report]).map (·.rule)) collected.counts collected'.counts := by
  rw [Known.collect, bind_eq_ok] at h
  obtain ⟨found, hfound, h⟩ := h
  rw [entries_singleton hfound]
  cases found with
  | none =>
    obtain rfl := Except.ok.inj h
    exact .refl _
  | some entry =>
    rw [bind_eq_ok] at h
    obtain ⟨counts, hcounts, h⟩ := h
    obtain rfl := Except.ok.inj h
    exact count_ok hcounts

theorem counted_loop {reports : List Json} {collected collected' : Collected}
    (h : reports.foldlM (known.collect call settings) collected = .ok collected') :
    Counted known ((entries known.rules reports).map (·.rule)) collected.counts collected'.counts := by
  induction reports generalizing collected with
  | nil =>
    obtain rfl := Except.ok.inj h
    exact .refl _
  | cons report rest ih =>
    rw [List.foldlM_cons, bind_eq_ok] at h
    obtain ⟨next, hnext, h⟩ := h
    rw [entries_cons, List.map_append]
    exact (counted_collect hnext).trans (ih h)

end Loop

theorem prepare_collects {plan : Plan} (h : prepare settings faults call s = (.ok plan, s')) :
    call.reports.foldlM (plan.known.collect call settings) {} = .ok plan.collected := by
  obtain ⟨_, _, -, h⟩ := bind_ok h
  obtain ⟨_, _, -, h⟩ := bind_ok h
  obtain ⟨_, _, -, h⟩ := bind_ok h
  obtain ⟨_, _, -, h⟩ := bind_ok h
  obtain ⟨_, _, -, h⟩ := bind_ok h
  obtain ⟨_, _, -, h⟩ := bind_ok h
  obtain ⟨_, _, -, h⟩ := bind_ok h
  obtain ⟨_, _, -, h⟩ := bind_ok h
  obtain ⟨collected, _, hcollected, h⟩ := bind_ok h
  obtain ⟨hcollect, -⟩ := lift_ok hcollected
  obtain ⟨rfl, -⟩ := pure_ok h
  exact hcollect

structure Committed (settings : Settings) (faults : Faults) (call : UploadCall) (s s' : State) (plan : Plan) : Prop where
  ready : s.HostReady faults call
  passes : (s.withHost call).Passes settings faults call
  commit : faults .commit = none
  counted : Counted plan.known ((s.reported settings call).map (·.rule)) {} plan.collected.counts
  prepared : ∃ s₁, Prepared settings faults call (s.withHost call) plan s₁
  tables : s'.rules = s.rules ∧ s'.acks = (s.withHost call).acks ∧ s'.hostAcks = s.hostAcks
  reports : ∀ k, s'.reports.get? k =
    if s.hooksAbort settings faults call then s.reports.get? k else s.leaves settings call plan.known k
  sent : ∃ s₂, s'.sent = s.sent ++ plan.messages settings faults call s₂

theorem committed_of_true (h : createDbReports settings faults call s = (.ok true, s')) :
    ∃ plan, Committed settings faults call s s' plan := by
  have hcases := createDbReports_cases s settings faults call
  rw [h] at hcases
  simp only [Prod.mk.injEq, Except.ok.injEq, Bool.true_eq_false, false_and, and_false, false_or, exists_false,
    and_true] at hcases
  obtain ⟨hready, hpasses, hcommit⟩ := hcases
  have hfind : findOrCreateHost faults call s = (.ok (), s.withHost call) := by
    rcases findOrCreateHost_cases s faults call with ⟨-, heq⟩ | ⟨hnot, -⟩ | ⟨hnot, -⟩
    · exact heq
    · exact absurd hready hnot
    · exact absurd hready hnot
  have hfound : catching (do findOrCreateHost faults call; return true) (fun _ => return false) s =
      (.ok true, s.withHost call) := by
    rw [catching, bind_of_ok hfind]
    rfl
  rw [createDbReports, bind_of_ok hfound, if_pos rfl, catching] at h
  rcases htransaction : transaction faults (processUpload settings faults call) (s.withHost call) with ⟨e | _, s₃⟩
  · rw [bind_of_error htransaction] at h
    cases congrArg Prod.fst h
  rw [bind_of_ok htransaction] at h
  obtain rfl : s₃ = s' := congrArg Prod.snd h
  rcases hprocess : processUpload settings faults call (s.withHost call) with ⟨e | aborted, s₂⟩
  · rw [transaction, hprocess] at htransaction
    cases congrArg Prod.fst htransaction
  rw [transaction, hprocess] at htransaction
  simp only [hcommit] at htransaction
  have hs₃ : (if aborted then (s.withHost call).rolledBack s₂ else s₂) = s₃ := congrArg Prod.snd htransaction
  obtain ⟨plan, s₁, hprepare, hprocess⟩ := bind_ok hprocess
  obtain ⟨_, stored, hstore, hprocess⟩ := bind_ok hprocess
  rw [bind_of_ok (runHooks_eq plan stored), bind_of_ok (sendInventoryViewEvent_eq plan _), State.sending_sending]
    at hprocess
  have hp := prepare_ok hprepare
  obtain ⟨-, -, hstored, hget⟩ := store_ok hp hstore
  have haborted : stored.hooksAbort settings faults call = s.hooksAbort settings faults call := by
    rw [hstored, hp.frame]
    simp only [State.hooksAbort, withHost_inventory]
  obtain ⟨rfl, rfl⟩ : stored.hooksAbort settings faults call = aborted ∧
      stored.sending (plan.messages settings faults call stored) = s₂ :=
    ⟨Except.ok.inj (congrArg Prod.fst hprocess), congrArg Prod.snd hprocess⟩
  rw [haborted] at hs₃
  refine ⟨plan, hready, hpasses, hcommit, ?_, ⟨s₁, hp⟩, ?_, ?_, ⟨stored, ?_⟩⟩
  · have hcounted := counted_loop (prepare_collects hprepare)
    have hentries : entries plan.known.rules call.reports = s.reported settings call := by
      rw [hp.known, ← withHost_reported]
      rfl
    rwa [hentries] at hcounted
  · rw [← hs₃]
    split_ifs
    · exact ⟨withHost_rules s call, rfl, withHost_hostAcks s call⟩
    · rw [State.sending, hstored, hp.frame]
      exact ⟨withHost_rules s call, rfl, withHost_hostAcks s call⟩
  · intro k
    rw [← hs₃]
    split_ifs
    · exact congrArg (Table.get? · k) (withHost_reports s call)
    · exact (hget k).trans (withHost_leaves s settings call plan.known k)
  · have hsent : stored.sent = s.sent := by rw [hstored, hp.frame, ← withHost_sent s call]
    rw [← hs₃, ← hsent]
    split_ifs <;> rfl

theorem view_mem_messages {plan : Plan} {orgId : String} {hostId : Uuid} {recommendations : Nat}
    {counts : InventoryViewCounts} :
    .inventoryView orgId hostId recommendations counts ∈ plan.messages settings faults call s ↔
      (settings.inventoryViewTopic = true ∧ faults .viewEvent = none) ∧ orgId = call.orgId ∧
        hostId = call.inventoryId ∧
          recommendations = plan.collected.newReports.length + plan.collected.existingReports.length ∧
            counts = plan.collected.counts := by
  have hevents (site : Site) (host : AdvisorInventoryHost) (eventType : String) (rules : List Rule) :
      .inventoryView orgId hostId recommendations counts ∉ eventMessages settings faults site host eventType rules := by
    unfold eventMessages
    split_ifs <;> simp
  have hhooks : .inventoryView orgId hostId recommendations counts ∉
      s.hookMessages settings faults call plan.collected.webhookRules plan.known.stored := by
    unfold State.hookMessages
    split_ifs
    · split
      · unfold Service.hookMessages
        dsimp only
        split_ifs <;> simp [hevents]
      · simp
    · simp
  rw [Plan.messages, List.mem_append, or_iff_right hhooks, viewMessages]
  cases ht : settings.inventoryViewTopic <;> cases hf : faults .viewEvent <;> simp

section Numbers

theorem mem_hostReports {report : CurrentReport} :
    report ∈ s.hostReports call ↔ s.reports.get? (call.key report.rule) = some report := by
  simp only [State.hostReports, List.mem_filter, Bool.and_eq_true, decide_eq_true_eq]
  rw [Table.get?_eq_some]
  refine and_congr_right fun _ => ?_
  simp only [CurrentReport.key, UploadCall.key, Prod.mk.injEq, true_and]
  exact and_comm

theorem isSome_key {rule : Nat} :
    (s.reports.get? (call.key rule)).isSome ↔ rule ∈ (s.hostReports call).map (·.rule) := by
  rw [List.mem_map, Option.isSome_iff_exists]
  constructor
  · rintro ⟨report, hreport⟩
    have hkey := Table.get?_key hreport
    simp only [CurrentReport.key, UploadCall.key, Prod.mk.injEq] at hkey
    exact ⟨report, mem_hostReports.mpr (by rw [hkey.2.1, hreport]), hkey.2.1⟩
  · rintro ⟨report, hreport, rfl⟩
    exact ⟨report, mem_hostReports.mp hreport⟩

theorem nodup_hostReports (s : State) (call : UploadCall) : ((s.hostReports call).map (·.rule)).Nodup := by
  have hkeys : (s.hostReports call).map CurrentReport.key = ((s.hostReports call).map (·.rule)).map call.key := by
    rw [List.map_map]
    refine List.map_congr_left fun report hreport => ?_
    simp only [State.hostReports, List.mem_filter, Bool.and_eq_true, decide_eq_true_eq] at hreport
    rw [CurrentReport.key, hreport.2.1, hreport.2.2]
    rfl
  have hunique : ((s.hostReports call).map CurrentReport.key).Nodup :=
    s.reports.unique.sublist (List.filter_sublist.map _)
  rw [hkeys] at hunique
  exact hunique.of_map _

/-- A stored report stays exactly if the id of its rule is among the final ones, or its rule is unknown. -/
theorem stays_iff {report : CurrentReport} (hreport : report ∈ s.hostReports call) :
    resolves s settings call report = false ↔
      (s.rules.get? report.rule).all fun rule =>
        (finalRuleIds settings (reportedRuleIds call.reports)).contains rule.ruleId := by
  have hget := mem_hostReports.mp hreport
  cases hrule : s.rules.get? report.rule with
  | none =>
    rw [resolves_eq (Table.get?_key hget), hrule]
    simp
  | some rule =>
    obtain ⟨hknown, hid⟩ := Table.get?_eq_some.mp hrule
    rw [← hid] at hget
    rw [← Bool.not_eq_true, resolves_stored hknown hget, not_not, Option.all_some, List.contains_iff_mem]

theorem mem_unreported {rule : Nat} (hnot : rule ∉ s.reportedIds settings call) :
    rule ∈ (s.unreported settings call).map (·.rule) ↔
      ((s.reports.get? (call.key rule)).filter fun row => !resolves s settings call row).isSome := by
  rw [Option.isSome_iff_exists]
  simp only [Option.filter_eq_some_iff, Bool.not_eq_true', State.unreported, List.mem_map, List.mem_filter,
    Bool.and_eq_true]
  constructor
  · rintro ⟨report, ⟨hreport, -, hstays⟩, rfl⟩
    exact ⟨report, mem_hostReports.mp hreport, (stays_iff hreport).mpr hstays⟩
  · rintro ⟨report, hget, hstays⟩
    have hkey := Table.get?_key hget
    simp only [CurrentReport.key, UploadCall.key, Prod.mk.injEq] at hkey
    obtain ⟨-, rfl, -⟩ := hkey
    have hreport := mem_hostReports.mpr hget
    exact ⟨report, ⟨hreport, by simpa using hnot, (stays_iff hreport).mp hstays⟩, rfl⟩

theorem hostReports_perm {known : Known} (hstores : s.Stores settings call)
    (h : ∀ k, s'.reports.get? k = s.leaves settings call known k) :
    ((s'.hostReports call).map (·.rule)).Perm
      ((s.reportedIds settings call).dedup ++ (s.unreported settings call).map (·.rule)) := by
  refine (List.perm_ext_iff_of_nodup (nodup_hostReports s' call) ?_).mpr fun rule => ?_
  · refine (List.nodup_dedup _).append ((nodup_hostReports s call).sublist (List.filter_sublist.map _)) ?_
    intro rule hreported hstays
    obtain ⟨report, hreport, rfl⟩ := List.mem_map.mp hstays
    simp only [State.unreported, List.mem_filter, Bool.and_eq_true, Bool.not_eq_true'] at hreport
    exact absurd (List.mem_dedup.mp hreported) (by simpa using hreport.2.1)
  · rw [← isSome_key, h, List.mem_append, List.mem_dedup]
    by_cases hreported : rule ∈ s.reportedIds settings call
    · refine iff_of_true ?_ (Or.inl hreported)
      obtain ⟨entry, hentry, rfl⟩ := List.mem_map.mp hreported
      rcases leaves_reported known hstores hentry with ⟨report, hleaves, -⟩ | ⟨old, -, -, hleaves⟩ <;>
        rw [hleaves] <;> rfl
    · rw [or_iff_right hreported, mem_unreported hreported, leaves_unreported known]
      intro entry hentry hid
      exact hreported (List.mem_map.mpr ⟨entry, hentry, hid⟩)

/-- Entries and reports are as many of a kind exactly if the repeated entries and the reports that stay are. -/
theorem countP_hostReports {known : Known} (hstores : s.Stores settings call)
    (h : ∀ k, s'.reports.get? k = s.leaves settings call known k) (p : Nat → Bool) :
    (s.reportedIds settings call).countP p = ((s'.hostReports call).countP fun report => p report.rule) ↔
      (s.repeatedIds settings call).countP p = (s.unreported settings call).countP fun report => p report.rule := by
  have hleft := (hostReports_perm hstores h).countP_eq p
  have hsplit : ((s.reportedIds settings call).dedup ++ s.repeatedIds settings call).Perm (s.reportedIds settings call) :=
    List.subperm_append_diff_self_of_count_le fun rule _ => (List.dedup_sublist _).count_le rule
  have hreported := hsplit.countP_eq p
  rw [List.countP_append, List.countP_map, List.countP_map] at hleft
  rw [List.countP_append] at hreported
  simp only [Function.comp_def] at hleft
  omega

/-- What is told of the reports of a kind is right exactly if the kind is balanced. -/
theorem balanced_iff {plan : Plan} (h : Committed settings faults call s s' plan) (p : Nat → Bool) :
    (s.reportedIds settings call).countP p = ((s'.hostReports call).countP fun report => p report.rule) ↔
      s.Balanced settings faults call p := by
  unfold State.Balanced
  have hget := h.reports
  split_ifs with haborted
  · simp only [haborted, if_true] at hget
    have hsame : ((s'.hostReports call).map (·.rule)).Perm ((s.hostReports call).map (·.rule)) := by
      refine (List.perm_ext_iff_of_nodup (nodup_hostReports s' call) (nodup_hostReports s call)).mpr fun rule => ?_
      rw [← isSome_key, ← isSome_key, hget]
    have hcount := hsame.countP_eq p
    rw [List.countP_map, List.countP_map] at hcount
    simp only [Function.comp_def] at hcount
    rw [hcount]
  · simp only [haborted, Bool.false_eq_true, if_false] at hget
    exact countP_hostReports ((withHost_stores s settings call).mp h.passes.stores) hget p

theorem Committed.length {plan : Plan} (h : Committed settings faults call s s' plan) :
    plan.collected.newReports.length + plan.collected.existingReports.length =
      (s.reportedIds settings call).length := by
  obtain ⟨s₁, hp⟩ := h.prepared
  rw [hp.newReports, hp.existingReports, List.length_map, List.length_map, withHost_newEntries,
    withHost_existingEntries, State.reportedIds, List.length_map, State.newEntries, State.existingEntries, Nat.add_comm]
  exact (List.length_eq_length_filter_add _).symm

theorem Committed.disabled {plan : Plan} (h : Committed settings faults call s s' plan) (rule : Nat) :
    plan.known.disabled.contains rule = !(s.withHost call).enabled call rule := by
  obtain ⟨s₁, hp⟩ := h.prepared
  rw [hp.known, State.enabled]
  simp [State.known]

theorem countP_reportedIds (p : Rule → Bool) {q : Nat → Bool} (enabled : Nat → Bool)
    (hq : ∀ rule, q rule = (enabled rule && (s.rules.get? rule).any p)) :
    ((s.reported settings call).map (·.rule)).countP (fun rule => enabled rule.id && p rule) =
      (s.reportedIds settings call).countP q := by
  rw [State.reportedIds, List.countP_map, List.countP_map]
  refine List.countP_congr fun entry hentry => ?_
  obtain ⟨hrule, -⟩ := entry_of_mem hentry
  have hget : s.rules.get? entry.rule.id = some entry.rule := Table.get?_eq_some.mpr ⟨hrule, rfl⟩
  simp [hq, hget]

theorem counts_iff {plan : Plan} (h : Committed settings faults call s s' plan) :
    s'.Counts call (plan.collected.newReports.length + plan.collected.existingReports.length) plan.collected.counts ↔
      s.Balanced settings faults call (fun _ => true) ∧
        s.Balanced settings faults call ((s.withHost call).rated call) ∧
          s.Balanced settings faults call ((s.withHost call).incident call) := by
  obtain ⟨hrules, hacks, hhostAcks⟩ := h.tables
  have henabled : s'.enabled call = (s.withHost call).enabled call := by
    funext rule
    simp only [State.enabled, State.orgDisabledRules, State.hostDisabledRules, hacks, hhostAcks, withHost_hostAcks]
  have hrated : s'.rated call = (s.withHost call).rated call := by
    funext rule
    simp only [State.rated, henabled, hrules, withHost_rules]
  have hincident : s'.incident call = (s.withHost call).incident call := by
    funext rule
    simp only [State.incident, henabled, hrules, withHost_rules]
  have hrisks : plan.collected.counts.risks = (s.reportedIds settings call).countP ((s.withHost call).rated call) := by
    rw [h.counted.risks, ← countP_reportedIds hasSeverity ((s.withHost call).enabled call)]
    · simp only [h.disabled, Bool.not_not]
      exact Nat.zero_add _
    · intro rule
      rw [State.rated, withHost_rules]
  have hincidents : plan.collected.counts.incidents =
      (s.reportedIds settings call).countP ((s.withHost call).incident call) := by
    rw [h.counted.incidents, ← countP_reportedIds (·.hasIncident) ((s.withHost call).enabled call)]
    · simp only [h.disabled, Bool.not_not]
      exact Nat.zero_add _
    · intro rule
      rw [State.incident, withHost_rules]
  have hall : (s.reportedIds settings call).length = (s'.hostReports call).length ↔
      s.Balanced settings faults call (fun _ => true) := by
    rw [← balanced_iff h, List.countP_true, List.countP_true]
  constructor
  · rintro ⟨hn, hr, hi⟩
    rw [h.length] at hn
    rw [hrisks, hrated] at hr
    rw [hincidents, hincident] at hi
    exact ⟨hall.mp hn, (balanced_iff h _).mp hr, (balanced_iff h _).mp hi⟩
  · rintro ⟨hn, hr, hi⟩
    refine ⟨h.length.trans (hall.mpr hn), ?_, ?_⟩
    · rw [hrisks, hrated]
      exact (balanced_iff h _).mpr hr
    · rw [hincidents, hincident]
      exact (balanced_iff h _).mpr hi

end Numbers

theorem countsReports_iff (settings : Settings) (faults : Faults) (call : UploadCall) (s : State) :
    s.CountsReports settings faults call ↔ s.Countable settings faults call := by
  have hsince {s' : State} {plan : Plan} (h : Committed settings faults call s s' plan) :
      ∃ s₂, s.since s' = plan.messages settings faults call s₂ := by
    obtain ⟨s₂, hsent⟩ := h.sent
    exact ⟨s₂, by rw [State.since, hsent, List.drop_left]⟩
  constructor
  · intro hcounts hready hpasses hcommit htopic hview
    obtain ⟨s', hcall⟩ : ∃ s', createDbReports settings faults call s = (.ok true, s') := by
      rcases createDbReports_cases s settings faults call with ⟨hnot, -⟩ | ⟨hnot, -⟩ | ⟨-, hnot, -⟩ | ⟨-, -, hnot, -⟩ |
        ⟨-, -, -, heq⟩
      · exact absurd hready hnot
      · exact absurd hready hnot
      · exact absurd hpasses hnot
      · exact absurd hcommit hnot
      · exact ⟨_, Prod.ext heq rfl⟩
    obtain ⟨plan, h⟩ := committed_of_true hcall
    obtain ⟨s₂, hmessages⟩ := hsince h
    refine (counts_iff h).mp (hcounts s' hcall call.orgId call.inventoryId _ _ ?_).2.2
    rw [hmessages]
    exact view_mem_messages.mpr ⟨⟨htopic, hview⟩, rfl, rfl, rfl, rfl⟩
  · intro h s' hcall orgId hostId recommendations counts hmem
    obtain ⟨plan, hcommitted⟩ := committed_of_true hcall
    obtain ⟨s₂, hmessages⟩ := hsince hcommitted
    rw [hmessages] at hmem
    obtain ⟨⟨htopic, hview⟩, horg, hhost, rfl, rfl⟩ := view_mem_messages.mp hmem
    exact ⟨horg, hhost, (counts_iff hcommitted).mpr
      (h hcommitted.ready hcommitted.passes hcommitted.commit htopic hview)⟩

def State.weakKeysReported : State := after notifying (clientUpload [weakKeys]) .ready

/-- An entry that is there twice is counted twice, once its rule has a report. -/
theorem countsReports_repeated :
    ¬ State.weakKeysReported.CountsReports notifying noFaults (clientUpload [weakKeys, weakKeys]) := by
  intro h
  have htrue : (createDbReports notifying noFaults (clientUpload [weakKeys, weakKeys]) .weakKeysReported).1 =
      .ok true := by decide +kernel
  have hsent : .inventoryView "1234" 7 2 ⟨0, 0, 0, 2, 0⟩ ∈ State.weakKeysReported.since
      (after notifying (clientUpload [weakKeys, weakKeys]) .weakKeysReported) := by decide +kernel
  have hone : ((after notifying (clientUpload [weakKeys, weakKeys]) .weakKeysReported).hostReports
      (clientUpload [weakKeys, weakKeys])).length = 1 := by decide +kernel
  obtain ⟨-, -, hcounts⟩ := h _ (Prod.ext htrue rfl) "1234" 7 2 ⟨0, 0, 0, 2, 0⟩ hsent
  exact absurd (hcounts.recommendations.trans hone) (by decide)

end Advisor.Service
