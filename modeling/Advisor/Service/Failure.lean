import Advisor.Service.Call

/-! When a call that fails leaves no trace. The host and the acks before it are written outside the transaction,
and the messages are sent inside it. -/

namespace Advisor.Service

open Python Procedure Django Relational

variable {settings : Settings} {faults : Faults} {call : UploadCall} {s : State}

structure Untouched (s s' : State) : Prop where
  hosts : s'.hosts.Same s.hosts
  acks : s'.acks.Same s.acks
  uploads : s'.uploads.Same s.uploads
  reports : s'.reports.Same s.reports
  sent : s'.sent = s.sent

theorem Untouched.refl (s : State) : Untouched s s := ⟨.refl _, .refl _, .refl _, .refl _, rfl⟩

/-- A call that returns `False` leaves no trace. -/
def NoTrace (settings : Settings) (faults : Faults) (call : UploadCall) (s : State) : Prop :=
  (createDbReports settings faults call s).1 = .ok false → Untouched s (createDbReports settings faults call s).2

def State.KeepsHost (s : State) (call : UploadCall) : Prop :=
  ∃ host, s.hosts.get? call.inventoryId = some host ∧ call.updateHost host = host

def announces (settings : Settings) (faults : Faults) (acked : List Nat) (reportList : List Rule)
    (dbReports : List StoredReport) : Bool :=
  let new := newReportList acked reportList dbReports
  let resolved := resolvedReportList acked reportList dbReports
  published new &&
    (settings.webhooksTopic && !new.isEmpty && (faults .newEvent).isNone ||
      published resolved &&
        (settings.webhooksTopic && !resolved.isEmpty && (faults .resolvedEvent).isNone ||
          settings.remediationsHookTopic && !reportList.isEmpty && (faults .remediationsEvent).isNone))

def State.sends (s : State) (settings : Settings) (faults : Faults) (call : UploadCall) : Bool :=
  settings.inventoryViewTopic && (faults .viewEvent).isNone ||
    (settings.webhooksTopic || settings.remediationsHookTopic) && (faults .inventoryHost).isNone &&
      (faults .ackedRules).isNone && (s.inventory.get? (call.orgId, call.inventoryId)).any fun host =>
        announces settings faults (s.ackedRules host) ((s.reported settings call).map (·.rule)) (s.storedReports call)

/-- What keeps a failing call from leaving a trace. -/
structure State.Contained (s : State) (settings : Settings) (faults : Faults) (call : UploadCall) : Prop where
  acks : ¬ s.AcksStay faults call
  host : s.HostReady faults call →
    ((s.withHost call).Passes settings faults call → faults .commit ≠ none) → s.KeepsHost call
  messages : s.HostReady faults call → (s.withHost call).Passes settings faults call → faults .commit ≠ none →
    (s.withHost call).sends settings faults call = false

theorem hookMessages_eq_nil (host : AdvisorInventoryHost) (acked : List Nat) (reportList : List Rule)
    (dbReports : List StoredReport) :
    hookMessages settings faults host acked reportList dbReports = [] ↔
      announces settings faults acked reportList dbReports = false := by
  have hevents (site : Site) (eventType : String) (rules : List Rule) :
      eventMessages settings faults site host eventType rules = [] ↔
        (settings.webhooksTopic && !rules.isEmpty && (faults site).isNone) = false := by
    unfold eventMessages
    split_ifs with h <;> simp [h]
  unfold hookMessages announces
  dsimp only
  cases published (newReportList acked reportList dbReports) with
  | false => simp
  | true =>
    rw [Bool.not_true, if_neg Bool.false_ne_true, List.append_eq_nil_iff, hevents, Bool.true_and, Bool.or_eq_false_iff]
    refine and_congr_right fun _ => ?_
    cases published (resolvedReportList acked reportList dbReports) with
    | false => simp
    | true =>
      rw [Bool.not_true, if_neg Bool.false_ne_true, List.append_eq_nil_iff, hevents, Bool.true_and,
        Bool.or_eq_false_iff]
      refine and_congr_right fun _ => ?_
      split_ifs with h <;> simp [h]

theorem messages_eq_nil {s₂ : State} {plan : Plan}
    (hrules : plan.collected.webhookRules = if settings.webhooksTopic || settings.remediationsHookTopic then
      (s.reported settings call).map (·.rule) else [])
    (hstored : plan.known.stored = s.storedReports call) (hinventory : s₂.inventory = s.inventory)
    (hacks : s₂.acks = s.acks) (hhostAcks : s₂.hostAcks = s.hostAcks) :
    plan.messages settings faults call s₂ = [] ↔ s.sends settings faults call = false := by
  have hacked : s₂.ackedRules = s.ackedRules := by
    funext host
    rw [State.ackedRules, State.ackedRules, hacks, hhostAcks]
  have hview : viewMessages settings faults call plan.collected = [] ↔
      (settings.inventoryViewTopic && (faults .viewEvent).isNone) = false := by
    unfold viewMessages
    split_ifs with h <;> simp [h]
  rw [Plan.messages, List.append_eq_nil_iff, hview, State.sends, Bool.or_eq_false_iff, and_comm]
  refine and_congr_right fun _ => ?_
  rw [State.hookMessages, hrules, hstored, hinventory, hacked]
  cases settings.webhooksTopic || settings.remediationsHookTopic with
  | false => simp
  | true =>
    simp only [if_true, Bool.true_and]
    cases faults .inventoryHost with
    | some e => simp
    | none =>
      cases faults .ackedRules with
      | some e => simp
      | none =>
        cases s.inventory.get? (call.orgId, call.inventoryId) with
        | none => simp
        | some host => simp [hookMessages_eq_nil]

theorem untouched_withHost (hidentified : s.hosts.get? call.inventoryId = none → call.identified = true)
    (messages : List Message) :
    Untouched s ((s.withHost call).sending messages) ↔ s.KeepsHost call ∧ messages = [] := by
  have hsent : ((s.withHost call).sending messages).sent = s.sent ++ messages := by
    rw [State.sending, withHost_sent]
  constructor
  · intro h
    have hhosts : (s.withHost call).hosts.Same s.hosts := h.hosts
    have hget := Table.same_iff_get?.mp hhosts call.inventoryId
    refine ⟨?_, by simpa [hsent] using h.sent⟩
    obtain ⟨host, hhost⟩ := Option.isSome_iff_exists.mp (withHost_host s call hidentified)
    rw [hhost] at hget
    refine ⟨host, hget.symm, ?_⟩
    rw [State.withHost, ← hget] at hhost
    dsimp only at hhost
    split_ifs at hhost with hupdates
    · rw [updateHostRow, Table.get?_updateWhere, ← hget] at hhost
      simpa [overwriteHost, UploadCall.updateHost] using hhost
    · simp [UploadCall.updatesHost] at hupdates
      simp [UploadCall.updateHost, hupdates]
  · rintro ⟨⟨host, hhost, hkeeps⟩, rfl⟩
    rw [State.sending_nil, State.withHost, hhost]
    dsimp only
    split_ifs
    · refine ⟨?_, .refl _, .refl _, .refl _, rfl⟩
      rw [hkeeps, Table.same_iff_get?]
      intro k
      rw [updateHostRow, Table.get?_updateWhere]
      cases hk : s.hosts.get? k with
      | none => rfl
      | some row =>
        by_cases hid : row.inventoryId = host.inventoryId
        · obtain rfl := s.hosts.key_injOn (Table.get?_eq_some.mp hk).1 (Table.get?_eq_some.mp hhost).1 hid
          simp [overwriteHost]
        · simp [hid]
    · exact .refl s

theorem not_untouched_withAcks (h : s.newAcks call ≠ []) : ¬ Untouched s (s.withAcks call) := by
  intro huntouched
  obtain ⟨ack, rest, hack⟩ := List.exists_cons_of_ne_nil h
  obtain ⟨acks, hacks⟩ := Option.isSome_iff_exists.mp (insertMany?_newAcks s call)
  have hnone : s.acks.get? ack.key = none :=
    (Table.insertMany?_isSome.mp (insertMany?_newAcks s call)).2 ack (by simp [hack])
  have hsome : (acks.get? ack.key).isSome := by
    rw [Table.get?_insertMany? hacks, hack]
    simp
  have hsame : (s.withAcks call).acks.Same s.acks := huntouched.acks
  rw [State.withAcks, hacks] at hsame
  rw [Table.same_iff_get?.mp hsame, hnone] at hsome
  cases hsome

/-- What a call does, by how far it gets. -/
theorem createDbReports_cases (s : State) (settings : Settings) (faults : Faults) (call : UploadCall) :
    (¬ s.HostReady faults call ∧ s.AcksStay faults call ∧
        createDbReports settings faults call s = (.ok false, s.withAcks call)) ∨
      (¬ s.HostReady faults call ∧ ¬ s.AcksStay faults call ∧
        createDbReports settings faults call s = (.ok false, s)) ∨
      (s.HostReady faults call ∧ ¬ (s.withHost call).Passes settings faults call ∧
        createDbReports settings faults call s = (.ok false, s.withHost call)) ∨
      (s.HostReady faults call ∧ (s.withHost call).Passes settings faults call ∧ faults .commit ≠ none ∧
        ∃ messages, createDbReports settings faults call s = (.ok false, (s.withHost call).sending messages) ∧
          (messages = [] ↔ (s.withHost call).sends settings faults call = false)) ∨
      (s.HostReady faults call ∧ (s.withHost call).Passes settings faults call ∧ faults .commit = none ∧
        (createDbReports settings faults call s).1 = .ok true) := by
  rcases findOrCreateHost_cases s faults call with ⟨hready, heq⟩ | ⟨hready, hstay, e, heq⟩ | ⟨hready, hstay, e, heq⟩
  · rw [createDbReports_of_ok heq, catching]
    rcases processUpload_cases (s.withHost call) settings faults call with
      ⟨hpasses, plan, s₁, s₂, hp, hstore, hprocess⟩ | ⟨hnot, e, s', hprocess, hsent⟩
    · obtain ⟨-, -, hs₂, -⟩ := store_ok hp hstore
      cases hcommit : faults .commit with
      | some e =>
        refine Or.inr (Or.inr (Or.inr (Or.inl ⟨hready, hpasses, by simp,
          plan.messages settings faults call s₂, ?_, ?_⟩)))
        · have htransaction : transaction faults (processUpload settings faults call) (s.withHost call) =
              (.error e, (s.withHost call).sending (plan.messages settings faults call s₂)) := by
            have hsent : s₂.sent = (s.withHost call).sent := by rw [hs₂, hp.frame]
            rw [transaction, hprocess]
            simp only [hcommit, State.rolledBack, State.sending, hsent]
          rw [bind_of_error htransaction]
          rfl
        · refine messages_eq_nil ?_ ?_ (by rw [hs₂, hp.frame]) (by rw [hs₂, hp.frame]) (by rw [hs₂, hp.frame])
          · rw [hp.adds.webhookRules, hp.known]
            rfl
          · rw [hp.known]
            rfl
      | none =>
        refine Or.inr (Or.inr (Or.inr (Or.inr ⟨hready, hpasses, rfl, ?_⟩)))
        have htransaction : ∃ s', transaction faults (processUpload settings faults call) (s.withHost call) =
            (.ok (), s') := by
          rw [transaction, hprocess]
          simp only [hcommit]
          exact ⟨_, rfl⟩
        obtain ⟨s', hs'⟩ := htransaction
        rw [bind_of_ok hs']
        rfl
    · refine Or.inr (Or.inr (Or.inl ⟨hready, hnot, ?_⟩))
      have htransaction : transaction faults (processUpload settings faults call) (s.withHost call) =
          (.error e, s.withHost call) := by
        rw [transaction, hprocess]
        simp only [State.rolledBack, hsent]
      rw [bind_of_error htransaction]
      rfl
  · exact Or.inl ⟨hready, hstay, createDbReports_of_error heq⟩
  · exact Or.inr (Or.inl ⟨hready, hstay, createDbReports_of_error heq⟩)

theorem noTrace_iff (s : State) (settings : Settings) (faults : Faults) (call : UploadCall) :
    NoTrace settings faults call s ↔ s.Contained settings faults call := by
  have hnot : s.HostReady faults call → ¬ s.AcksStay faults call := by
    intro hready hstay
    rcases hstay.save with h | h
    · exact h (hready.update fun hs => by simp [hstay.host] at hs)
    · exact h (hready.insert hstay.host).2
  unfold NoTrace
  rcases createDbReports_cases s settings faults call with ⟨-, hstay, heq⟩ | ⟨hready, hstay, heq⟩ |
      ⟨hready, hfails, heq⟩ | ⟨hready, hpasses, hcommit, messages, heq, hnone⟩ | ⟨hready, hpasses, hcommit, heq⟩
  · rw [heq]
    refine iff_of_false (fun h => not_untouched_withAcks hstay.acks (h rfl)) fun h => h.acks hstay
  · rw [heq]
    exact iff_of_true (fun _ => .refl s) ⟨hstay, fun h => absurd h hready, fun h => absurd h hready⟩
  · have huntouched : Untouched s ((s.withHost call).sending []) ↔ s.KeepsHost call ∧ _ :=
      untouched_withHost hready.identified []
    rw [State.sending_nil] at huntouched
    rw [heq]
    constructor
    · intro h
      exact ⟨hnot hready, fun _ _ => (huntouched.mp (h rfl)).1, fun _ hp => absurd hp hfails⟩
    · intro h _
      exact huntouched.mpr ⟨h.host hready fun hp => absurd hp hfails, rfl⟩
  · rw [heq]
    constructor
    · intro h
      obtain ⟨hkeeps, hnil⟩ := (untouched_withHost hready.identified messages).mp (h rfl)
      exact ⟨hnot hready, fun _ _ => hkeeps, fun _ _ _ => hnone.mp hnil⟩
    · intro h _
      exact (untouched_withHost hready.identified messages).mpr ⟨h.host hready fun _ => hcommit,
        hnone.mpr (h.messages hready hpasses hcommit)⟩
  · refine iff_of_true (fun h => ?_) ⟨hnot hready, fun _ h => absurd hcommit (h hpasses), fun _ _ h => absurd hcommit h⟩
    rw [heq] at h
    cases h

/-- The host of an upload with a malformed entry stays. -/
theorem noTrace_badEntry : ¬ NoTrace notifying noFaults (clientUpload [.dict []]) .empty := by
  intro h
  have huntouched := h (by decide +kernel)
  have hnone : State.empty.hosts.get? 7 = none := rfl
  rw [← Table.same_iff_get?.mp huntouched.hosts 7] at hnone
  exact absurd hnone (by decide +kernel)

end Advisor.Service
