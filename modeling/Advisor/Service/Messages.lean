import Advisor.Service.Effects

/-! The messages of a call. None is sent before the reports are stored; then the hooks and the view event
send theirs, and neither changes a table nor raises. -/

namespace Advisor.Service

open Python Procedure Django Relational

variable {settings : Settings} {faults : Faults} {call : UploadCall}

def published (rules : List Rule) : Bool := rules.all fun rule => rule.publishDate.isSome

variable (settings faults) in
def eventMessages (site : Site) (host : AdvisorInventoryHost) (eventType : String) (rules : List Rule) :
    List Message :=
  if settings.webhooksTopic && !rules.isEmpty && (faults site).isNone then
    [.webhook (newWebhookMessage host eventType (rules.filterMap fun rule => (makeEventStruct settings rule).toOption))]
  else []

variable (settings faults) in
/-- What the hooks send. A rule without a publish date stops them. -/
def hookMessages (host : AdvisorInventoryHost) (acked : List Nat) (reportList : List Rule)
    (dbReports : List StoredReport) : List Message :=
  let new := newReportList acked reportList dbReports
  let resolved := resolvedReportList acked reportList dbReports
  if !published new then []
  else eventMessages settings faults .newEvent host "new-recommendation" new ++
    if !published resolved then []
    else eventMessages settings faults .resolvedEvent host "resolved-recommendation" resolved ++
      if settings.remediationsHookTopic && !reportList.isEmpty && (faults .remediationsEvent).isNone then
        [.remediations host.inventoryId (reportList.map fun rule => "advisor:" ++ rule.ruleId)]
      else []

theorem ruleId_of_event {rule : Rule} {event : ReportEvent}
    (h : (makeEventStruct settings rule).toOption = some event) : event.ruleId = rule.ruleId := by
  cases hdate : rule.publishDate with
  | none => simp [makeEventStruct, hdate, Except.toOption] at h
  | some date =>
    simp only [makeEventStruct, hdate, Except.toOption, Option.some.injEq] at h
    rw [← h]

variable (settings) in
theorem event_of_published {rule : Rule} (h : rule.publishDate.isSome) :
    ∃ event, (makeEventStruct settings rule).toOption = some event := by
  obtain ⟨date, hdate⟩ := Option.isSome_iff_exists.mp h
  exact ⟨_, by simp only [makeEventStruct, hdate, Except.toOption]; rfl⟩

variable (settings) in
theorem mapM_makeEventStruct (rules : List Rule) :
    (published rules = true ∧ rules.mapM (makeEventStruct settings) =
        .ok (rules.filterMap fun rule => (makeEventStruct settings rule).toOption)) ∨
      (published rules = false ∧ ∃ e, rules.mapM (makeEventStruct settings) = .error e) := by
  induction rules with
  | nil => exact Or.inl ⟨rfl, rfl⟩
  | cons rule rest ih =>
    cases hdate : rule.publishDate with
    | none =>
      refine Or.inr ⟨by simp [published, hdate], .attributeError, ?_⟩
      have hraise : makeEventStruct settings rule = .error .attributeError := by simp [makeEventStruct, hdate]
      rw [List.mapM_cons, hraise]
      rfl
    | some date =>
      have hpublished : published (rule :: rest) = published rest := by simp [published, hdate]
      obtain ⟨event, hevent⟩ : ∃ event, makeEventStruct settings rule = .ok event :=
        ⟨_, by simp only [makeEventStruct, hdate]; rfl⟩
      rw [hpublished, List.mapM_cons, hevent, List.filterMap_cons, hevent]
      rcases ih with ⟨hrest, hmap⟩ | ⟨hrest, e, hmap⟩
      · exact Or.inl ⟨hrest, by rw [hmap]; rfl⟩
      · exact Or.inr ⟨hrest, e, by rw [hmap]; rfl⟩

def State.sending (s : State) (messages : List Message) : State := { s with sent := s.sent ++ messages }

@[simp] theorem State.sending_nil (s : State) : s.sending [] = s := by simp [State.sending]

@[simp] theorem State.sending_sending (s : State) (l l' : List Message) :
    (s.sending l).sending l' = s.sending (l ++ l') := by simp [State.sending]

theorem send_eq (site : Site) (message : Message) (s : State) :
    send faults site message s = (.ok (), s.sending (if (faults site).isNone then [message] else [])) := by
  unfold send
  cases hf : faults site with
  | none => rfl
  | some e => simp [State.sending]

variable (settings faults) in
theorem sendEvents_eq (site : Site) (host : AdvisorInventoryHost) (eventType : String) (rules : List Rule)
    (s : State) :
    (published rules = true ∧ sendEvents settings faults site host eventType rules s =
        (.ok (), s.sending (eventMessages settings faults site host eventType rules))) ∨
      (published rules = false ∧ ∃ e, sendEvents settings faults site host eventType rules s = (.error e, s)) := by
  cases rules with
  | nil => exact Or.inl ⟨rfl, by simp [sendEvents, eventMessages]⟩
  | cons rule rest =>
    rcases mapM_makeEventStruct settings (rule :: rest) with ⟨hpublished, hmap⟩ | ⟨hpublished, e, hmap⟩
    · refine Or.inl ⟨hpublished, ?_⟩
      rw [sendEvents, List.isEmpty_cons, if_neg Bool.false_ne_true, hmap, lift_ok_bind, sendWebhookEvent, eventMessages]
      cases hw : settings.webhooksTopic with
      | false => simp
      | true => simp [send_eq]
    · refine Or.inr ⟨hpublished, e, ?_⟩
      rw [sendEvents, List.isEmpty_cons, if_neg Bool.false_ne_true, hmap, lift_error_bind]

theorem triggerReportHooks_state (host : AdvisorInventoryHost) (reportList : List Rule)
    (dbReports : List StoredReport) (s : State) :
    (triggerReportHooks settings faults host reportList dbReports s).2 =
      s.sending (if (faults .ackedRules).isNone then
        hookMessages settings faults host (s.ackedRules host) reportList dbReports else []) := by
  unfold triggerReportHooks
  cases hacked : faults .ackedRules with
  | some e =>
    have hraise : statement faults .ackedRules (read fun s => s.ackedRules host) s = (.error e, s) := by
      rw [statement, hacked]
      rfl
    rw [bind_of_error hraise]
    simp
  | none =>
    rw [statement_of_none hacked, read_bind]
    rcases sendEvents_eq settings faults .newEvent host "new-recommendation"
        (newReportList (s.ackedRules host) reportList dbReports) s with ⟨hnew, heq⟩ | ⟨hnew, e, heq⟩
    · rw [bind_of_ok heq]
      rcases sendEvents_eq settings faults .resolvedEvent host "resolved-recommendation"
          (resolvedReportList (s.ackedRules host) reportList dbReports) (s.sending (eventMessages settings faults .newEvent
            host "new-recommendation" (newReportList (s.ackedRules host) reportList dbReports)))
        with ⟨hresolved, heq'⟩ | ⟨hresolved, e, heq'⟩
      · rw [bind_of_ok heq']
        cases reportList with
        | nil => simp [hookMessages, hnew, hresolved]
        | cons rule rest =>
          cases hr : settings.remediationsHookTopic with
          | false => simp [hookMessages, hnew, hresolved, sendRemediationsEvent, hr]
          | true => simp [hookMessages, hnew, hresolved, sendRemediationsEvent, hr, send_eq]
      · rw [bind_of_error heq']
        simp [hookMessages, hnew, hresolved]
    · rw [bind_of_error heq]
      simp [hookMessages, hnew]

namespace State

variable (s : State) (settings : Settings) (faults : Faults) (call : UploadCall)

def hookMessages (reportList : List Rule) (stored : List StoredReport) : List Message :=
  if settings.webhooksTopic || settings.remediationsHookTopic then
    match faults .inventoryHost, s.inventory.get? (call.orgId, call.inventoryId), faults .ackedRules with
    | none, some host, none => Service.hookMessages settings faults host (s.ackedRules host) reportList stored
    | _, _, _ => []
  else []

def hooksAbort : Bool :=
  (settings.webhooksTopic || settings.remediationsHookTopic) &&
    ((faults .inventoryHost).isSome ||
      (s.inventory.get? (call.orgId, call.inventoryId)).isSome && (faults .ackedRules).isSome)

end State

theorem runHooks_eq (plan : Plan) (s : State) :
    runHooks settings faults call plan s = (.ok (s.hooksAbort settings faults call),
      s.sending (s.hookMessages settings faults call plan.collected.webhookRules plan.known.stored)) := by
  unfold runHooks State.hooksAbort State.hookMessages
  cases htopics : settings.webhooksTopic || settings.remediationsHookTopic with
  | false => simp
  | true =>
    rw [if_pos rfl, if_pos rfl]
    cases hlookup : faults .inventoryHost with
    | some e => simp
    | none =>
      dsimp only
      rw [read_bind]
      cases hfound : s.inventory.get? (call.orgId, call.inventoryId) with
      | none => simp
      | some host =>
        have hcaught : catching (triggerReportHooks settings faults host plan.collected.webhookRules
            plan.known.stored) (fun _ => pure ()) s = (.ok (), (triggerReportHooks settings faults host
              plan.collected.webhookRules plan.known.stored s).2) := by
          unfold catching
          rcases triggerReportHooks settings faults host plan.collected.webhookRules plan.known.stored s with
            ⟨_ | _, s'⟩ <;> rfl
        dsimp only
        rw [bind_of_ok hcaught, triggerReportHooks_state]
        cases hacked : faults .ackedRules <;> simp

def viewMessages (settings : Settings) (faults : Faults) (call : UploadCall) (collected : Collected) : List Message :=
  if settings.inventoryViewTopic && (faults .viewEvent).isNone then
    [.inventoryView call.orgId call.inventoryId (collected.newReports.length + collected.existingReports.length)
      collected.counts]
  else []

theorem sendInventoryViewEvent_eq (plan : Plan) (s : State) :
    sendInventoryViewEvent settings faults call plan s =
      (.ok (), s.sending (viewMessages settings faults call plan.collected)) := by
  unfold sendInventoryViewEvent viewMessages
  cases ht : settings.inventoryViewTopic with
  | false => simp
  | true => simp [send_eq]

/-- A part of a call that sends no message, raising or not. -/
def Silent {α : Type} (p : Run α) : Prop := ∀ s, (p s).2.sent = s.sent

namespace Silent

variable {α β : Type}

theorem bind {p : Run α} {f : α → Run β} (h : Silent p) (hf : ∀ a, Silent (f a)) : Silent (p >>= f) := by
  intro s
  simp only [Bind.bind]
  have hp := h s
  rcases hs : p s with ⟨_ | a, s'⟩
  · rwa [hs] at hp
  · rw [hs] at hp
    exact (hf a s').trans hp

theorem pure (a : α) : Silent (Pure.pure a : Run α) := fun _ => rfl

theorem read (f : State → α) : Silent (Procedure.read f : Run α) := fun _ => rfl

theorem lift (x : Except Exception α) : Silent (Procedure.lift x : Run α) := fun _ => rfl

theorem statement {site : Site} {p : Run α} (h : Silent p) : Silent (statement faults site p) := by
  unfold Service.statement
  cases faults site with
  | none => exact h
  | some e => exact fun _ => rfl

theorem ite {c : Prop} [Decidable c] {p q : Run α} (hp : Silent p) (hq : Silent q) : Silent (if c then p else q) := by
  split_ifs
  · exact hp
  · exact hq

theorem each {l : List α} {body : α → Run Unit} (h : ∀ a, Silent (body a)) : Silent (each l body) := by
  induction l with
  | nil => exact pure ()
  | cons a rest ih => exact bind (h a) fun _ => ih

end Silent

theorem silent_lockHost : Silent (lockHost call) := by
  intro s
  unfold lockHost
  split_ifs <;> rfl

theorem silent_updateOrCreateUpload : Silent (updateOrCreateUpload call) := by
  intro s
  unfold updateOrCreateUpload
  split
  · rfl
  · split_ifs
    · rfl
    · split <;> rfl
  · rfl

theorem silent_selectRules (ruleIds : List String) : Silent (selectRules ruleIds) := by
  intro s
  unfold selectRules
  split_ifs <;> rfl

theorem silent_uploadSource : Silent (uploadSource call) := by
  intro s
  unfold uploadSource
  split_ifs <;> rfl

variable (settings faults call) in
theorem silent_prepare : Silent (prepare settings faults call) := by
  refine .bind (.statement silent_lockHost) fun _ => .bind (.statement (.ite (fun _ => rfl) (.read _))) fun _ =>
    .bind (.statement silent_uploadSource) fun _ =>
    .bind (.statement (.ite silent_updateOrCreateUpload fun _ => rfl)) fun _ =>
    .bind (.lift _) fun _ => .bind (.statement (silent_selectRules _)) fun _ => .bind (.statement (.read _)) fun _ =>
    .bind (.statement (.read _)) fun _ => .bind (.lift _) fun _ => .pure _

theorem silent_insertReports (reports : List CurrentReport) : Silent (insertReports reports) := by
  intro s
  unfold insertReports
  split_ifs
  · split <;> rfl
  · rfl
  · rfl

theorem silent_updateReport (report : CurrentReport) : Silent (updateReport report) := by
  intro s
  unfold updateReport
  split_ifs <;> rfl

variable (faults call) in
theorem silent_store (plan : Plan) : Silent (store faults call plan) :=
  .bind (.ite (.pure _) (.statement (silent_insertReports _))) fun _ =>
    .bind (.each fun _ => .statement (silent_updateReport _)) fun _ =>
      .ite (.pure _) (.statement fun _ => rfl)

end Advisor.Service
