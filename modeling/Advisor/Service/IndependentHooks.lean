import Advisor.Service.Call

/-! The three messages of the hooks: when each of them is sent whatever becomes of the other two. -/

namespace Advisor.Service

open Python Procedure Django Relational

variable (settings : Settings) (faults : Faults) (host : AdvisorInventoryHost)

/-- What a message about some rules sends by itself: nothing where it cannot be built. -/
def ownEvents (site : Site) (eventType : String) (rules : List Rule) : List Message :=
  if published rules then eventMessages settings faults site host eventType rules else []

def ownRemediations (reportList : List Rule) : List Message :=
  if settings.remediationsHookTopic && !reportList.isEmpty && (faults .remediationsEvent).isNone then
    [.remediations host.inventoryId (reportList.map fun rule => "advisor:" ++ rule.ruleId)]
  else []

/-- The hooks do not raise, and each message is sent as it is by itself. -/
def IndependentHooks (reportList : List Rule) (dbReports : List StoredReport) (s : State) : Prop :=
  triggerReportHooks settings faults host reportList dbReports s =
    (.ok (), s.sending (ownEvents settings faults host .newEvent "new-recommendation"
        (newReportList (s.ackedRules host) reportList dbReports) ++
      (ownEvents settings faults host .resolvedEvent "resolved-recommendation"
          (resolvedReportList (s.ackedRules host) reportList dbReports) ++
        ownRemediations settings faults host reportList)))

variable {settings faults host} {reportList : List Rule} {dbReports : List StoredReport} {s : State}

theorem sendEvents_of_published {site : Site} {eventType : String} {rules : List Rule} (h : published rules = true) :
    sendEvents settings faults site host eventType rules s =
      (.ok (), s.sending (ownEvents settings faults host site eventType rules)) := by
  rcases sendEvents_eq settings faults site host eventType rules s with ⟨-, hsent⟩ | ⟨hnot, -⟩
  · rw [hsent, ownEvents, if_pos h]
  · rw [h] at hnot
    cases hnot

theorem published_of_sendEvents {site : Site} {eventType : String} {rules : List Rule} {s' : State}
    (h : sendEvents settings faults site host eventType rules s = (.ok (), s')) : published rules = true := by
  rcases sendEvents_eq settings faults site host eventType rules s with ⟨hpublished, -⟩ | ⟨-, e, hraise⟩
  · exact hpublished
  · cases congrArg Prod.fst (h.symm.trans hraise)

theorem sendRemediations_eq (s : State) :
    (if reportList.isEmpty then pure () else sendRemediationsEvent settings faults host.inventoryId
        (reportList.map fun rule => "advisor:" ++ rule.ruleId) : Run Unit) s =
      (.ok (), s.sending (ownRemediations settings faults host reportList)) := by
  cases reportList with
  | nil => simp [ownRemediations]
  | cons rule rest =>
    cases htopic : settings.remediationsHookTopic with
    | false => simp [ownRemediations, sendRemediationsEvent, htopic]
    | true => simp [ownRemediations, sendRemediationsEvent, htopic, send_eq]

/-- A message that cannot be built raises, and so does the query for the acks. -/
theorem independentHooks_iff :
    IndependentHooks settings faults host reportList dbReports s ↔
      faults .ackedRules = none ∧ published (newReportList (s.ackedRules host) reportList dbReports) = true ∧
        published (resolvedReportList (s.ackedRules host) reportList dbReports) = true := by
  constructor
  · intro h
    unfold IndependentHooks triggerReportHooks at h
    obtain ⟨acked, s₁, hacked, h⟩ := run_bind_eq_ok.mp h
    obtain ⟨_, s₂, hnew, h⟩ := run_bind_eq_ok.mp h
    obtain ⟨_, s₃, hresolved, -⟩ := run_bind_eq_ok.mp h
    have hnone : faults .ackedRules = none := by
      cases hfault : faults .ackedRules with
      | none => rfl
      | some e =>
        rw [statement, hfault] at hacked
        cases congrArg Prod.fst hacked
    rw [statement_of_none hnone] at hacked
    obtain ⟨rfl, rfl⟩ : s.ackedRules host = acked ∧ s = s₁ := by simpa [Procedure.read] using hacked
    exact ⟨hnone, published_of_sendEvents hnew, published_of_sendEvents hresolved⟩
  · rintro ⟨hacked, hnew, hresolved⟩
    unfold IndependentHooks triggerReportHooks
    rw [statement_of_none hacked, read_bind, bind_of_ok (sendEvents_of_published hnew),
      bind_of_ok (sendEvents_of_published hresolved), sendRemediations_eq, State.sending_sending, State.sending_sending]

def readyHost : AdvisorInventoryHost := ⟨"1234", 7, 0, []⟩

/-- A rule without a publish date keeps all messages from being sent. -/
theorem undated_rule_stops_hooks :
    ¬IndependentHooks notifying noFaults readyHost [{ hardening with publishDate := none }] [] State.ready := by
  intro h
  have hraises : (triggerReportHooks notifying noFaults readyHost [{ hardening with publishDate := none }] []
      State.ready).1.toOption = none := by decide +kernel
  rw [h] at hraises
  cases hraises

end Advisor.Service
