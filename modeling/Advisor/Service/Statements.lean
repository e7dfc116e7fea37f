import Advisor.Python.Block
import Advisor.Service.Call

/-! An upload at its statements: those before the lock, each a transaction of its own, and those of the transaction
that holds it. -/

namespace Advisor.Service

open Python Procedure Django Relational

variable (settings : Settings) (call : UploadCall)

/-- The next statement of an upload that has no lock yet. -/
inductive Stage where
  | hostLookup
  | orgUploads
  | autoackRules
  | ackInsert (rules : List Rule)
  | hostUpdate
  | hostInsert
  | hostSave (host : Host)
  | lock

def Stage.next : Stage → Run Stage
  | .hostLookup =>
    read fun s =>
      match s.hosts.get? call.inventoryId with
      | none => .orgUploads
      | some host => if call.updatesHost then .hostSave host else .lock
  | .orgUploads =>
    call.selecting (read fun s =>
      if s.uploads.rows.any fun upload => upload.orgId = call.orgId && upload.current then .hostUpdate
      else .autoackRules)
  | .autoackRules =>
    read fun s => if s.autoackRules.isEmpty then .hostUpdate else .ackInsert s.autoackRules
  | .ackInsert rules => do
    call.identifying (insertAcks (rules.map call.autoack))
    return .hostUpdate
  | .hostUpdate => do
    let updated ← call.identifying (updateHostRow (call.updateHost call.newHost))
    return if updated then .lock else .hostInsert
  | .hostInsert => do
    call.identifying (insertHostRow (call.updateHost call.newHost))
    return .lock
  | .hostSave host => do
    let _ ← updateHostRow (call.updateHost host)
    return .lock
  | .lock => return .lock

def Stage.steps : Nat → Stage → Run Stage
  | 0, stage => return stage
  | n + 1, stage => do
    let stage ← Stage.next call stage
    Stage.steps n stage

@[simp] theorem statement_noFaults {α : Type} (site : Site) (p : Run α) : statement noFaults site p = p := rfl

theorem steps_succ (n : Nat) (stage : Stage) :
    Stage.steps call (n + 1) stage = Stage.next call stage >>= Stage.steps call n := rfl

theorem steps_lock (n : Nat) : Stage.steps call n .lock = (pure .lock : Run Stage) := by
  induction n with
  | zero => rfl
  | succ n ih => exact ih

theorem steps_hostInsert (n : Nat) : Stage.steps call (n + 1) .hostInsert =
    call.identifying (insertHostRow (call.updateHost call.newHost)) >>= fun _ => pure .lock := by
  simp only [steps_succ, Stage.next, bind_assoc, pure_bind, steps_lock]

theorem steps_hostUpdate (n : Nat) : Stage.steps call (n + 2) .hostUpdate =
    saveNewHost noFaults call (call.updateHost call.newHost) >>= fun _ => pure .lock := by
  rw [steps_succ]
  simp only [Stage.next, saveNewHost, statement_noFaults, bind_assoc, pure_bind]
  congr 1
  funext updated
  cases updated with
  | true => exact steps_lock call (n + 1)
  | false => exact steps_hostInsert call n

theorem steps_autoackRules (n : Nat) : Stage.steps call (n + 4) .autoackRules =
    read State.autoackRules >>= fun rules =>
      (if rules.isEmpty then pure () else call.identifying (insertAcks (rules.map call.autoack))) >>= fun _ =>
        saveNewHost noFaults call (call.updateHost call.newHost) >>= fun _ => pure .lock := by
  funext s
  rw [steps_succ, Stage.next, read_bind, read_bind]
  cases s.autoackRules.isEmpty with
  | true => exact congrFun (steps_hostUpdate call (n + 1)) s
  | false =>
    simp only [Bool.false_eq_true, if_false]
    rw [steps_succ, Stage.next]
    simp only [bind_assoc, pure_bind, steps_hostUpdate]

theorem steps_orgUploads (n : Nat) : Stage.steps call (n + 5) .orgUploads =
    createAutoacks noFaults call >>= fun _ =>
      saveNewHost noFaults call (call.updateHost call.newHost) >>= fun _ => pure .lock := by
  funext s
  rw [steps_succ, Stage.next]
  simp only [createAutoacks, statement_noFaults, bind_assoc, UploadCall.selecting]
  by_cases hnul : call.orgId.toList.contains '\x00'
  · rw [if_pos hnul, if_pos hnul]
    rfl
  · rw [if_neg hnul, if_neg hnul, read_bind, read_bind]
    cases s.uploads.rows.any fun upload => upload.orgId = call.orgId && upload.current with
    | true => exact congrFun (steps_hostUpdate call (n + 2)) s
    | false =>
      simp only [Bool.false_eq_true, if_false, bind_assoc]
      exact congrFun (steps_autoackRules call n) s

theorem findOrCreateHost_steps :
    (findOrCreateHost noFaults call >>= fun _ => pure .lock) = Stage.steps call 6 .hostLookup := by
  funext s
  rw [steps_succ, Stage.next, read_bind]
  simp only [findOrCreateHost, statement_noFaults, bind_assoc]
  rw [read_bind]
  cases s.hosts.get? call.inventoryId with
  | none =>
    simp only [bind_assoc]
    exact (congrFun (steps_orgUploads call 0) s).symm
  | some host =>
    cases call.updatesHost with
    | false => exact (congrFun (steps_lock call 5) s).symm
    | true =>
      simp only [if_true, bind_assoc, pure_bind]
      rw [steps_succ, Stage.next]
      simp only [bind_assoc, pure_bind, steps_lock]

open Block

def prepareBlock : Block Exception State Plan := do
  let stored ← execute (call.selecting (read fun s => s.storedReports call))
  execute (uploadSource call)
  let upload ← execute (call.identifying (updateOrCreateUpload call))
  let reportRuleIds ← .done (call.reports.mapM fun report => report.item "rule_id")
  let ruleIds := finalRuleIds settings (reportRuleIds.filterMap text?)
  let rules ← execute (selectRules ruleIds)
  let orgDisabled ← execute (read fun s => s.orgDisabledRules call)
  let hostDisabled ← execute (read fun s => s.hostDisabledRules call)
  let known : Known := { upload, stored, rules, disabled := orgDisabled ++ hostDisabled }
  let collected ← .done (call.reports.foldlM (known.collect call settings) {})
  return { known, ruleIds, collected }

def updateReportsBlock (reports : List CurrentReport) (k : Nat) : Block Exception State Unit :=
  each (reports.zipIdx k) fun (report, _) => execute (updateReport report)

def bulkCreateBlock (reports : List CurrentReport) : Block Exception State Unit :=
  if reports.isEmpty then pure () else execute (insertReports reports)

def deleteResolvedBlock (ruleIds : List String) : Block Exception State Unit :=
  if ruleIds.isEmpty then pure () else execute (deleteReports call ruleIds)

def storeBlock (plan : Plan) : Block Exception State Unit := do
  bulkCreateBlock plan.collected.newReports
  updateReportsBlock plan.collected.existingReports 0
  deleteResolvedBlock call plan.deleted

def sendRemediationsBlock (hostId : Uuid) (reportList : List Rule) : Block Exception State Unit :=
  if reportList.isEmpty then pure ()
  else execute (sendRemediationsEvent settings noFaults hostId (reportList.map fun rule => "advisor:" ++ rule.ruleId))

def triggerReportHooksBlock (host : AdvisorInventoryHost) (reportList : List Rule) (dbReports : List StoredReport) :
    Block Exception State Unit := do
  let acked ← execute (read fun s => s.ackedRules host)
  execute (sendEvents settings noFaults .newEvent host "new-recommendation" (newReportList acked reportList dbReports))
  execute (sendEvents settings noFaults .resolvedEvent host "resolved-recommendation"
    (resolvedReportList acked reportList dbReports))
  sendRemediationsBlock settings host.inventoryId reportList

def runHooksBlock (plan : Plan) : Block Exception State Bool :=
  if settings.webhooksTopic || settings.remediationsHookTopic then do
    let found ← execute (read fun s => s.inventory.get? (call.orgId, call.inventoryId))
    match found with
    | none => return false
    | some host => do
      (triggerReportHooksBlock settings host plan.collected.webhookRules plan.known.stored).catching fun _ => pure ()
      return false
  else return false

/-- The transaction of an upload, once it has the lock. -/
def underLock : Block Exception State Bool := do
  let plan ← prepareBlock settings call
  storeBlock call plan
  let aborted ← runHooksBlock settings call plan
  execute (sendInventoryViewEvent settings noFaults call plan)
  return aborted

theorem prepareBlock_run :
    prepare settings noFaults call = lockHost call >>= fun _ => (prepareBlock settings call).run := by
  simp only [prepare, statement_noFaults, prepareBlock, run_bind, run_execute, run_done, run_pure]

theorem storeBlock_run (plan : Plan) : store noFaults call plan = (storeBlock call plan).run := by
  simp only [store, bulkCreate, updateReports, deleteResolved, statement_noFaults, storeBlock, bulkCreateBlock,
    updateReportsBlock, deleteResolvedBlock, run_bind, run_execute, run_each, run_ite, run_pure]

theorem triggerReportHooksBlock_run (host : AdvisorInventoryHost) (reportList : List Rule)
    (dbReports : List StoredReport) :
    triggerReportHooks settings noFaults host reportList dbReports =
      (triggerReportHooksBlock settings host reportList dbReports).run := by
  simp only [triggerReportHooks, triggerReportHooksBlock, sendRemediationsBlock, statement_noFaults, run_bind,
    run_execute, run_ite, run_pure]

theorem runHooksBlock_run (plan : Plan) :
    runHooks settings noFaults call plan = (runHooksBlock settings call plan).run := by
  simp only [runHooks, runHooksBlock, run_ite, run_bind, run_execute, run_pure]
  congr 1
  refine bind_congr fun found => ?_
  cases found with
  | none => rfl
  | some host =>
    simp only [run_bind, run_catching, run_pure, triggerReportHooksBlock_run]
    rfl

theorem underLock_run :
    processUpload settings noFaults call = lockHost call >>= fun _ => (underLock settings call).run := by
  simp only [processUpload, underLock, prepareBlock_run, storeBlock_run, runHooksBlock_run, run_bind, run_execute,
    run_pure, bind_assoc]

def State.over (hosts : Table Host.inventoryId) (s : State) : State := { s with hosts }

variable (hosts : Table Host.inventoryId)

theorem natural_updateOrCreateUpload : Natural (State.over hosts) (updateOrCreateUpload call) := by
  intro s
  unfold updateOrCreateUpload
  rw [show (s.over hosts).uploads = s.uploads from rfl]
  split
  · rfl
  · split_ifs
    · rfl
    · rw [show nextUploadId (s.over hosts) = nextUploadId s from rfl]
      cases s.uploads.insert? (call.newUpload (nextUploadId s)) with
      | none => rfl
      | some uploads => rfl
  · rfl

theorem natural_selectRules (ruleIds : List String) : Natural (State.over hosts) (selectRules ruleIds) := by
  intro s
  unfold selectRules
  split_ifs
  · rfl
  · rfl

theorem natural_prepareBlock : Natural (State.over hosts) (prepareBlock settings call).run := by
  simp only [prepareBlock, run_bind, run_execute, run_done, run_pure]
  refine .bind (.ite (fun _ _ => rfl) fun _ => .read fun _ => rfl) fun stored => ?_
  refine .bind (.ite (fun _ => .pure _) fun _ _ => rfl) fun _ => ?_
  refine .bind (.ite (fun _ => natural_updateOrCreateUpload call hosts) fun _ _ => rfl) fun upload => ?_
  refine .bind (.lift _) fun reportRuleIds => ?_
  refine .bind (natural_selectRules hosts _) fun rules => ?_
  refine .bind (.read fun _ => rfl) fun orgDisabled => ?_
  refine .bind (.read fun _ => rfl) fun hostDisabled => ?_
  exact .bind (.lift _) fun collected => .pure _

theorem natural_insertReports (reports : List CurrentReport) : Natural (State.over hosts) (insertReports reports) := by
  intro s
  unfold insertReports
  split_ifs
  · rw [show (s.over hosts).reports = s.reports from rfl]
    cases s.reports.insertMany? reports with
    | none => rfl
    | some reports => rfl
  · rfl
  · rfl

theorem natural_updateReport (report : CurrentReport) : Natural (State.over hosts) (updateReport report) := by
  intro s
  unfold updateReport
  rw [show (s.over hosts).reports = s.reports from rfl]
  split_ifs
  · rfl
  · rfl
  · rfl

theorem natural_storeBlock (plan : Plan) : Natural (State.over hosts) (storeBlock call plan).run := by
  simp only [storeBlock, bulkCreateBlock, updateReportsBlock, deleteResolvedBlock, run_bind, run_execute, run_each,
    run_ite, run_pure]
  refine .bind (.ite (fun _ => .pure ()) fun _ => natural_insertReports hosts _) fun _ => ?_
  refine .bind (.each fun entry _ => natural_updateReport hosts _) fun _ => ?_
  exact .ite (fun _ => .pure ()) fun _ => .write fun _ => rfl

theorem natural_send (site : Site) (message : Message) : Natural (State.over hosts) (send noFaults site message) :=
  .write fun _ => rfl

theorem natural_sendEvents (site : Site) (host : AdvisorInventoryHost) (eventType : String) (rules : List Rule) :
    Natural (State.over hosts) (sendEvents settings noFaults site host eventType rules) := by
  unfold sendEvents sendWebhookEvent
  refine .ite (fun _ => .pure ()) fun _ => .bind (.lift _) fun events => ?_
  exact .ite (fun _ => natural_send hosts site _) fun _ => .pure ()

theorem natural_runHooksBlock (plan : Plan) : Natural (State.over hosts) (runHooksBlock settings call plan).run := by
  simp only [runHooksBlock, run_ite, run_bind, run_execute, run_pure]
  refine .ite (fun _ => .bind (.read fun _ => rfl) fun found => ?_) fun _ => .pure _
  cases found with
  | none => exact .pure _
  | some host =>
    simp only [run_bind, run_catching, run_pure, triggerReportHooksBlock, sendRemediationsBlock, sendRemediationsEvent,
      run_execute, run_ite]
    refine .bind (.catching ?_ fun _ => .pure ()) fun _ => .pure _
    refine .bind (.read fun _ => rfl) fun acked => ?_
    refine .bind (natural_sendEvents settings hosts _ _ _ _) fun _ => ?_
    refine .bind (natural_sendEvents settings hosts _ _ _ _) fun _ => ?_
    exact .ite (fun _ => .pure ()) fun _ => .ite (fun _ => natural_send hosts _ _) fun _ => .pure ()

/-- What is done under the lock does not look at the hosts. -/
theorem natural_underLock : Natural (State.over hosts) (underLock settings call).run := by
  simp only [underLock, run_bind, run_execute, run_pure, sendInventoryViewEvent]
  refine .bind (natural_prepareBlock settings call hosts) fun plan => ?_
  refine .bind (natural_storeBlock call hosts plan) fun _ => ?_
  refine .bind (natural_runHooksBlock settings call hosts plan) fun aborted => ?_
  exact .bind (.ite (fun _ => natural_send hosts _ _) fun _ => .pure ()) fun _ => .pure _

theorem underLock_refused (h : call.identified = false) (s : State) :
    ∃ e, (underLock settings call).run s = (.error e, s) := by
  have hprepare : ∃ e, (prepareBlock settings call).run s = (.error e, s) := by
    simp only [prepareBlock, run_bind, run_execute]
    rcases selecting_cases call (read fun s : State => s.storedReports call) s with hselects | ⟨-, e, herror⟩
    · rw [hselects, read_bind, uploadSource]
      split_ifs
      · obtain ⟨e, herror⟩ := identifying_refused h (updateOrCreateUpload call) s
        exact ⟨e, by rw [pure_bind, bind_of_error herror]⟩
      · exact ⟨_, rfl⟩
    · exact ⟨e, bind_of_error herror⟩
  obtain ⟨e, herror⟩ := hprepare
  refine ⟨e, ?_⟩
  simp only [underLock, run_bind]
  rw [bind_of_error herror]

/-- A call is what it does before the lock, and then its transaction. -/
theorem createDbReports_underLock (s : State) :
    createDbReports settings noFaults call s =
      (.ok (transaction noFaults (underLock settings call).run (s.withHost call)).1.isOk,
        (transaction noFaults (underLock settings call).run (s.withHost call)).2) := by
  rcases findOrCreateHost_noFaults s call with ⟨hidentified, hhost⟩ | ⟨hnone, hrefused, e, hhost⟩
  · have hlock : lockHost call (s.withHost call) = (.ok (), s.withHost call) := if_pos (withHost_host s call hidentified)
    have hprocess : processUpload settings noFaults call (s.withHost call) =
        (underLock settings call).run (s.withHost call) := by
      rw [underLock_run, bind_of_ok hlock]
    have htransaction : transaction noFaults (processUpload settings noFaults call) (s.withHost call) =
        transaction noFaults (underLock settings call).run (s.withHost call) := by
      rw [transaction, hprocess]
      rfl
    rw [createDbReports_of_ok hhost, Procedure.catching]
    rcases hrun : transaction noFaults (underLock settings call).run (s.withHost call) with ⟨e | _, s'⟩
    · rw [bind_of_error (htransaction.trans hrun)]
      rfl
    · rw [bind_of_ok (htransaction.trans hrun)]
      rfl
  · obtain ⟨e', hrun⟩ := underLock_refused settings call hrefused s
    rw [createDbReports_of_error hhost, withHost_refused hnone hrefused, transaction, hrun]
    rfl

end Advisor.Service
