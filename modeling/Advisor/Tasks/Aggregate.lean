import Advisor.Inventory.Event
import Advisor.Tasks.Sweeps
import Advisor.Tasks.Updates

/-! The status of an executed task is the aggregate of its jobs: what breaks it, and that nothing
else does in any run. -/

namespace Advisor.Tasks

open Python Procedure Django Relational

/-- The stale-job command is a request for each task in turn. -/
inductive Request where
  | ansible (message : Json) (fetch : Fetch)
  | script (message : Json) (upload : Option Json)
  | cancel (extaskId : Nat) (orgId : String) (refused : Bool)
  | staleJobs (task : Task)

variable (lib : TaskLibrary)

def Request.run (now : Instant) : Request → Run Unit
  | ansible message fetch => handleAnsibleJobUpdates lib now message fetch
  | script message upload => handleScriptJobUpdates lib now message upload
  | cancel extaskId orgId refused => Tasks.cancel now extaskId orgId refused
  | staleJobs task => checkStaleJobsFor now task

def Request.step (now : Instant) (request : Request) (s : State) : State := (request.run lib now s).2

/-- The states reached from `s` by requests that each meet a condition in the state they find. -/
inductive Reaches (ok : State → Instant → Request → Prop) (s : State) : State → Prop
  | start : Reaches ok s s
  | step {s'} (now : Instant) (request : Request) : Reaches ok s s' → ok s' now request →
      Reaches ok s (request.step lib now s')

namespace State

def SettledTask (s : State) (extask : ExecutedTask) : Prop :=
  s.jobStatuses extask.id ≠ [] → extask.status = aggregate (s.jobStatuses extask.id)

/-- Every executed task with a job has the aggregate of its jobs' statuses. -/
def Settled (s : State) : Prop := ∀ extask ∈ s.executedTasks, s.SettledTask extask

end State

variable {lib} {now : Instant} {s s' : State} {job : Job}

theorem State.SettledTask.congr {extask : ExecutedTask} (h : s.SettledTask extask)
    (hs : ∀ status, status ∈ s'.jobStatuses extask.id ↔ status ∈ s.jobStatuses extask.id) : s'.SettledTask extask := by
  intro hne
  rw [aggregate_congr hs]
  refine h fun hnil => hne ?_
  rw [List.eq_nil_iff_forall_not_mem] at hnil ⊢
  intro status hstatus
  exact hnil status ((hs status).mp hstatus)

theorem Quiet.settled (h : Quiet s s') (hs : s.Settled) : s'.Settled := by
  intro extask hextask
  rw [h.executedTasks] at hextask
  exact (hs extask hextask).congr fun status => by rw [h.jobStatuses]

theorem Replaces.rest_settled (h : Replaces s s' job) (hjob : s.HasJob job) {extask : ExecutedTask}
    (hs : s.SettledTask extask) (hne : extask.id ≠ job.executedTask) : s'.SettledTask extask := by
  obtain ⟨old, hold, hsame⟩ := hjob
  refine hs.congr fun status => ?_
  rw [h.mem_jobStatuses hold hsame.id.symm hsame.executedTask.symm, if_neg hne]

theorem Aggregated.settled (h : Aggregated now s s' job) (hjob : s.HasJob job) (hs : s.Settled) : s'.Settled := by
  intro extask hextask
  have hrow := (h.executedTasks extask.id).symm.trans (Table.mem_iff_get?.mp hextask)
  obtain ⟨old, hold, hmap⟩ := Option.map_eq_some_iff.mp hrow
  by_cases he : extask.id = job.executedTask
  · rw [if_pos he] at hmap
    intro _
    rw [he, h.jobs.aggregate_jobStatuses hjob, ← hmap, ExecutedTask.aggregated_status]
  · rw [if_neg he] at hmap
    subst hmap
    exact h.jobs.rest_settled hjob (hs old (Table.get?_eq_some.mp hold).1) he

theorem Writes.settled (h : Writes s s' job) {old : Job} (hold : old ∈ s.jobs) (hsame : old.Same job)
    (hagg : s.aggregateWith job = s.aggregateWith old) (hs : s.Settled) : s'.Settled := by
  intro extask hextask
  rw [h.executedTasks] at hextask
  by_cases he : extask.id = job.executedTask
  · intro _
    have hold' : s.jobStatuses old.executedTask ≠ [] := by
      refine List.ne_nil_of_mem (a := old.status) (State.mem_jobStatuses.mpr ⟨old, hold, rfl, rfl⟩)
    have hbefore := hs extask hextask
    rw [State.SettledTask, he, hsame.executedTask] at hbefore
    rw [he, h.jobs.aggregate_jobStatuses ⟨old, hold, hsame⟩, hagg, hbefore hold',
      (Writes.refl hold).jobs.aggregate_jobStatuses ⟨old, hold, rfl, rfl, rfl, rfl⟩]
  · exact h.jobs.rest_settled ⟨old, hold, hsame⟩ (hs extask hextask) he

theorem Settles.settled {extask : ExecutedTask} (h : Settles now s s' extask (aggregate (s.jobStatuses extask.id)))
    (hrest : ∀ row ∈ s.executedTasks, row.id ≠ extask.id → s.SettledTask row)
    (hown : extask.status = aggregate (s.jobStatuses extask.id) →
      ∀ row ∈ s.executedTasks, row.id = extask.id → s.SettledTask row) : s'.Settled := by
  intro row hrow
  have hjobs : ∀ status, status ∈ s'.jobStatuses row.id ↔ status ∈ s.jobStatuses row.id := by
    intro status
    simp only [State.jobStatuses, State.jobsOf, h.jobs]
  refine State.SettledTask.congr (s := s) ?_ hjobs
  rw [h.executedTasks] at hrow
  split_ifs at hrow with hs
  · by_cases he : row.id = extask.id
    · exact hown hs row hrow he
    · exact hrest row hrow he
  · rcases mem_overwrite.mp hrow with heq | ⟨hrow, hne⟩
    · intro _
      rw [heq, ExecutedTask.aggregated_status, ExecutedTask.aggregated_id]
    · rw [ExecutedTask.aggregated_id] at hne
      exact hrest row hrow hne

theorem endJobs_executedTask {extask : Nat} {hit : Job → Bool} {out : Job → Job}
    (hout : ∀ row, (out row).executedTask = row.executedTask) (row : Job) :
    (endJobs extask hit out row).executedTask = row.executedTask := by
  unfold endJobs
  split_ifs
  · exact hout row
  · rfl

theorem Sweeps.rest_settled {extask : Nat} {hit : Job → Bool} {out : Job → Job}
    (h : Sweeps s s' (endJobs extask hit out)) (hout : ∀ row, (out row).executedTask = row.executedTask)
    {row : ExecutedTask} (hs : s.SettledTask row) (hne : row.id ≠ extask) : s'.SettledTask row := by
  refine hs.congr fun status => ?_
  rw [h.mem_jobStatuses (endJobs_executedTask hout), State.mem_jobStatuses]
  refine exists_congr fun old => and_congr_right fun _ => and_congr_right fun he => ?_
  have hmiss : old.executedTask ≠ extask := fun hc => hne (he.symm.trans hc)
  simp [endJobs, hmiss]

theorem Sweeps.running {extask : Nat} {hit : Job → Bool} {out : Job → Job}
    (h : Sweeps s s' (endJobs extask hit out)) (hout : ∀ row, (out row).executedTask = row.executedTask)
    (hends : ∀ row, (out row).status ≠ .running) (hrun : .running ∈ s'.jobStatuses extask) :
    .running ∈ s.jobStatuses extask := by
  rw [h.mem_jobStatuses (endJobs_executedTask hout)] at hrun
  obtain ⟨old, hold, he, hstatus⟩ := hrun
  refine State.mem_jobStatuses.mpr ⟨old, hold, he, ?_⟩
  unfold endJobs at hstatus
  split_ifs at hstatus
  · exact absurd hstatus (hends old)
  · exact hstatus

theorem Sweeps.settled {s₁ : State} {extask : ExecutedTask} {hit : Job → Bool} {out : Job → Job}
    (h : Sweeps s s₁ (endJobs extask.id hit out)) (hout : ∀ row, (out row).executedTask = row.executedTask)
    (hends : ∀ row, (out row).status ≠ .running) (hrunning : extask.status = .running) (hs : s.Settled)
    (h' : s₁.jobStatuses extask.id = [] ∧ s' = s₁ ∨ s₁.jobStatuses extask.id ≠ [] ∧
      Settles now s₁ s' extask (aggregate (s₁.jobStatuses extask.id))) : s'.Settled := by
  have hrest : ∀ row ∈ s₁.executedTasks, row.id ≠ extask.id → s₁.SettledTask row := by
    intro row hrow hne
    rw [h.executedTasks] at hrow
    exact h.rest_settled hout (hs row hrow) hne
  rcases h' with ⟨hempty, rfl⟩ | ⟨hne, hset⟩
  · intro row hrow
    by_cases he : row.id = extask.id
    · intro hcontra
      exact absurd (he ▸ hempty) hcontra
    · exact hrest row hrow he
  · refine hset.settled hrest ?_
    intro hagg row hrow he hne
    have hrun : .running ∈ s₁.jobStatuses extask.id := aggregate_running.mp (hagg.symm.trans hrunning)
    have hbefore := h.running hout hends hrun
    rw [h.executedTasks] at hrow
    have hrow' := hs row hrow (he ▸ List.ne_nil_of_mem hbefore)
    rw [hrow', he, aggregate_running.mpr hrun, aggregate_running.mpr hbefore]

theorem running_of_timedOut {task : Task} {extask : ExecutedTask} (hs : s.Settled)
    (h : extask ∈ timedOutExtasks now task s) : extask.status = .running := by
  obtain ⟨row, hrow, hmem⟩ := List.mem_flatMap.mp h
  split_ifs at hmem
  · obtain ⟨job, hjob, rfl⟩ := List.mem_map.mp hmem
    obtain ⟨hjob, hstale⟩ := List.mem_filter.mp hjob
    obtain ⟨hstored, he⟩ := List.mem_filter.mp hjob
    simp only [stale, Bool.and_eq_true, decide_eq_true_eq] at hstale
    have hrun : .running ∈ s.jobStatuses row.id :=
      State.mem_jobStatuses.mpr ⟨job, hstored, of_decide_eq_true he, hstale.1⟩
    rw [hs row hrow (List.ne_nil_of_mem hrun), aggregate_running.mpr hrun]
  · cases hmem

theorem checkStaleJobsFor_settled {task : Task} (hs : s.Settled) : (checkStaleJobsFor now task s).2.Settled := by
  have htriple : Triple (checkStaleJobsFor now task) s (fun _ => State.Settled) fun _ => State.Settled := by
    refine Triple.bind (Triple.read (Triple.each hs ?_))
    intro extask hextask s₁ hs₁
    obtain ⟨s₂, s₃, hs₃, hsweep, hcase⟩ := checkStaleJobsOf_cases now task extask s₁
    have hrun := running_of_timedOut hs hextask
    have hafter := hsweep.settled (fun _ => rfl) (fun _ => by simp [timeOutJob]) hrun hs₁ hcase
    rw [Triple, hs₃]
    exact hafter
  exact htriple.final (fun _ _ h => h) fun _ _ h => h

theorem staleJobTimeout_reaches (clock : Task → Instant) (s : State) :
    Reaches lib (fun _ _ _ => True) s (staleJobTimeout clock s).2 := by
  have heach : ∀ (tasks : List Task) (s' : State), Reaches lib (fun _ _ _ => True) s s' →
      Reaches lib (fun _ _ _ => True) s ((each tasks fun task => checkStaleJobsFor (clock task) task) s').2 := by
    intro tasks
    induction tasks with
    | nil => exact fun s' h => h
    | cons task rest ih =>
      intro s' h
      have hnext := h.step (clock task) (.staleJobs task) trivial
      rw [Request.step, Request.run] at hnext
      rw [each_cons]
      rcases hturn : checkStaleJobsFor (clock task) task s' with ⟨e | _, s''⟩
      · rw [hturn] at hnext
        rwa [bind_of_error hturn]
      · rw [hturn] at hnext
        rw [bind_of_ok hturn]
        exact ih s'' hnext
  exact heach _ s .start

variable (lib) in
/-- An ansible update whose event can be logged leaves the job with a status its output agrees with,
as far as the executed task can tell; any other update leaves the aggregate as it was. -/
def Request.Sound (s : State) : Request → Prop
  | ansible message fetch =>
    ∀ job status updatedOn, s.update? lib message = some (job, status, updatedOn) →
      (job.status = status ∨ ∃ t, parseDatetime lib.django updatedOn = .ok t) →
        if s.room { job with status } then
          ∀ left, outputStatus lib fetch { job with status } = some left →
            s.aggregateWith { job with status := left } = s.aggregateWith { job with status }
        else s.aggregateWith { job with status } = s.aggregateWith job
  | script message upload =>
    ∀ job stdout status, s.upload? message upload = some (job, stdout) →
      statusFrom lib .script stdout = some status → s.room { job with status } = false →
        s.aggregateWith { job with status } = s.aggregateWith job
  | cancel _ _ _ | staleJobs _ => True

theorem State.aggregateWith_congr {a b : Job} (h : a.Same b) (hs : a.status = b.status) :
    s.aggregateWith a = s.aggregateWith b := by
  rw [aggregateWith, aggregateWith, otherStatuses, otherStatuses, h.id, h.executedTask, hs]

theorem sentLine_same {a b : Job} (h : a.Same b) (hs : a.status = b.status) (name : String) :
    sentLine a name = sentLine b name := by
  unfold sentLine
  rw [hs, h.systemId, h.runId]

theorem State.room_same {a b : Job} (h : a.Same b) (hs : a.status = b.status) : s.room a = s.room b := by
  have hsystems : s.systems a = s.systems b := by rw [State.systems, State.systems, h.systemId]
  have hline : sentLine a = sentLine b := funext (sentLine_same h hs)
  unfold State.room
  rw [hs, hsystems, hline]

theorem outputStatus_same {fetch : Fetch} {a b : Job} (h : a.Same b) (hs : a.status = b.status) :
    outputStatus lib fetch a = outputStatus lib fetch b := by
  simp only [outputStatus, fetchedStdout, hs, h.runId]

theorem ansible_settled {message : Json} {fetch : Fetch} (hs : s.Settled)
    (hsound : (Request.ansible message fetch).Sound lib s) :
    (handleAnsibleJobUpdates lib now message fetch s).2.Settled := by
  rcases handleAnsibleJobUpdates_cases lib now message fetch s with
    ⟨h, -⟩ | ⟨job, status, updatedOn, t, hupdate, ht, heffect⟩
  · rwa [h]
  have hread : job.status = status ∨ ∃ t, parseDatetime lib.django updatedOn = .ok t := by
    by_cases hsame : job.status = status
    · exact Or.inl hsame
    · exact Or.inr ⟨t, ht hsame⟩
  have hcond := hsound job status updatedOn hupdate hread
  have hjob : job ∈ s.jobs := State.update?_mem hupdate
  have hsame := job.withStatus_same now status t
  have hstatus := job.withStatus_status now status t
  generalize job.withStatus now status t = job' at heffect hsame hstatus
  have hset : ({ job with status } : Job).Same job' := ⟨hsame.id, hsame.executedTask, hsame.systemId, hsame.runId⟩
  rw [State.room_same hset hstatus.symm, State.aggregateWith_congr hset hstatus.symm,
    outputStatus_same hset hstatus.symm] at hcond
  cases heffect with
  | unannounced hroom hw =>
    rw [hroom] at hcond
    exact hw.settled hjob hsame (by simpa using hcond) hs
  | orphan _ hagg => exact hagg.settled ⟨job, hjob, hsame⟩ hs
  | done hroom hagg hw hsame' hout htime =>
    rename_i s₁ job''
    have hs₁ := hagg.settled ⟨job, hjob, hsame⟩ hs
    rw [if_pos hroom] at hcond
    have hstored : job' ∈ s₁.jobs := (hagg.jobs job').mpr (Or.inl rfl)
    refine hw.settled hstored hsame' ?_ hs₁
    have hid : job''.id = job'.id := hsame'.id
    rw [hagg.jobs.aggregateWith hid, hagg.jobs.aggregateWith rfl]
    cases hleft : outputStatus lib fetch job' with
    | none =>
      rw [hleft] at hout
      exact State.aggregateWith_congr ⟨hid.symm, hsame'.executedTask.symm, hsame'.systemId.symm, hsame'.runId.symm⟩ hout
    | some left =>
      rw [hleft] at hout
      rw [← hcond left hleft]
      have hback := hsame.trans hsame'
      exact State.aggregateWith_congr ⟨hback.id.symm, hback.executedTask.symm, hback.systemId.symm, hback.runId.symm⟩ hout

theorem script_settled {message : Json} {upload : Option Json} (hs : s.Settled)
    (hsound : (Request.script message upload).Sound lib s) :
    (handleScriptJobUpdates lib now message upload s).2.Settled := by
  rcases handleScriptJobUpdates_cases lib now message upload s with
    ⟨h, -⟩ | ⟨job, stdout, hupload, heffect⟩
  · exact h.settled hs
  have hjob : job ∈ s.jobs := State.upload?_mem hupload
  cases heffect with
  | unparsed _ hw hsame hstatus =>
    have hback : s.aggregateWith _ = s.aggregateWith job := (State.aggregateWith_congr hsame hstatus.symm).symm
    exact hw.settled hjob hsame hback hs
  | unannounced hfrom hroom hw hsame =>
    rename_i job'
    have hset : ({ job with status := job'.status } : Job).Same job' :=
      ⟨hsame.id, hsame.executedTask, hsame.systemId, hsame.runId⟩
    have hcond := hsound job stdout job'.status hupload hfrom
    rw [State.room_same hset rfl, State.aggregateWith_congr hset rfl] at hcond
    exact hw.settled hjob hsame (hcond hroom) hs
  | aggregated _ _ hagg hsame => exact hagg.settled ⟨job, hjob, hsame⟩ hs

theorem cancel_settled {extaskId : Nat} {orgId : String} {refused : Bool} (hs : s.Settled) :
    (cancel now extaskId orgId refused s).2.Settled := by
  rcases cancel_cases now extaskId orgId refused s with
    h | ⟨extask, s₁, s', -, hrun, h, hsweep, hcase⟩
  · rwa [h]
  · rw [h]
    exact hsweep.settled (fun _ => rfl) (fun _ => by simp [cancelJob]) hrun hs hcase

theorem step_settled (request : Request) (hs : s.Settled) (hsound : request.Sound lib s) :
    (request.step lib now s).Settled := by
  cases request with
  | ansible message fetch => exact ansible_settled hs hsound
  | script message upload => exact script_settled hs hsound
  | cancel extaskId orgId refused => exact cancel_settled hs
  | staleJobs task => exact checkStaleJobsFor_settled hs

theorem soundRun_settled (hs : s.Settled) (h : Reaches lib (fun s _ request => request.Sound lib s) s s') :
    s'.Settled := by
  induction h with
  | start => exact hs
  | step now request _ hsound ih => exact step_settled request ih hsound

def sampleLibrary : TaskLibrary where
  django := Inventory.isoLibrary
  upper text := if text = "success" then "SUCCESS" else if text = "running" then "RUNNING"
    else if text = "failure" then "FAILURE" else text
  showTime _ := "2024-05-01 10:00:00+00:00"
  loads _ := .error "Expecting value: line 1 column 1 (char 0)"
  showTime_length _ := by decide

def sampleTask : Task := ⟨1, "log4shell", .ansible, true, 3600, by decide⟩

def sampleExtask : ExecutedTask := ⟨1, "Detection", 1, "1234", "admin", .running, none, by decide, by decide, by decide⟩

def sampleJob (id : Nat) (status : JobStatus) : Job where
  id := id
  executedTask := 1
  systemId := 7
  status := status
  updatedOn := 0
  runId := Fin.ofNat _ id

/-- One running executed task with one running job, on a system that is not known any more. -/
def sampleState : State where
  inventory := .empty
  tasks := .single sampleTask
  executedTasks := .single sampleExtask
  jobs := .single (sampleJob 1 .running)
  storable job hjob := by
    rw [Table.mem_single.mp hjob]
    decide

theorem sampleState_settled : sampleState.Settled := by
  intro extask hextask _
  rw [Table.mem_single.mp hextask]
  rfl

def sampleUpdate (status updatedOn : String) : Json :=
  .dict [("payload", .dict [("id", .str "00000000-0000-0000-0000-000000000001"), ("status", .str status),
    ("updated_at", .str updatedOn)])]

def stdoutResponse (stdout : String) : Fetch :=
  .response 200 (some (.dict [("data", .list [.dict [("stdout", .str stdout)]])]))

def unreadOutput : Request :=
  .ansible (sampleUpdate "success" "2024-05-01T10:00:00+00:00") (stdoutResponse "ok")

def afterUnreadOutput : State := unreadOutput.step sampleLibrary 0 sampleState

/-- A playbook that succeeds without results to read: its job has failed, its executed task has not. -/
theorem settled_unread_output :
    sampleState.Settled ∧
      afterUnreadOutput.executedTasks.rows.map (fun extask => (extask.id, extask.status)) = [(1, .completed)] ∧
      afterUnreadOutput.jobStatuses 1 = [.failure] ∧ ¬ afterUnreadOutput.Settled := by
  have hafter : afterUnreadOutput.executedTasks.rows.map (fun extask => (extask.id, extask.status)) =
      [(1, .completed)] ∧ afterUnreadOutput.jobStatuses 1 = [.failure] := by decide +kernel
  obtain ⟨hextasks, hjobs⟩ := hafter
  refine ⟨sampleState_settled, hextasks, hjobs, ?_⟩
  intro h
  obtain ⟨extask, hrow, hpair⟩ := List.mem_map.mp (hextasks ▸ List.mem_singleton_self _)
  obtain ⟨hid, hstatus⟩ := Prod.mk.inj hpair
  have hagg := h extask hrow
  rw [State.SettledTask, hid, hjobs, hstatus] at hagg
  exact absurd (hagg (by simp)) (by decide)

/-- A playbook that fails, of a run that the playbook dispatcher has no output of. -/
def failedUpdate : Request :=
  .ansible (sampleUpdate "failure" "2024-05-01T10:00:00+00:00") (.response 404 none)

def afterFailedUpdate : State := failedUpdate.step sampleLibrary 0 sampleState

theorem update?_failed :
    sampleState.update? sampleLibrary (sampleUpdate "failure" "2024-05-01T10:00:00+00:00") =
      some (sampleJob 1 .running, .failure, .str "2024-05-01T10:00:00+00:00") := by
  decide +kernel

theorem failedUpdate_sound : failedUpdate.Sound sampleLibrary sampleState := by
  intro job status updatedOn hupdate _
  obtain ⟨rfl, rfl, rfl⟩ : sampleJob 1 .running = job ∧ JobStatus.failure = status ∧ _ = updatedOn := by
    simpa using update?_failed.symm.trans hupdate
  have hroom : sampleState.room { sampleJob 1 .running with status := .failure } = true := by decide +kernel
  have houtput : outputStatus sampleLibrary (.response 404 none) { sampleJob 1 .running with status := .failure } =
      none := by decide +kernel
  rw [if_pos hroom]
  intro left hleft
  rw [houtput] at hleft
  cases hleft

/-- The executed task of a run that failed settles, also when the task's stale jobs are looked for after it. -/
theorem soundRun_settled_failed :
    ((Request.staleJobs sampleTask).step sampleLibrary 4000000000 afterFailedUpdate).Settled :=
  soundRun_settled sampleState_settled
    (.step 4000000000 (.staleJobs sampleTask) (.step 0 failedUpdate .start failedUpdate_sound) trivial)

end Advisor.Tasks
