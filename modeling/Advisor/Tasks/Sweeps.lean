import Advisor.Tasks.Effects

/-! Cancelling and timing out: jobs of one executed task end together, and then it is aggregated. -/

namespace Advisor.Tasks

open Python Procedure Django Relational

structure Sweeps (s s' : State) (f : Job → Job) : Prop where
  inventory : s'.inventory = s.inventory
  tasks : s'.tasks = s.tasks
  executedTasks : s'.executedTasks = s.executedTasks
  jobs : ∀ row, row ∈ s'.jobs ↔ ∃ old ∈ s.jobs, f old = row
  completions : ∀ extask, s'.completions extask = s.completions extask

/-- Some jobs of one executed task end with one status. -/
def endJobs (extask : Nat) (hit : Job → Bool) (out : Job → Job) (job : Job) : Job :=
  if job.executedTask = extask && hit job then out job else job

variable {now : Instant} {s s' : State}

theorem Sweeps.mem_jobStatuses {f : Job → Job} (h : Sweeps s s' f) (hf : ∀ job, (f job).executedTask = job.executedTask)
    {extask : Nat} {status : JobStatus} :
    status ∈ s'.jobStatuses extask ↔ ∃ old ∈ s.jobs, old.executedTask = extask ∧ (f old).status = status := by
  rw [State.mem_jobStatuses]
  simp only [h.jobs]
  constructor
  · intro hx
    obtain ⟨row, ⟨old, hold, rfl⟩, he, hs⟩ := hx
    exact ⟨old, hold, (hf old).symm.trans he, hs⟩
  · intro hx
    obtain ⟨old, hold, he, hs⟩ := hx
    exact ⟨f old, ⟨old, hold, rfl⟩, (hf old).trans he, hs⟩

theorem cancelRunning_sweeps (extask : Nat) (s : State) :
    Sweeps s (cancelRunning extask s) (endJobs extask (fun job => job.status = .running) cancelJob) :=
  ⟨rfl, rfl, rfl, fun _ => Table.mem_updateWhere, fun _ => rfl⟩

theorem Sweeps.write {s₁ s₂ : State} {f : Job → Job} {job : Job} (new : Job) (h : Sweeps s s₁ f)
    (hf : ∀ row, (f row).id = row.id) (hjob : job ∈ s.jobs) (hnew : new.id = job.id) (hw : Writes s₁ s₂ new) :
    Sweeps s s₂ fun row => if row = job then new else f row := by
  refine ⟨hw.inventory.trans h.inventory, hw.tasks.trans h.tasks, hw.executedTasks.trans h.executedTasks, ?_,
    fun extask => (hw.completions extask).trans (h.completions extask)⟩
  intro row
  rw [hw.jobs, h.jobs]
  constructor
  · intro hrow
    rcases hrow with hrow | ⟨⟨old, hold, hfold⟩, hne⟩
    · exact ⟨job, hjob, by rw [if_pos rfl, hrow]⟩
    · have hdiff : old ≠ job := by
        intro heq
        rw [← hfold, hf, heq, hnew] at hne
        exact hne rfl
      exact ⟨old, hold, by rw [if_neg hdiff, hfold]⟩
  · intro hrow
    obtain ⟨old, hold, hmap⟩ := hrow
    by_cases heq : old = job
    · rw [if_pos heq] at hmap
      exact Or.inl hmap.symm
    · rw [if_neg heq] at hmap
      refine Or.inr ⟨⟨old, hold, hmap⟩, ?_⟩
      intro hid
      rw [← hmap, hf, hnew] at hid
      exact heq (s.jobs.key_injOn hold hjob hid)

variable (now) in
theorem timeOut_writes (task : Task) {job : Job} (hstorable : job.storable) (s : State) :
    ∃ s', timeOut now task job s = (.ok (), s') ∧ Writes s s' (timeOutJob now job) := by
  have hstorable' : (timeOutJob now job).storable := hstorable
  obtain ⟨s₁, hs₁, hq⟩ := newLog_of_le job false s (timedOutLine_length job task)
  refine ⟨s₁.withJob (timeOutJob now job) hstorable', ?_, .of_quiet hq (.save hstorable')⟩
  unfold timeOut
  rw [bind_of_ok hs₁, save_of_storable hstorable']

variable (now) in
theorem timeOut_each (task : Task) {jobs : List Job} {f : Job → Job} {s₁ : State} (h : Sweeps s s₁ f)
    (hf : ∀ row, (f row).id = row.id) (hjobs : ∀ job ∈ jobs, job ∈ s.jobs) :
    ∃ s', each jobs (timeOut now task) s₁ = (.ok (), s') ∧
      Sweeps s s' fun job => if job ∈ jobs then timeOutJob now job else f job := by
  induction jobs generalizing f s₁ with
  | nil => exact ⟨s₁, rfl, by simpa using h⟩
  | cons job rest ih =>
    have hjob : job ∈ s.jobs := hjobs job (by simp)
    obtain ⟨s₂, hs₂, hw⟩ := timeOut_writes now task (s.storable job hjob) s₁
    have hnext := h.write (timeOutJob now job) hf hjob rfl hw
    have hnextId : ∀ row, (if row = job then timeOutJob now job else f row).id = row.id := by
      intro row
      by_cases heq : row = job
      · rw [if_pos heq, heq]
        rfl
      · rw [if_neg heq, hf]
    obtain ⟨s', hs', h'⟩ := ih hnext hnextId fun row hrow => hjobs row (by simp [hrow])
    refine ⟨s', by rw [each_cons, bind_of_ok hs₂, hs'], ?_⟩
    have hfun : (fun row => if row ∈ rest then timeOutJob now row else if row = job then timeOutJob now job else f row) =
        fun row => if row ∈ job :: rest then timeOutJob now row else f row := by
      funext row
      by_cases heq : row = job
      · subst heq
        simp
      · simp [heq]
    rwa [hfun] at h'

theorem State.mem_joined {jobs : List Job} {job : Job} : job ∈ s.joined jobs ↔ job ∈ jobs := by
  simp only [State.joined, List.mem_flatMap, List.mem_replicate]
  constructor
  · intro h
    obtain ⟨row, hrow, -, rfl⟩ := h
    exact hrow
  · intro h
    exact ⟨job, h, by omega, rfl⟩

variable (now) in
/-- One turn of the loop over executed tasks. -/
theorem checkStaleJobsOf_cases (task : Task) (extask : ExecutedTask) (s : State) :
    ∃ s₁ s', checkStaleJobsOf now task extask s = (.ok (), s') ∧
      Sweeps s s₁ (endJobs extask.id (stale now task) (timeOutJob now)) ∧
      (s₁.jobStatuses extask.id = [] ∧ s' = s₁ ∨
        s₁.jobStatuses extask.id ≠ [] ∧ Settles now s₁ s' extask (aggregate (s₁.jobStatuses extask.id))) := by
  let jobs := s.joined ((s.jobsOf extask.id).filter (stale now task))
  have hmem : ∀ job, job ∈ jobs ↔ job ∈ s.jobs ∧ (job.executedTask = extask.id && stale now task job) = true := by
    intro job
    simp [jobs, State.mem_joined, State.jobsOf, Table.mem_def, and_comm]
  obtain ⟨s₁, hs₁, h₁⟩ := timeOut_each now task (f := id) ⟨rfl, rfl, rfl, by simp, fun _ => rfl⟩ (fun _ => rfl)
    fun job hjob => ((hmem job).mp hjob).1
  have hsweep : Sweeps s s₁ (endJobs extask.id (stale now task) (timeOutJob now)) := by
    refine ⟨h₁.inventory, h₁.tasks, h₁.executedTasks, ?_, h₁.completions⟩
    intro row
    rw [h₁.jobs]
    refine exists_congr fun old => and_congr_right fun hold => ?_
    simp only [hmem, hold, true_and, endJobs, id]
  have hturn : checkStaleJobsOf now task extask s = updateExecutedTaskStatus now extask none true false s₁ := by
    unfold checkStaleJobsOf
    rw [read_bind]
    exact bind_of_ok hs₁
  by_cases hempty : s₁.jobStatuses extask.id = []
  · exact ⟨s₁, s₁, hturn.trans (updateExecutedTaskStatus_empty none hempty), hsweep, Or.inl ⟨hempty, rfl⟩⟩
  · obtain ⟨s', hs', hset⟩ := updateExecutedTaskStatus_settles now none hempty
    exact ⟨s₁, s', hturn.trans hs', hsweep, Or.inr ⟨hempty, hset⟩⟩

variable (now) in
theorem cancel_cases (extaskId : Nat) (orgId : String) (refused : Bool) (s : State) :
    (cancel now extaskId orgId refused s).2 = s ∨
      ∃ extask s₁ s', s.executedTasks.get? extaskId = some extask ∧ extask.status = .running ∧
        (cancel now extaskId orgId refused s).2 = s' ∧
        Sweeps s s₁ (endJobs extask.id (fun job => job.status = .running) cancelJob) ∧
        (s₁.jobStatuses extask.id = [] ∧ s' = s₁ ∨
          s₁.jobStatuses extask.id ≠ [] ∧ Settles now s₁ s' extask (aggregate (s₁.jobStatuses extask.id))) := by
  unfold cancel
  rw [read_bind]
  cases hget : (s.executedTasks.get? extaskId).filter fun extask => extask.orgId = orgId with
  | none => exact Or.inl rfl
  | some extask =>
    have hrow := (Option.filter_eq_some_iff.mp hget).1
    by_cases hrun : extask.status = .running
    · simp only [if_pos hrun, read_bind]
      split
      · exact Or.inl rfl
      · right
        have hsweep := cancelRunning_sweeps extask.id s
        rw [write_bind]
        by_cases hempty : (cancelRunning extask.id s).jobStatuses extask.id = []
        · refine ⟨extask, _, _, hrow, hrun, ?_, hsweep, Or.inl ⟨hempty, rfl⟩⟩
          rw [updateExecutedTaskStatus_empty none hempty]
        · obtain ⟨s', hs', hset⟩ := updateExecutedTaskStatus_settles now none hempty
          refine ⟨extask, _, s', hrow, hrun, ?_, hsweep, Or.inr ⟨hempty, hset⟩⟩
          rw [hs']
    · simp only [if_neg hrun]
      exact Or.inl rfl

end Advisor.Tasks
