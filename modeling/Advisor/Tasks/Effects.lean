import Advisor.Tasks.Service

/-! What each writer does to the rows of executed tasks and jobs: one lemma for a change of one
job, one for the aggregation after it, and from them what the handlers of updates do. -/

namespace Advisor.Tasks

open Python Procedure Django Relational

theorem toString_length_le {n : Nat} (h : n < 2 ^ 31) : (toString n).length ≤ 10 :=
  (Nat.length_repr_le_iff (by decide)).mpr (by omega)

theorem JobStatus.label_length (status : JobStatus) : status.label.length ≤ 9 := by
  cases status <;> decide

theorem noMoreLine_length (extask : ExecutedTask) : (noMoreLine extask).length ≤ 255 := by
  have hname := extask.name_length
  have hid := toString_length_le extask.id_lt
  have h₁ : "No more jobs running for executed task ".length = 39 := rfl
  have h₂ : " (ID ".length = 5 := rfl
  have h₃ : ")".length = 1 := rfl
  unfold noMoreLine
  rw [String.length_append, String.length_append, String.length_append, String.length_append, h₁, h₂, h₃]
  generalize extask.name.length = name at hname ⊢
  generalize (toString extask.id).length = id at hid ⊢
  omega

theorem updatedLine_length (lib : TaskLibrary) (job : Job) : (updatedLine lib job).length ≤ 255 := by
  have hlabel := job.status.label_length
  have htime := lib.showTime_length job.updatedOn
  have hrun := job.runId.toText_length
  have h₁ : "Updated job status to ".length = 22 := rfl
  have h₂ : ", update time ".length = 14 := rfl
  have h₃ : " (run ID ".length = 9 := rfl
  have h₄ : ")".length = 1 := rfl
  unfold updatedLine
  rw [String.length_append, String.length_append, String.length_append, String.length_append,
    String.length_append, String.length_append, h₁, h₂, h₃, h₄, hrun]
  generalize job.status.label.length = label at hlabel ⊢
  generalize (lib.showTime job.updatedOn).length = time at htime ⊢
  omega

theorem timedOutLine_length (job : Job) (task : Task) : (timedOutLine job task.timeout).length ≤ 255 := by
  have htimeout := toString_length_le task.timeout_lt
  have hrun := job.runId.toText_length
  have h₁ : "Job timed out after ".length = 20 := rfl
  have h₂ : " seconds (run ID ".length = 17 := rfl
  have h₃ : ")".length = 1 := rfl
  unfold timedOutLine
  rw [String.length_append, String.length_append, String.length_append, String.length_append, h₁, h₂, h₃, hrun]
  generalize (toString task.timeout).length = timeout at htimeout ⊢
  omega

/-- The status of an executed task that the statuses of its jobs add up to. -/
def aggregate (statuses : List JobStatus) : ExecutedTaskStatus :=
  if .running ∈ statuses then .running
  else if .cancelled ∈ statuses then .cancelled
  else if ∀ status ∈ statuses, status = .success then .completed
  else if .success ∈ statuses then .completedWithErrors
  else .failure

theorem aggregate_congr {l l' : List JobStatus} (h : ∀ status, status ∈ l ↔ status ∈ l') :
    aggregate l = aggregate l' := by
  simp only [aggregate, h]

theorem aggregate_running {l : List JobStatus} : aggregate l = .running ↔ .running ∈ l := by
  constructor
  · intro h
    by_contra hn
    simp only [aggregate, if_neg hn] at h
    split_ifs at h
  · intro h
    rw [aggregate, if_pos h]

theorem finishedStatus_eq {l : List JobStatus} (h : .running ∉ l) : finishedStatus l = aggregate l := by
  rw [aggregate, if_neg h]
  rfl

def ExecutedTask.aggregated (now : Instant) (extask : ExecutedTask) (status : ExecutedTaskStatus) : ExecutedTask :=
  if extask.status = status then extask
  else if status = .running then { extask with status := .running }
  else { extask with status, endTime := some now }

theorem ExecutedTask.aggregated_status (now : Instant) (extask : ExecutedTask) (status : ExecutedTaskStatus) :
    (extask.aggregated now status).status = status := by
  unfold aggregated
  split_ifs with h h'
  · exact h
  · exact h'.symm
  · rfl

theorem ExecutedTask.aggregated_id (now : Instant) (extask : ExecutedTask) (status : ExecutedTaskStatus) :
    (extask.aggregated now status).id = extask.id := by
  unfold aggregated
  split_ifs <;> rfl

def EventMessage.completes (extask : Nat) (message : EventMessage) : Bool :=
  message.eventType = "executed-task-completed" && message.payload.lookup "executed_task_id" = some (.int extask)

namespace State

def completions (s : State) (extask : Nat) : Nat := s.sent.countP (EventMessage.completes extask)

def otherStatuses (s : State) (job : Job) : List JobStatus :=
  ((s.jobsOf job.executedTask).filter fun row => row.id ≠ job.id).map (·.status)

theorem mem_jobStatuses {s : State} {extask : Nat} {status : JobStatus} :
    status ∈ s.jobStatuses extask ↔ ∃ row ∈ s.jobs, row.executedTask = extask ∧ row.status = status := by
  simp [jobStatuses, jobsOf, Table.mem_def, and_assoc]

theorem mem_otherStatuses {s : State} {job : Job} {status : JobStatus} :
    status ∈ s.otherStatuses job ↔
      ∃ row ∈ s.jobs, row.id ≠ job.id ∧ row.executedTask = job.executedTask ∧ row.status = status := by
  simp [otherStatuses, jobsOf, Table.mem_def, and_assoc]

end State

/-- Nothing but log lines and messages about jobs differs. -/
structure Quiet (s s' : State) : Prop where
  inventory : s'.inventory = s.inventory
  tasks : s'.tasks = s.tasks
  executedTasks : s'.executedTasks = s.executedTasks
  jobs : s'.jobs = s.jobs
  completions : ∀ extask, s'.completions extask = s.completions extask

theorem Quiet.refl (s : State) : Quiet s s := ⟨rfl, rfl, rfl, rfl, fun _ => rfl⟩

theorem Quiet.trans {s s' s'' : State} (h : Quiet s s') (h' : Quiet s' s'') : Quiet s s'' :=
  ⟨h'.inventory.trans h.inventory, h'.tasks.trans h.tasks, h'.executedTasks.trans h.executedTasks,
    h'.jobs.trans h.jobs, fun extask => (h'.completions extask).trans (h.completions extask)⟩

theorem Quiet.jobStatuses {s s' : State} (h : Quiet s s') (extask : Nat) :
    s'.jobStatuses extask = s.jobStatuses extask := by
  simp only [State.jobStatuses, State.jobsOf, h.jobs]

theorem Quiet.systems {s s' : State} (h : Quiet s s') (job : Job) : s'.systems job = s.systems job := by
  simp only [State.systems, h.inventory]

theorem newLog_of_le (job : Job) (isOk : Bool) {line : String} (s : State) (h : line.length ≤ 255) :
    ∃ s', job.newLog isOk line s = (.ok (), s') ∧ Quiet s s' := by
  refine ⟨{ s with logs := s.logs ++ [⟨job.id, isOk, line, h⟩] }, ?_, ⟨rfl, rfl, rfl, rfl, fun _ => rfl⟩⟩
  rw [Job.newLog, dif_pos h]
  rfl

theorem newLog_of_lt {job : Job} {isOk : Bool} {line : String} {s : State} (h : ¬ line.length ≤ 255) :
    job.newLog isOk line s = (.error .dataError, s) := by
  rw [Job.newLog, dif_neg h]
  rfl

theorem newLog_quiet (job : Job) (isOk : Bool) (line : String) (s : State) :
    ∃ r s', job.newLog isOk line s = (r, s') ∧ Quiet s s' := by
  by_cases h : line.length ≤ 255
  · obtain ⟨s', hs', hq⟩ := newLog_of_le job isOk s h
    exact ⟨_, s', hs', hq⟩
  · exact ⟨_, s, newLog_of_lt h, .refl s⟩

def Replaces (s s' : State) (job : Job) : Prop := ∀ row, row ∈ s'.jobs ↔ row = job ∨ row ∈ s.jobs ∧ row.id ≠ job.id

structure Writes (s s' : State) (job : Job) : Prop where
  inventory : s'.inventory = s.inventory
  tasks : s'.tasks = s.tasks
  executedTasks : s'.executedTasks = s.executedTasks
  jobs : Replaces s s' job
  completions : ∀ extask, s'.completions extask = s.completions extask

namespace Writes

variable {s s' s'' : State} {job job' : Job}

theorem refl (h : job ∈ s.jobs) : Writes s s job := by
  refine ⟨rfl, rfl, rfl, ?_, fun _ => rfl⟩
  intro row
  constructor
  · intro hrow
    by_cases hid : row.id = job.id
    · exact Or.inl (s.jobs.key_injOn hrow h hid)
    · exact Or.inr ⟨hrow, hid⟩
  · intro hrow
    rcases hrow with hrow | hrow
    · exact hrow ▸ h
    · exact hrow.1

theorem stored (h : Writes s s' job) : job ∈ s'.jobs := (h.jobs job).mpr (Or.inl rfl)

theorem trans (h : Writes s s' job) (h' : Writes s' s'' job') (hid : job'.id = job.id) : Writes s s'' job' := by
  refine ⟨h'.inventory.trans h.inventory, h'.tasks.trans h.tasks, h'.executedTasks.trans h.executedTasks, ?_,
    fun extask => (h'.completions extask).trans (h.completions extask)⟩
  intro row
  rw [h'.jobs, h.jobs]
  constructor
  · intro hrow
    rcases hrow with hrow | ⟨hrow | hrow, hne⟩
    · exact Or.inl hrow
    · exact absurd (by rw [hrow, hid]) hne
    · exact Or.inr ⟨hrow.1, hne⟩
  · intro hrow
    rcases hrow with hrow | hrow
    · exact Or.inl hrow
    · exact Or.inr ⟨Or.inr ⟨hrow.1, hid ▸ hrow.2⟩, hrow.2⟩

theorem quiet (h : Writes s s' job) (h' : Quiet s' s'') : Writes s s'' job := by
  refine ⟨h'.inventory.trans h.inventory, h'.tasks.trans h.tasks, h'.executedTasks.trans h.executedTasks, ?_,
    fun extask => (h'.completions extask).trans (h.completions extask)⟩
  intro row
  rw [h'.jobs, h.jobs]

theorem of_quiet (h : Quiet s s') (h' : Writes s' s'' job) : Writes s s'' job := by
  refine ⟨h'.inventory.trans h.inventory, h'.tasks.trans h.tasks, h'.executedTasks.trans h.executedTasks, ?_,
    fun extask => (h'.completions extask).trans (h.completions extask)⟩
  intro row
  rw [h'.jobs, h.jobs]

theorem save (hs : job.storable) : Writes s (s.withJob job hs) job :=
  ⟨rfl, rfl, rfl, fun _ => mem_overwrite, fun _ => rfl⟩

theorem systems (h : Writes s s' job) (row : Job) : s'.systems row = s.systems row := by
  simp only [State.systems, h.inventory]

end Writes

namespace Replaces

variable {s s' : State} {job : Job}

theorem mem_jobStatuses (h : Replaces s s' job) {old : Job} (hold : old ∈ s.jobs) (hid : old.id = job.id)
    (hextask : old.executedTask = job.executedTask) {extask : Nat} {status : JobStatus} :
    status ∈ s'.jobStatuses extask ↔
      if extask = job.executedTask then status = job.status ∨ status ∈ s.otherStatuses job
      else status ∈ s.jobStatuses extask := by
  rw [State.mem_jobStatuses]
  simp only [h _]
  by_cases he : extask = job.executedTask
  · rw [if_pos he, State.mem_otherStatuses, he]
    constructor
    · intro hx
      obtain ⟨row, hrow | hrow, hr, rfl⟩ := hx
      · exact Or.inl (congrArg Job.status hrow)
      · exact Or.inr ⟨row, hrow.1, hrow.2, hr, rfl⟩
    · intro hx
      rcases hx with hx | ⟨row, hrow, hne, hr, rfl⟩
      · exact ⟨job, Or.inl rfl, rfl, hx.symm⟩
      · exact ⟨row, Or.inr ⟨hrow, hne⟩, hr, rfl⟩
  · rw [if_neg he, State.mem_jobStatuses]
    constructor
    · intro hx
      obtain ⟨row, hrow | hrow, hr, rfl⟩ := hx
      · exact absurd (hrow ▸ hr).symm he
      · exact ⟨row, hrow.1, hr, rfl⟩
    · intro hx
      obtain ⟨row, hrow, hr, rfl⟩ := hx
      refine ⟨row, Or.inr ⟨hrow, ?_⟩, hr, rfl⟩
      intro heq
      have hrow' : row = old := s.jobs.key_injOn hrow hold (heq.trans hid.symm)
      exact he (by rw [← hr, hrow', hextask])

theorem otherStatuses (h : Replaces s s' job) {row : Job} (hid : row.id = job.id) {status : JobStatus} :
    status ∈ s'.otherStatuses row ↔ status ∈ s.otherStatuses row := by
  rw [State.mem_otherStatuses, State.mem_otherStatuses]
  simp only [h _]
  constructor
  · intro hx
    obtain ⟨r, hr | hr, hne, hs⟩ := hx
    · exact absurd (by rw [hr, hid]) hne
    · exact ⟨r, hr.1, hne, hs⟩
  · intro hx
    obtain ⟨r, hr, hne, hs⟩ := hx
    exact ⟨r, Or.inr ⟨hr, hid ▸ hne⟩, hne, hs⟩

end Replaces

def ExecutedTask.announced (extask : ExecutedTask) (status : ExecutedTaskStatus) : Nat :=
  if extask.status ≠ status ∧ status ≠ .running then 1 else 0

theorem completedMessage_completes (slug : String) (extask : ExecutedTask) (id : Nat) :
    (completedMessage slug extask).completes id = decide (extask.id = id) := by
  simp [completedMessage, EventMessage.completes, List.lookup_cons]

theorem completions_append {s s' : State} (message : EventMessage) (h : s'.sent = s.sent ++ [message])
    (extask : Nat) : s'.completions extask = s.completions extask + if message.completes extask then 1 else 0 := by
  rw [State.completions, h, List.countP_append, List.countP_singleton]
  rfl

variable (now : Instant)

/-- What `update_executed_task_status` does when it is not asked to delete. -/
structure Settles (s s' : State) (extask : ExecutedTask) (status : ExecutedTaskStatus) : Prop where
  inventory : s'.inventory = s.inventory
  tasks : s'.tasks = s.tasks
  jobs : s'.jobs = s.jobs
  executedTasks : s'.executedTasks = if extask.status = status then s.executedTasks
    else s.executedTasks.upsert (overwrite ExecutedTask.id) (extask.aggregated now status)
  completions : ∀ id, s'.completions id = s.completions id + if extask.id = id then extask.announced status else 0

variable {now}

theorem settles_of_quiet {s s' : State} {extask : ExecutedTask} (h : Quiet s s') :
    Settles now s s' extask extask.status := by
  refine ⟨h.inventory, h.tasks, h.jobs, ?_, ?_⟩
  · rw [if_pos rfl, h.executedTasks]
  · intro id
    rw [h.completions]
    simp [ExecutedTask.announced]

theorem noMoreRunning_quiet (extask : ExecutedTask) (job : Option Job) (s : State) :
    ∃ s', noMoreRunning extask job s = (.ok (), s') ∧ Quiet s s' := by
  cases job with
  | none => exact ⟨s, rfl, .refl s⟩
  | some job => exact newLog_of_le job true s (noMoreLine_length extask)

variable (now) in
theorem finish_settles (extask : ExecutedTask) {status : ExecutedTaskStatus} (s : State) (h : status ≠ .running) :
    ∃ s', finish now extask status true s = (.ok (), s') ∧ Settles now s s' extask status := by
  by_cases hs : extask.status = status
  · refine ⟨s, by rw [finish, if_pos hs]; rfl, ?_⟩
    rw [← hs]
    exact settles_of_quiet (.refl s)
  · have hset : extask.aggregated now status = { extask with status, endTime := some now } := by
      rw [ExecutedTask.aggregated, if_neg hs, if_neg h]
    let slug := ((s.tasks.get? extask.task).map (·.slug)).getD ""
    refine ⟨{ s with
      executedTasks := s.executedTasks.upsert (overwrite ExecutedTask.id) (extask.aggregated now status)
      sent := s.sent ++ [completedMessage slug (extask.aggregated now status)] }, ?_, rfl, rfl, rfl, ?_, ?_⟩
    · rw [finish, if_neg hs, hset]
      rfl
    · rw [if_neg hs]
    · intro id
      refine (completions_append _ rfl id).trans ?_
      rw [completedMessage_completes, hset]
      simp [ExecutedTask.announced, hs, h]

variable (now) in
theorem updateExecutedTaskStatus_settles {extask : ExecutedTask} (job : Option Job) {s : State}
    (hne : s.jobStatuses extask.id ≠ []) :
    ∃ s', updateExecutedTaskStatus now extask job true false s = (.ok (), s') ∧
      Settles now s s' extask (aggregate (s.jobStatuses extask.id)) := by
  have hempty : (s.jobStatuses extask.id).isEmpty = false := by simpa using hne
  unfold updateExecutedTaskStatus
  rw [read_bind, hempty]
  by_cases hrun : JobStatus.running ∈ s.jobStatuses extask.id
  · rw [if_neg Bool.false_ne_true, if_pos hrun, aggregate_running.mpr hrun]
    by_cases hs : extask.status = .running
    · refine ⟨s, by simp [hs], ?_⟩
      rw [← hs]
      exact settles_of_quiet (.refl s)
    · refine ⟨{ s with
        executedTasks := s.executedTasks.upsert (overwrite ExecutedTask.id) (extask.aggregated now .running) },
        ?_, rfl, rfl, rfl, ?_, ?_⟩
      · rw [if_pos hs, ExecutedTask.aggregated, if_neg hs, if_pos rfl]
        rfl
      · rw [if_neg hs]
      · intro id
        simp [ExecutedTask.announced, State.completions]
  · have hagg : aggregate (s.jobStatuses extask.id) ≠ .running := fun h => hrun (aggregate_running.mp h)
    rw [if_neg Bool.false_ne_true, if_neg hrun, finishedStatus_eq hrun]
    obtain ⟨s₁, hs₁, hq⟩ := noMoreRunning_quiet extask job s
    obtain ⟨s₂, hs₂, hset⟩ := finish_settles now extask s₁ hagg
    refine ⟨s₂, by rw [bind_of_ok hs₁, hs₂], hset.inventory.trans hq.inventory, hset.tasks.trans hq.tasks,
      hset.jobs.trans hq.jobs, ?_, ?_⟩
    · rw [hset.executedTasks, hq.executedTasks]
    · intro id
      rw [hset.completions, hq.completions]

theorem updateExecutedTaskStatus_empty {extask : ExecutedTask} (job : Option Job) {s : State}
    (he : s.jobStatuses extask.id = []) : updateExecutedTaskStatus now extask job true false s = (.ok (), s) := by
  unfold updateExecutedTaskStatus
  rw [read_bind, he]
  rfl

def State.aggregateWith (s : State) (job : Job) : ExecutedTaskStatus := aggregate (job.status :: s.otherStatuses job)

/-- Two versions of one job: what no writer changes is the same. -/
structure Job.Same (old job : Job) : Prop where
  id : job.id = old.id
  executedTask : job.executedTask = old.executedTask
  systemId : job.systemId = old.systemId
  runId : job.runId = old.runId

theorem Job.Same.trans {a b c : Job} (h : a.Same b) (h' : b.Same c) : a.Same c :=
  ⟨h'.id.trans h.id, h'.executedTask.trans h.executedTask, h'.systemId.trans h.systemId, h'.runId.trans h.runId⟩

def State.HasJob (s : State) (job : Job) : Prop := ∃ old ∈ s.jobs, old.Same job

theorem Replaces.aggregate_jobStatuses {s s' : State} {job : Job} (h : Replaces s s' job) (hold : s.HasJob job) :
    aggregate (s'.jobStatuses job.executedTask) = s.aggregateWith job := by
  obtain ⟨old, hm, hsame⟩ := hold
  refine aggregate_congr fun status => ?_
  rw [h.mem_jobStatuses hm hsame.id.symm hsame.executedTask.symm, if_pos rfl, List.mem_cons]

theorem Replaces.aggregateWith {s s' : State} {job row : Job} (h : Replaces s s' job) (hid : row.id = job.id) :
    s'.aggregateWith row = s.aggregateWith row := by
  refine aggregate_congr fun status => ?_
  rw [List.mem_cons, List.mem_cons, h.otherStatuses hid]

variable (now) in
/-- The row of one job is written, and then its executed task aggregated. -/
structure Aggregated (s s' : State) (job : Job) : Prop where
  inventory : s'.inventory = s.inventory
  tasks : s'.tasks = s.tasks
  jobs : Replaces s s' job
  executedTasks : ∀ id, s'.executedTasks.get? id = (s.executedTasks.get? id).map fun row =>
    if id = job.executedTask then row.aggregated now (s.aggregateWith job) else row
  completions : ∀ id, s'.completions id = s.completions id + if id = job.executedTask then
    ((s.executedTasks.get? id).map fun row => row.announced (s.aggregateWith job)).getD 0 else 0

theorem Writes.aggregated_of_settles {s s₁ s₂ : State} {job : Job} {extask : ExecutedTask} (h : Writes s s₁ job)
    (hextask : s₁.executedTasks.get? job.executedTask = some extask)
    (h' : Settles now s₁ s₂ extask (s.aggregateWith job)) : Aggregated now s s₂ job := by
  have hid : extask.id = job.executedTask := Table.get?_key hextask
  have hrow : s.executedTasks.get? job.executedTask = some extask := by rw [← h.executedTasks, hextask]
  refine ⟨h'.inventory.trans h.inventory, h'.tasks.trans h.tasks, ?_, ?_, ?_⟩
  · intro row
    rw [h'.jobs, h.jobs]
  · intro id
    rw [h'.executedTasks, h.executedTasks]
    by_cases he : id = job.executedTask
    · simp only [if_pos he]
      rw [he, hrow]
      by_cases hs : extask.status = s.aggregateWith job
      · rw [if_pos hs, hrow, Option.map_some, ExecutedTask.aggregated, if_pos hs]
      · rw [if_neg hs, get?_overwrite, if_pos ((extask.aggregated_id now _).trans hid), Option.map_some]
    · simp only [if_neg he, Option.map_id']
      split
      · rfl
      · rw [get?_overwrite, if_neg]
        intro hk
        exact he (by rw [← hk, extask.aggregated_id, hid])
  · intro id
    rw [h'.completions, h.completions, hid]
    by_cases he : id = job.executedTask
    · rw [if_pos he.symm, if_pos he, he, hrow]
      rfl
    · rw [if_neg (Ne.symm he), if_neg he]

theorem Writes.aggregated_of_none {s s' : State} {job : Job} (h : Writes s s' job)
    (hnone : s'.executedTasks.get? job.executedTask = none) : Aggregated now s s' job := by
  rw [h.executedTasks] at hnone
  refine ⟨h.inventory, h.tasks, h.jobs, ?_, ?_⟩
  · intro id
    rw [h.executedTasks]
    by_cases he : id = job.executedTask
    · rw [he, hnone]
      rfl
    · simp [he]
  · intro id
    rw [h.completions]
    by_cases he : id = job.executedTask
    · rw [if_pos he, he, hnone]
      rfl
    · rw [if_neg he, Nat.add_zero]

theorem Aggregated.of_quiet {s s₁ s' : State} {job : Job} (h : Quiet s s₁) (h' : Aggregated now s₁ s' job) :
    Aggregated now s s' job := by
  have hothers : s₁.aggregateWith job = s.aggregateWith job := by
    simp only [State.aggregateWith, State.otherStatuses, State.jobsOf, h.jobs]
  refine ⟨h'.inventory.trans h.inventory, h'.tasks.trans h.tasks, ?_, ?_, ?_⟩
  · intro row
    rw [h'.jobs, h.jobs]
  · intro id
    rw [h'.executedTasks, h.executedTasks, hothers]
  · intro id
    rw [h'.completions, h.executedTasks, h.completions, hothers]

theorem Aggregated.of_writes {s s₁ s' : State} {job job' : Job} (h : Writes s s₁ job') (hid : job'.id = job.id)
    (h' : Aggregated now s₁ s' job) : Aggregated now s s' job := by
  have hothers : s₁.aggregateWith job = s.aggregateWith job := h.jobs.aggregateWith hid.symm
  refine ⟨h'.inventory.trans h.inventory, h'.tasks.trans h.tasks, ?_, ?_, ?_⟩
  · intro row
    rw [h'.jobs, h.jobs]
    constructor
    · intro hrow
      rcases hrow with hrow | ⟨hrow | hrow, hne⟩
      · exact Or.inl hrow
      · exact absurd (by rw [hrow, hid]) hne
      · exact Or.inr ⟨hrow.1, hne⟩
    · intro hrow
      rcases hrow with hrow | hrow
      · exact Or.inl hrow
      · exact Or.inr ⟨Or.inr ⟨hrow.1, hid ▸ hrow.2⟩, hrow.2⟩
  · intro id
    rw [h'.executedTasks, h.executedTasks, hothers]
  · intro id
    rw [h'.completions, h.executedTasks, h.completions, hothers]

def State.room (s : State) (job : Job) : Bool :=
  (s.systems job).all fun system =>
    (eventTypeForJobStatus job.status).isNone || (sentLine job system.displayName).length ≤ 255

theorem endedMessage_completes {status : JobStatus} {eventType slug : String} {extask : ExecutedTask} {job : Job}
    {system : AdvisorInventoryHost} {newStatus : JobStatus} (h : eventTypeForJobStatus status = some eventType)
    (id : Nat) : (endedMessage eventType slug extask job system newStatus).completes id = false := by
  cases status <;> simp [eventTypeForJobStatus] at h <;> subst h <;> simp [endedMessage, EventMessage.completes]

theorem announceJob_quiet (extask : ExecutedTask) {job : Job} (newStatus : JobStatus) {s : State}
    (hsys : (s.systems job).length ≤ 1) :
    ∃ r s', announceJob extask job newStatus s = (r, s') ∧ Quiet s s' ∧
      (s.room job = true → r = .ok ()) ∧ (r = .ok () → s.room job = true) := by
  unfold announceJob
  rw [read_bind]
  rcases hsystems : s.systems job with _ | ⟨system, _ | ⟨other, rest⟩⟩
  · exact ⟨.ok (), s, rfl, .refl s, fun _ => rfl, fun _ => by simp [State.room, hsystems]⟩
  · cases htype : eventTypeForJobStatus job.status with
    | none => exact ⟨.ok (), s, rfl, .refl s, fun _ => rfl, fun _ => by simp [State.room, hsystems, htype]⟩
    | some eventType =>
      let slug := ((s.tasks.get? extask.task).map (·.slug)).getD ""
      let message := endedMessage eventType slug extask job system newStatus
      let s₁ : State := { s with sent := s.sent ++ [message] }
      have hq : Quiet s s₁ := by
        refine ⟨rfl, rfl, rfl, rfl, fun id => ?_⟩
        rw [completions_append (s := s) message rfl id, endedMessage_completes htype]
        rfl
      by_cases hroom : (sentLine job system.displayName).length ≤ 255
      · obtain ⟨s₂, hs₂, hq₂⟩ := newLog_of_le job true s₁ hroom
        exact ⟨.ok (), s₂, hs₂, hq.trans hq₂, fun _ => rfl,
          fun _ => by simp [State.room, hsystems, hroom]⟩
      · refine ⟨.error .dataError, s₁, newLog_of_lt (s := s₁) hroom, hq, ?_, ?_⟩
        · intro h
          simp [State.room, hsystems, htype, hroom] at h
        · intro h
          cases h
  · simp [hsystems] at hsys

/-- A job whose status has been set; `t` is the time of the update, if it could be read as one. -/
def Job.withStatus (now : Instant) (job : Job) (status : JobStatus) (t : Option Instant) : Job :=
  if job.status = status then job else { job with status, updatedOn := t.getD now }

variable (now) in
theorem Job.withStatus_status (job : Job) (status : JobStatus) (t : Option Instant) :
    (job.withStatus now status t).status = status := by
  unfold withStatus
  split_ifs with h
  · exact h
  · rfl

variable (now) in
theorem Job.withStatus_same (job : Job) (status : JobStatus) (t : Option Instant) :
    job.Same (job.withStatus now status t) := by
  unfold withStatus
  split_ifs
  · exact ⟨rfl, rfl, rfl, rfl⟩
  · exact ⟨rfl, rfl, rfl, rfl⟩

theorem Job.withStatus_storable (job : Job) (status : JobStatus) (t : Option Instant) :
    (job.withStatus now status t).storable = job.storable := by
  unfold withStatus
  split_ifs <;> rfl

variable (now) in
theorem State.hasJob_withStatus {s : State} {job : Job} (hjob : job ∈ s.jobs) (status : JobStatus)
    (t : Option Instant) : s.HasJob (job.withStatus now status t) := ⟨job, hjob, job.withStatus_same now status t⟩

theorem save_of_storable {job : Job} {s : State} (h : job.storable) : job.save s = (.ok (), s.withJob job h) := by
  rw [Job.save, dif_pos h]
  rfl

theorem save_of_not_storable {job : Job} {s : State} (h : ¬ job.storable) : ∃ e, job.save s = (.error e, s) := by
  rw [Job.save, dif_neg h]
  split_ifs
  · exact ⟨_, rfl⟩
  · exact ⟨_, rfl⟩

variable {lib : TaskLibrary}

variable (lib now) in
theorem setJobStatus_cases {job : Job} (status : JobStatus) (updatedOn : Json) {s : State} (hjob : job ∈ s.jobs) :
    (∃ e, setJobStatus lib now job status updatedOn s = (.error e, s) ∧ job.status ≠ status ∧
        parseDatetime lib.django updatedOn = .error e) ∨
      ∃ t s', (job.status ≠ status → parseDatetime lib.django updatedOn = .ok t) ∧
        setJobStatus lib now job status updatedOn s = (.ok (job.withStatus now status t), s') ∧
        Writes s s' (job.withStatus now status t) := by
  unfold setJobStatus
  by_cases hs : job.status = status
  · refine Or.inr ⟨none, s, fun hn => absurd hs hn, ?_, ?_⟩
    · rw [if_pos hs, Job.withStatus, if_pos hs]
      rfl
    · rw [Job.withStatus, if_pos hs]
      exact .refl hjob
  · rw [if_neg hs]
    cases ht : parseDatetime lib.django updatedOn with
    | error e => exact Or.inl ⟨e, bind_of_error rfl, hs, rfl⟩
    | ok t =>
      have hset : job.withStatus now status t = { job with status, updatedOn := t.getD now } := by
        rw [Job.withStatus, if_neg hs]
      have hstorable : (job.withStatus now status t).storable :=
        (job.withStatus_storable status t).trans (s.storable job hjob)
      obtain ⟨s', hs', hq⟩ := newLog_of_le (job.withStatus now status t) (status = .success) (s.withJob _ hstorable)
        (updatedLine_length lib (job.withStatus now status t))
      refine Or.inr ⟨t, s', fun _ => rfl, ?_, (Writes.save hstorable).quiet hq⟩
      have hlift : (lift (Except.ok t) : Run (Option Instant)) s = (.ok t, s) := rfl
      rw [bind_of_ok hlift]
      simp only [← hset]
      rw [bind_of_ok (save_of_storable hstorable), bind_of_ok hs']
      rfl

variable (now) in
/-- What `update_job_status` comes to once the row of the job is `job'`. -/
inductive Updated (s : State) (job' : Job) : Except Exception Job → State → Prop
  | unannounced {e s'} : s.room job' = false → Writes s s' job' → Updated s job' (.error e) s'
  | orphan {e s'} : s.executedTasks.get? job'.executedTask = none → Aggregated now s s' job' →
      Updated s job' (.error e) s'
  | done {s'} : s.room job' = true → Aggregated now s s' job' → Updated s job' (.ok job') s'

theorem State.room_congr {s s' : State} (h : s'.inventory = s.inventory) (job : Job) : s'.room job = s.room job := by
  simp only [State.room, State.systems, h]

variable (lib now) in
theorem updateJobStatus_cases {job : Job} (status : JobStatus) (updatedOn : Json) {s : State} (hjob : job ∈ s.jobs)
    (hsys : (s.systems job).length ≤ 1) :
    (∃ e, updateJobStatus lib now job status updatedOn s = (.error e, s) ∧ job.status ≠ status ∧
        parseDatetime lib.django updatedOn = .error e) ∨
      ∃ t r s', (job.status ≠ status → parseDatetime lib.django updatedOn = .ok t) ∧
        updateJobStatus lib now job status updatedOn s = (r, s') ∧
        Updated now s (job.withStatus now status t) r s' := by
  unfold updateJobStatus
  rcases setJobStatus_cases now lib status updatedOn hjob with
    ⟨e, he, hs⟩ | ⟨t, s₁, ht, hs₁, hw⟩
  · exact Or.inl ⟨e, bind_of_error he, hs⟩
  · refine Or.inr ⟨t, ?_⟩
    rw [bind_of_ok hs₁, read_bind]
    have hold := State.hasJob_withStatus now hjob status t
    have hsys₁ : (s₁.systems (job.withStatus now status t)).length ≤ 1 := by
      have heq : s₁.systems (job.withStatus now status t) = s.systems job := by
        simp only [State.systems, hw.inventory, (job.withStatus_same now status t).systemId]
      rwa [heq]
    generalize job.withStatus now status t = job' at hw hold hsys₁ ⊢
    cases hextask : s₁.executedTasks.get? job'.executedTask with
    | none =>
      have hnone : s.executedTasks.get? job'.executedTask = none := by rw [← hw.executedTasks, hextask]
      exact ⟨_, _, ht, rfl, .orphan hnone (hw.aggregated_of_none hextask)⟩
    | some extask =>
      obtain ⟨r, s₂, hs₂, hq, hroom, hok⟩ := announceJob_quiet extask status hsys₁
      cases r with
      | error e =>
        have hno : s.room job' = false := by
          rw [← State.room_congr hw.inventory]
          cases hr : s₁.room job' with
          | false => rfl
          | true => cases hroom hr
        exact ⟨_, _, ht, bind_of_error hs₂, .unannounced hno (hw.quiet hq)⟩
      | ok _ =>
        have hroom' : s.room job' = true := by
          rw [← State.room_congr hw.inventory]
          exact hok rfl
        have hw₂ := hw.quiet hq
        have hextask₂ : s₂.executedTasks.get? job'.executedTask = some extask := by rw [hq.executedTasks, hextask]
        have hagg := hw₂.jobs.aggregate_jobStatuses hold
        have hid : extask.id = job'.executedTask := Table.get?_key hextask
        have hne : s₂.jobStatuses extask.id ≠ [] := by
          intro hnil
          have hmem : job'.status ∈ s₂.jobStatuses job'.executedTask :=
            State.mem_jobStatuses.mpr ⟨job', hw₂.stored, rfl, rfl⟩
          rw [← hid, hnil] at hmem
          exact absurd hmem List.not_mem_nil
        obtain ⟨s₃, hs₃, hset⟩ := updateExecutedTaskStatus_settles now (some job') hne
        rw [hid, hagg] at hset
        exact ⟨.ok job', s₃, ht, (bind_of_ok hs₂).trans (bind_of_ok hs₃),
          .done hroom' (hw₂.aggregated_of_settles hextask₂ hset)⟩

end Advisor.Tasks
