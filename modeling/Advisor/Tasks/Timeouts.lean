import Advisor.Tasks.Aggregate

/-! Timing out stale jobs, executed task by executed task and task by task. -/

namespace Advisor.Tasks

open Python Procedure Django Relational

variable {now : Instant} {task : Task} {s s' t : State}

def State.taskOf (s : State) (job : Job) : Option Nat := (s.executedTasks.get? job.executedTask).map (·.task)

/-- The stale jobs of some executed tasks have been timed out, and these executed tasks aggregated. -/
structure Passed (now : Instant) (task : Task) (s t : State) (done : List Nat) : Prop where
  tasks : t.tasks = s.tasks
  jobs : ∀ row, row ∈ t.jobs ↔
    ∃ old ∈ s.jobs, (if old.executedTask ∈ done ∧ stale now task old then timeOutJob now old else old) = row
  others : ∀ k ∉ done, t.executedTasks.get? k = s.executedTasks.get? k
  ended : ∀ extask ∈ s.executedTasks, extask.id ∈ done → ∃ row, t.executedTasks.get? extask.id = some row ∧
    row.task = extask.task ∧ (.running ∉ t.jobStatuses extask.id → row.status ≠ .running)

theorem Passed.refl (now : Instant) (task : Task) (s : State) : Passed now task s s [] where
  tasks := rfl
  jobs row := by simp
  others _ _ := rfl
  ended _ _ h := by cases h

theorem ExecutedTask.aggregated_task (extask : ExecutedTask) (status : ExecutedTaskStatus) :
    (extask.aggregated now status).task = extask.task := by
  unfold ExecutedTask.aggregated
  split_ifs <;> rfl

theorem Settles.jobStatuses {extask : ExecutedTask} {status : ExecutedTaskStatus} (h : Settles now s s' extask status)
    (k : Nat) : s'.jobStatuses k = s.jobStatuses k := by
  rw [State.jobStatuses, State.jobsOf, h.jobs]
  rfl

theorem Settles.ended {extask : ExecutedTask} (h : Settles now s s' extask (aggregate (s.jobStatuses extask.id)))
    (hbefore : ∃ row, s.executedTasks.get? extask.id = some row ∧ row.task = extask.task ∧
      (extask.status ≠ .running → .running ∉ s.jobStatuses extask.id → row.status ≠ .running)) :
    ∃ row, s'.executedTasks.get? extask.id = some row ∧ row.task = extask.task ∧
      (.running ∉ s'.jobStatuses extask.id → row.status ≠ .running) := by
  obtain ⟨row, hrow, htask, hrow'⟩ := hbefore
  rw [h.executedTasks, h.jobStatuses]
  by_cases hs : extask.status = aggregate (s.jobStatuses extask.id)
  · rw [if_pos hs]
    refine ⟨row, hrow, htask, fun hnone => hrow' ?_ hnone⟩
    rw [hs]
    exact fun hagg => hnone (aggregate_running.mp hagg)
  · rw [if_neg hs, get?_overwrite, if_pos (ExecutedTask.aggregated_id now extask _)]
    refine ⟨_, rfl, extask.aggregated_task _, fun hnone => ?_⟩
    rw [ExecutedTask.aggregated_status]
    exact fun hagg => hnone (aggregate_running.mp hagg)

theorem Passed.sweep {done : List Nat} {extask : Nat} {t₁ : State} (h : Passed now task s t done)
    (hsweep : Sweeps t t₁ (endJobs extask (stale now task) (timeOutJob now))) (row : Job) :
    row ∈ t₁.jobs ↔ ∃ old ∈ s.jobs,
      (if old.executedTask ∈ extask :: done ∧ stale now task old then timeOutJob now old else old) = row := by
  rw [hsweep.jobs]
  simp only [h.jobs, exists_exists_and_eq_and]
  refine exists_congr fun old => and_congr_right fun _ => ?_
  -- a job that has been timed out is not stale any more
  have hdone : stale now task (timeOutJob now old) = false := by simp [stale, timeOutJob]
  by_cases hstale : stale now task old = true
  · by_cases hin : old.executedTask ∈ done
    · rw [if_pos ⟨hin, hstale⟩, if_pos ⟨List.mem_cons_of_mem _ hin, hstale⟩, endJobs, hdone]
      simp
    · rw [if_neg fun hc => hin hc.1]
      by_cases he : old.executedTask = extask
      · simp [endJobs, he, hstale]
      · simp [endJobs, he, hin]
  · simp [endJobs, hstale]

theorem Settles.get?_ne {extask : ExecutedTask} {status : ExecutedTaskStatus} (h : Settles now s s' extask status)
    {k : Nat} (hk : k ≠ extask.id) : s'.executedTasks.get? k = s.executedTasks.get? k := by
  rw [h.executedTasks]
  split_ifs
  · rfl
  · rw [get?_overwrite, if_neg]
    rw [ExecutedTask.aggregated_id]
    exact Ne.symm hk

theorem Sweeps.mem_jobStatuses_ne {extask k : Nat} (h : Sweeps s s' (endJobs extask (stale now task) (timeOutJob now)))
    (hk : k ≠ extask) (status : JobStatus) : status ∈ s'.jobStatuses k ↔ status ∈ s.jobStatuses k := by
  rw [h.mem_jobStatuses (endJobs_executedTask fun _ => rfl), State.mem_jobStatuses]
  refine exists_congr fun old => and_congr_right fun _ => and_congr_right fun he => ?_
  have hmiss : old.executedTask ≠ extask := fun hc => hk (he.symm.trans hc)
  simp [endJobs, hmiss]

variable (now task) in
theorem passed_step {done : List Nat} {extask : ExecutedTask} {job : Job} (h : Passed now task s t done)
    (hextask : extask ∈ s.executedTasks) (hjob : job ∈ s.jobs) (hof : job.executedTask = extask.id) :
    ∃ t', checkStaleJobsOf now task extask t = (.ok (), t') ∧ Passed now task s t' (extask.id :: done) := by
  obtain ⟨t₁, t', hrun, hsweep, hcase⟩ := checkStaleJobsOf_cases now task extask t
  refine ⟨t', hrun, ?_⟩
  have hjobs := h.sweep hsweep
  have hstatus : t₁.jobStatuses extask.id ≠ [] := by
    have hrow := (hjobs _).mpr ⟨job, hjob, rfl⟩
    refine List.ne_nil_of_mem (State.mem_jobStatuses.mpr ⟨_, hrow, ?_, rfl⟩)
    split_ifs
    · exact hof
    · exact hof
  obtain ⟨hempty, -⟩ | ⟨-, hset⟩ := hcase
  · exact absurd hempty hstatus
  have hother : ∀ k, k ≠ extask.id → t'.executedTasks.get? k = t.executedTasks.get? k := by
    intro k hk
    rw [hset.get?_ne hk, hsweep.executedTasks]
  refine ⟨hset.tasks.trans (hsweep.tasks.trans h.tasks), fun row => by rw [hset.jobs]; exact hjobs row, ?_, ?_⟩
  · intro k hk
    rw [hother k fun he => hk (by simp [he]), h.others k fun hin => hk (by simp [hin])]
  · intro other hin hdone
    by_cases he : other.id = extask.id
    · obtain rfl := s.executedTasks.key_injOn hin hextask he
      refine hset.ended ?_
      rw [hsweep.executedTasks]
      by_cases hbefore : other.id ∈ done
      · obtain ⟨row, hrow, htask, hnone⟩ := h.ended other hin hbefore
        refine ⟨row, hrow, htask, fun _ hidle => hnone fun hrunning => hidle ?_⟩
        -- a second turn of one executed task finds nothing stale
        have hin' : ∀ k, k ∈ other.id :: done ↔ k ∈ done := by
          intro k
          rw [List.mem_cons]
          exact ⟨fun hk => hk.elim (fun hk => hk ▸ hbefore) id, Or.inr⟩
        obtain ⟨old, hold, he, hs⟩ := State.mem_jobStatuses.mp hrunning
        refine State.mem_jobStatuses.mpr ⟨old, ?_, he, hs⟩
        rw [hjobs]
        simp only [hin']
        exact (h.jobs old).mp hold
      · rw [h.others _ hbefore, Table.mem_iff_get?.mp hin]
        exact ⟨other, rfl, rfl, fun hs _ => hs⟩
    · obtain ⟨row, hrow, htask, hnone⟩ := h.ended other hin (by simpa [he] using hdone)
      refine ⟨row, (hother _ he).trans hrow, htask, fun hidle => hnone fun hrunning => hidle ?_⟩
      rw [hset.jobStatuses]
      exact (hsweep.mem_jobStatuses_ne he _).mpr hrunning

variable (now task) in
theorem passed_each {extasks : List ExecutedTask} {done : List Nat} (h : Passed now task s t done)
    (hextasks : ∀ extask ∈ extasks, extask ∈ s.executedTasks ∧ ∃ job ∈ s.jobs, job.executedTask = extask.id) :
    ∃ t', each extasks (checkStaleJobsOf now task) t = (.ok (), t') ∧
      Passed now task s t' ((extasks.map (·.id)).reverse ++ done) := by
  induction extasks generalizing t done with
  | nil => exact ⟨t, rfl, h⟩
  | cons extask rest ih =>
    obtain ⟨hin, job, hjob, hof⟩ := hextasks extask (by simp)
    obtain ⟨t₁, hrun, h₁⟩ := passed_step now task h hin hjob hof
    obtain ⟨t', hrest, h'⟩ := ih h₁ fun other ho => hextasks other (by simp [ho])
    refine ⟨t', by rw [each_cons, bind_of_ok hrun, hrest], ?_⟩
    rw [List.map_cons, List.reverse_cons, List.append_assoc]
    exact h'

theorem mem_timedOutExtasks {extask : ExecutedTask} :
    extask ∈ timedOutExtasks now task s ↔ extask ∈ s.executedTasks ∧ extask.task = task.id ∧
      ∃ job ∈ s.jobs, job.executedTask = extask.id ∧ stale now task job = true := by
  simp only [timedOutExtasks, List.mem_flatMap]
  constructor
  · rintro ⟨row, hrow, hmem⟩
    split_ifs at hmem with htask
    · obtain ⟨job, hjob, rfl⟩ := List.mem_map.mp hmem
      obtain ⟨hjob, hstale⟩ := List.mem_filter.mp hjob
      obtain ⟨hstored, he⟩ := List.mem_filter.mp hjob
      exact ⟨hrow, htask, job, hstored, of_decide_eq_true he, hstale⟩
    · cases hmem
  · rintro ⟨hrow, htask, job, hjob, he, hstale⟩
    refine ⟨extask, hrow, ?_⟩
    rw [if_pos htask]
    exact List.mem_map.mpr ⟨job, List.mem_filter.mpr ⟨List.mem_filter.mpr ⟨hjob, by simpa using he⟩, hstale⟩, rfl⟩

/-- Jobs of the task that are stale end; nothing of another task changes. -/
structure TimedOut (now : Instant) (task : Task) (s t : State) : Prop where
  tasks : t.tasks = s.tasks
  jobs : ∀ row, row ∈ t.jobs ↔
    ∃ old ∈ s.jobs, (if s.taskOf old = some task.id ∧ stale now task old then timeOutJob now old else old) = row
  rows : ∀ k, (t.executedTasks.get? k).map (·.task) = (s.executedTasks.get? k).map (·.task)
  others : ∀ extask ∈ s.executedTasks, extask.task ≠ task.id → extask ∈ t.executedTasks
  ended : ∀ extask ∈ s.executedTasks, extask.task = task.id →
    (∃ job ∈ s.jobs, job.executedTask = extask.id ∧ stale now task job = true) →
    .running ∉ t.jobStatuses extask.id → ∀ row ∈ t.executedTasks, row.id = extask.id → row.status ≠ .running

theorem State.taskOf_eq_some {job : Job} {k : Nat} :
    s.taskOf job = some k ↔ ∃ extask ∈ s.executedTasks, job.executedTask = extask.id ∧ extask.task = k := by
  rw [State.taskOf, Option.map_eq_some_iff]
  constructor
  · rintro ⟨extask, hget, hk⟩
    obtain ⟨hin, hid⟩ := Table.get?_eq_some.mp hget
    exact ⟨extask, hin, hid.symm, hk⟩
  · rintro ⟨extask, hin, hid, hk⟩
    exact ⟨extask, by rw [hid, Table.mem_iff_get?.mp hin], hk⟩

variable (now task) in
theorem checkStaleJobsFor_timedOut (s : State) :
    ∃ t, checkStaleJobsFor now task s = (.ok (), t) ∧ TimedOut now task s t := by
  obtain ⟨t, hrun, h⟩ := passed_each now task (Passed.refl now task s) fun extask hextask => by
    obtain ⟨hin, -, job, hjob, hof, -⟩ := mem_timedOutExtasks.mp hextask
    exact ⟨hin, job, hjob, hof⟩
  refine ⟨t, hrun, ?_⟩
  rw [List.append_nil] at h
  have hdone : ∀ extask ∈ s.executedTasks, (extask.id ∈ ((timedOutExtasks now task s).map (·.id)).reverse ↔
      extask.task = task.id ∧ ∃ job ∈ s.jobs, job.executedTask = extask.id ∧ stale now task job = true) := by
    intro extask hin
    rw [List.mem_reverse, List.mem_map]
    constructor
    · rintro ⟨other, hother, hid⟩
      obtain ⟨hin', htask, hstale⟩ := mem_timedOutExtasks.mp hother
      obtain rfl := s.executedTasks.key_injOn hin' hin hid
      exact ⟨htask, hstale⟩
    · rintro ⟨htask, hstale⟩
      exact ⟨extask, mem_timedOutExtasks.mpr ⟨hin, htask, hstale⟩, rfl⟩
  have hstored : ∀ k ∈ ((timedOutExtasks now task s).map (·.id)).reverse, ∃ extask ∈ s.executedTasks, extask.id = k := by
    intro k hk
    obtain ⟨extask, hextask, hid⟩ := List.mem_map.mp (List.mem_reverse.mp hk)
    exact ⟨extask, (mem_timedOutExtasks.mp hextask).1, hid⟩
  generalize ((timedOutExtasks now task s).map (·.id)).reverse = done at h hdone hstored
  refine ⟨h.tasks, fun row => ?_, fun k => ?_, ?_, ?_⟩
  · rw [h.jobs]
    refine exists_congr fun old => and_congr_right fun hold => ?_
    by_cases hstale : stale now task old = true
    · have hiff : old.executedTask ∈ done ↔ s.taskOf old = some task.id := by
        rw [State.taskOf_eq_some]
        constructor
        · intro hin
          obtain ⟨extask, hextask, hid⟩ := hstored _ hin
          rw [← hid] at hin
          exact ⟨extask, hextask, hid.symm, ((hdone extask hextask).mp hin).1⟩
        · rintro ⟨extask, hextask, hid, htask⟩
          rw [hid]
          exact (hdone extask hextask).mpr ⟨htask, old, hold, hid, hstale⟩
      simp only [hiff]
    · simp [hstale]
  · by_cases hk : k ∈ done
    · obtain ⟨extask, hextask, rfl⟩ := hstored k hk
      obtain ⟨row, hrow, htask, -⟩ := h.ended extask hextask hk
      rw [hrow, Table.mem_iff_get?.mp hextask, Option.map_some, Option.map_some, htask]
    · rw [h.others k hk]
  · intro extask hextask hne
    have hnot : extask.id ∉ done := fun hin => hne ((hdone extask hextask).mp hin).1
    rw [Table.mem_iff_get?, h.others _ hnot]
    exact Table.mem_iff_get?.mp hextask
  · intro extask hextask htask hstale hidle row hrow hid
    obtain ⟨last, hlast, -, hended⟩ := h.ended extask hextask ((hdone extask hextask).mpr ⟨htask, hstale⟩)
    rw [← hid, Table.mem_iff_get?.mp hrow, Option.some.injEq] at hlast
    rw [hlast]
    exact hended hidle

variable {clock : Task → Instant} {tasks : List Task}

def timedOutBy (clock : Task → Instant) (tasks : List Task) (s : State) (job : Job) : Job :=
  match tasks.find? fun task => s.taskOf job = some task.id && stale (clock task) task job with
  | some task => timeOutJob (clock task) job
  | none => job

structure AllTimedOut (clock : Task → Instant) (tasks : List Task) (s t : State) : Prop where
  jobs : ∀ row, row ∈ t.jobs ↔ ∃ old ∈ s.jobs, timedOutBy clock tasks s old = row
  others : ∀ extask ∈ s.executedTasks, (∀ task ∈ tasks, extask.task ≠ task.id) → extask ∈ t.executedTasks
  ended : ∀ task ∈ tasks, ∀ extask ∈ s.executedTasks, extask.task = task.id →
    (∃ job ∈ s.jobs, job.executedTask = extask.id ∧ stale (clock task) task job = true) →
    .running ∉ t.jobStatuses extask.id → ∀ row ∈ t.executedTasks, row.id = extask.id → row.status ≠ .running

theorem TimedOut.taskOf (h : TimedOut now task s t) {job job' : Job} (hof : job'.executedTask = job.executedTask) :
    t.taskOf job' = s.taskOf job := by
  rw [State.taskOf, State.taskOf, hof, h.rows]

theorem TimedOut.timedOutBy (h : TimedOut (clock task) task s t) (job : Job) :
    Tasks.timedOutBy clock tasks t
        (if s.taskOf job = some task.id ∧ stale (clock task) task job then timeOutJob (clock task) job else job) =
      Tasks.timedOutBy clock (task :: tasks) s job := by
  by_cases hit : s.taskOf job = some task.id ∧ stale (clock task) task job = true
  · have hnone : (tasks.find? fun other => t.taskOf (timeOutJob (clock task) job) = some other.id &&
        stale (clock other) other (timeOutJob (clock task) job)) = none := by
      rw [List.find?_eq_none]
      intro other _
      simp [stale, timeOutJob]
    rw [if_pos hit, Tasks.timedOutBy, hnone, Tasks.timedOutBy, List.find?_cons_of_pos]
    simpa using hit
  · rw [if_neg hit, Tasks.timedOutBy, Tasks.timedOutBy, List.find?_cons_of_neg, h.taskOf rfl]
    simpa using hit

variable (clock) in
theorem checkStaleJobs_timedOut (hunique : (tasks.map (·.id)).Nodup) (s : State) :
    ∃ t, each tasks (fun task => checkStaleJobsFor (clock task) task) s = (.ok (), t) ∧ AllTimedOut clock tasks s t := by
  induction tasks generalizing s with
  | nil =>
    refine ⟨s, rfl, fun row => ?_, fun extask hextask _ => hextask, fun task htask => ?_⟩
    · simp [timedOutBy]
    · cases htask
  | cons task rest ih =>
    rw [List.map_cons, List.nodup_cons] at hunique
    obtain ⟨s₁, hrun, h₁⟩ := checkStaleJobsFor_timedOut (clock task) task s
    obtain ⟨t, hrest, h⟩ := ih hunique.2 s₁
    refine ⟨t, by rw [each_cons, bind_of_ok hrun, hrest], fun row => ?_, ?_, ?_⟩
    · rw [h.jobs]
      simp only [h₁.jobs, exists_exists_and_eq_and, h₁.timedOutBy]
    · intro extask hextask hnone
      have hin := h₁.others extask hextask (hnone task (by simp))
      exact h.others extask hin fun other ho => hnone other (by simp [ho])
    · intro other hother extask hextask htask hstale hidle row hrow hid
      have hne : ∀ later ∈ rest, later.id ≠ task.id := fun later hl he =>
        hunique.1 (he ▸ List.mem_map_of_mem hl)
      rcases List.mem_cons.mp hother with rfl | hlater
      · -- the tasks after it leave its executed tasks and their jobs alone
        obtain ⟨first, hfirst, hof⟩ : ∃ first, s₁.executedTasks.get? extask.id = some first ∧ first.task = other.id := by
          have hget := h₁.rows extask.id
          rw [Table.mem_iff_get?.mp hextask, Option.map_some, htask] at hget
          exact Option.map_eq_some_iff.mp hget
        obtain ⟨hfirstIn, hfirstId⟩ := Table.get?_eq_some.mp hfirst
        have hlast := h.others first hfirstIn fun later hl he => hne later hl (he.symm.trans hof)
        obtain rfl := t.executedTasks.key_injOn hrow hlast (hid.trans hfirstId.symm)
        refine h₁.ended extask hextask htask hstale (fun hrunning => hidle ?_) row hfirstIn hid
        obtain ⟨old, hold, he, hs⟩ := State.mem_jobStatuses.mp hrunning
        have hkept : timedOutBy clock rest s₁ old = old := by
          have hnone : (rest.find? fun later => s₁.taskOf old = some later.id && stale (clock later) later old) = none := by
            rw [List.find?_eq_none]
            intro later hl
            have hold' : s₁.taskOf old = some other.id := State.taskOf_eq_some.mpr ⟨row, hfirstIn, he.trans hid.symm, hof⟩
            simp [hold', (hne later hl).symm]
          rw [timedOutBy, hnone]
        exact State.mem_jobStatuses.mpr ⟨old, (h.jobs old).mpr ⟨old, hold, hkept⟩, he, hs⟩
      · have hdiff : extask.task ≠ task.id := fun he => hne other hlater (htask.symm.trans he)
        obtain ⟨job, hjob, hof, hjobStale⟩ := hstale
        have hjobIn : job ∈ s₁.jobs := by
          refine (h₁.jobs job).mpr ⟨job, hjob, if_neg fun hc => ?_⟩
          obtain ⟨owner, howner, hid', htask'⟩ := State.taskOf_eq_some.mp hc.1
          obtain rfl := s.executedTasks.key_injOn howner hextask (hid'.symm.trans hof)
          exact hdiff htask'
        exact h.ended other hlater extask (h₁.others extask hextask hdiff) htask ⟨job, hjobIn, hof, hjobStale⟩ hidle row hrow hid

/-- A job has run for longer than its task lets it. -/
def State.Overdue (s : State) (clock : Task → Instant) (job : Job) : Prop :=
  ∃ task ∈ s.tasks, s.taskOf job = some task.id ∧ stale (clock task) task job = true

/-- The command times out all overdue jobs, nothing else, and their executed tasks end with them. -/
structure TimesOut (clock : Task → Instant) (s s' : State) : Prop where
  overdue : ∀ job ∈ s.jobs, s.Overdue clock job → ∃ row ∈ s'.jobs, row.id = job.id ∧ row.status = .timeout
  others : ∀ job ∈ s.jobs, ¬s.Overdue clock job → job ∈ s'.jobs
  ended : ∀ extask ∈ s.executedTasks, (∃ job ∈ s.jobs, job.executedTask = extask.id ∧ s.Overdue clock job) →
    .running ∉ s'.jobStatuses extask.id → ∀ row ∈ s'.executedTasks, row.id = extask.id → row.status ≠ .running

theorem staleJobTimeout_timedOut (clock : Task → Instant) (s : State) :
    ∃ t, staleJobTimeout clock s = (.ok (), t) ∧ AllTimedOut clock (s.tasks.rows.filter (·.active)) s t := by
  have hunique : ((s.tasks.rows.filter (·.active)).map (·.id)).Nodup :=
    s.tasks.unique.sublist (List.filter_sublist.map _)
  obtain ⟨t, hrun, h⟩ := checkStaleJobs_timedOut clock hunique s
  exact ⟨t, by rw [staleJobTimeout, read_bind, hrun], h⟩

variable (clock tasks s) in
theorem timedOutBy_cases (job : Job) :
    (∃ task ∈ tasks, s.taskOf job = some task.id ∧ stale (clock task) task job = true ∧
        timedOutBy clock tasks s job = timeOutJob (clock task) job) ∨
      (∀ task ∈ tasks, s.taskOf job = some task.id → stale (clock task) task job = false) ∧
        timedOutBy clock tasks s job = job := by
  unfold timedOutBy
  cases hfind : tasks.find? fun task => s.taskOf job = some task.id && stale (clock task) task job with
  | some task =>
    have hp := List.find?_some hfind
    simp only [Bool.and_eq_true, decide_eq_true_eq] at hp
    exact Or.inl ⟨task, List.mem_of_find?_eq_some hfind, hp.1, hp.2, rfl⟩
  | none =>
    refine Or.inr ⟨fun task htask hof => ?_, rfl⟩
    have hp := List.find?_eq_none.mp hfind task htask
    simpa [hof] using hp

/-- Stale jobs are all timed out exactly where none of them is of a task that is not active any more. -/
theorem timesOut_iff (clock : Task → Instant) (s : State) :
    (staleJobTimeout clock s).1 = .ok () ∧ TimesOut clock s (staleJobTimeout clock s).2 ↔
      ∀ task ∈ s.tasks, task.active = false → ∀ job ∈ s.jobs, s.taskOf job = some task.id →
        stale (clock task) task job = false := by
  obtain ⟨t, hrun, h⟩ := staleJobTimeout_timedOut clock s
  rw [hrun]
  have hactive : ∀ task, task ∈ s.tasks.rows.filter (·.active) ↔ task ∈ s.tasks ∧ task.active = true := by
    intro task
    rw [List.mem_filter]
    rfl
  constructor
  · rintro ⟨-, htimes⟩ task htask hinactive job hjob hof
    by_contra hstale
    have hstale : stale (clock task) task job = true := by simpa using hstale
    obtain ⟨row, hrow, hid, hstatus⟩ := htimes.overdue job hjob ⟨task, htask, hof, hstale⟩
    have hkept : job ∈ t.jobs := by
      rcases timedOutBy_cases s clock (s.tasks.rows.filter (·.active)) job with
        ⟨other, hother, hof', -⟩ | ⟨-, hsame⟩
      · obtain ⟨hin, ha⟩ := (hactive other).mp hother
        obtain rfl := s.tasks.key_injOn htask hin (Option.some.inj (hof.symm.trans hof'))
        simp [hinactive] at ha
      · exact (h.jobs job).mpr ⟨job, hjob, hsame⟩
    obtain rfl := t.jobs.key_injOn hrow hkept hid
    simp [stale, hstatus] at hstale
  · intro hnone
    have howner : ∀ job ∈ s.jobs, s.Overdue clock job ↔ ∃ task ∈ s.tasks.rows.filter (·.active),
        s.taskOf job = some task.id ∧ stale (clock task) task job = true := by
      intro job hjob
      constructor
      · rintro ⟨task, htask, hof, hstale⟩
        refine ⟨task, (hactive task).mpr ⟨htask, ?_⟩, hof, hstale⟩
        by_contra hinactive
        simp [hnone task htask (by simpa using hinactive) job hjob hof] at hstale
      · rintro ⟨task, htask, hof, hstale⟩
        exact ⟨task, ((hactive task).mp htask).1, hof, hstale⟩
    refine ⟨rfl, fun job hjob hoverdue => ?_, fun job hjob hnot => ?_, fun extask hextask hsome hidle => ?_⟩
    · rcases timedOutBy_cases s clock (s.tasks.rows.filter (·.active)) job with
        ⟨task, -, -, -, hout⟩ | ⟨hfresh, -⟩
      · exact ⟨_, (h.jobs _).mpr ⟨job, hjob, rfl⟩, by rw [hout]; rfl, by rw [hout]; rfl⟩
      · obtain ⟨task, htask, hof, hstale⟩ := (howner job hjob).mp hoverdue
        simp [hfresh task htask hof] at hstale
    · rcases timedOutBy_cases s clock (s.tasks.rows.filter (·.active)) job with
        ⟨task, htask, hof, hstale, -⟩ | ⟨-, hsame⟩
      · exact absurd ((howner job hjob).mpr ⟨task, htask, hof, hstale⟩) hnot
      · exact (h.jobs job).mpr ⟨job, hjob, hsame⟩
    · obtain ⟨job, hjob, hof, hoverdue⟩ := hsome
      obtain ⟨task, htask, hof', hstale⟩ := (howner job hjob).mp hoverdue
      obtain ⟨owner, howner', hid, htask'⟩ := State.taskOf_eq_some.mp hof'
      obtain rfl := s.executedTasks.key_injOn howner' hextask (hid.symm.trans hof)
      exact h.ended task htask owner hextask htask' ⟨job, hjob, hof, hstale⟩ hidle

def deactivated : State := { sampleState with tasks := .single { sampleTask with active := false } }

theorem deactivated_runs_on :
    ¬ ((staleJobTimeout (fun _ => 4000000000) deactivated).1 = .ok () ∧
      TimesOut (fun _ => 4000000000) deactivated (staleJobTimeout (fun _ => 4000000000) deactivated).2) := by
  rintro ⟨-, htimes⟩
  obtain ⟨row, hrow, -, hstatus⟩ := htimes.overdue (sampleJob 1 .running) (Table.mem_single.mpr rfl)
    ⟨{ sampleTask with active := false }, Table.mem_single.mpr rfl, by decide, by decide⟩
  have hrunning : (staleJobTimeout (fun _ => 4000000000) deactivated).2.jobs.rows.map (·.status) = [.running] := by
    decide +kernel
  have hmem := List.mem_map_of_mem (f := (·.status)) hrow
  rw [hrunning, hstatus] at hmem
  simp at hmem

end Advisor.Tasks
