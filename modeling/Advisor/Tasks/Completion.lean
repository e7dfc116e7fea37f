import Advisor.Tasks.Aggregate

/-! Completion messages and end times: one message for each time an executed task ends, and an end
time exactly on those that have ended. -/

namespace Advisor.Tasks

open Python Procedure Django Relational

variable {lib : TaskLibrary} {now : Instant} {s s' : State} {job : Job}

/-- Whether an executed task goes from running to a final status between two states. -/
def State.ended (s s' : State) (extask : Nat) : Nat :=
  match s.executedTasks.get? extask, s'.executedTasks.get? extask with
  | some row, some row' => if row.status = .running ∧ row'.status ≠ .running then 1 else 0
  | _, _ => 0

/-- The executed tasks with an end time are those that are not running. -/
def State.Timed (s : State) : Prop := ∀ extask ∈ s.executedTasks, extask.endTime.isSome ↔ extask.status ≠ .running

/-- An executed task is left alone, or its status is set from running, or to what it is. -/
inductive Ends (now : Instant) (s s' : State) (extask : Nat) : Prop
  | alone : s'.executedTasks.get? extask = s.executedTasks.get? extask →
      s'.completions extask = s.completions extask → Ends now s s' extask
  | set {row} (status : ExecutedTaskStatus) : s.executedTasks.get? extask = some row →
      (row.status = .running ∨ row.status = status) →
      s'.executedTasks.get? extask = some (row.aggregated now status) →
      s'.completions extask = s.completions extask + row.announced status → Ends now s s' extask

theorem Ends.completions {extask : Nat} (h : Ends now s s' extask) :
    s'.completions extask = s.completions extask + s.ended s' extask := by
  cases h with
  | alone hrow hcount =>
    rw [hcount, State.ended, hrow]
    cases s.executedTasks.get? extask with
    | none => rfl
    | some row => simp
  | set status hrow hstart hrow' hcount =>
    rename_i row
    rw [hcount, State.ended, hrow, hrow']
    simp only [ExecutedTask.aggregated_status, ExecutedTask.announced]
    rcases hstart with hstart | hstart
    · rw [hstart]
      cases status <;> simp
    · rw [hstart]
      cases status <;> simp

theorem timed_of_ends (h : ∀ extask, Ends now s s' extask) (hs : s.Timed) : s'.Timed := by
  intro extask hextask
  have hget := Table.mem_iff_get?.mp hextask
  cases h extask.id with
  | alone hrow _ =>
    rw [hrow] at hget
    exact hs extask (Table.get?_eq_some.mp hget).1
  | set status hrow hstart hrow' hcount =>
    rename_i row
    clear hcount
    have hbefore := hs row (Table.get?_eq_some.mp hrow).1
    rw [hrow', Option.some.injEq] at hget
    subst hget
    by_cases hsame : row.status = status
    · rwa [ExecutedTask.aggregated, if_pos hsame]
    · have hrunning : row.status = .running := by
        rcases hstart with hstart | hstart
        · exact hstart
        · exact absurd hstart hsame
      have hfinal : status ≠ .running := fun hc => hsame (hrunning.trans hc.symm)
      rw [ExecutedTask.aggregated, if_neg hsame, if_neg hfinal]
      simp [hfinal]

theorem Quiet.ends (h : Quiet s s') (extask : Nat) : Ends now s s' extask :=
  .alone (by rw [h.executedTasks]) (h.completions extask)

theorem Writes.ends (h : Writes s s' job) (extask : Nat) : Ends now s s' extask :=
  .alone (by rw [h.executedTasks]) (h.completions extask)

theorem Aggregated.ends (h : Aggregated now s s' job)
    (hstart : ∀ row, s.executedTasks.get? job.executedTask = some row →
      row.status = .running ∨ row.status = s.aggregateWith job) (extask : Nat) : Ends now s s' extask := by
  have hrow := h.executedTasks extask
  have hcount := h.completions extask
  by_cases he : extask = job.executedTask
  · simp only [if_pos he] at hrow hcount
    cases hget : s.executedTasks.get? extask with
    | none =>
      rw [hget] at hrow hcount
      exact .alone (hrow.trans hget.symm) hcount
    | some row =>
      rw [hget] at hrow hcount
      exact .set _ hget (hstart row (he ▸ hget)) hrow hcount
  · simp only [if_neg he, Option.map_id', Nat.add_zero] at hrow hcount
    exact .alone hrow hcount

theorem Settles.ends {extask : ExecutedTask} {status : ExecutedTaskStatus} (h : Settles now s s' extask status)
    (hrow : s.executedTasks.get? extask.id = some extask) (hstart : extask.status = .running ∨ extask.status = status)
    (id : Nat) : Ends now s s' id := by
  have hcount := h.completions id
  by_cases he : extask.id = id
  · subst he
    rw [if_pos rfl] at hcount
    refine .set status hrow hstart ?_ hcount
    rw [h.executedTasks]
    split_ifs with hsame
    · rw [hrow, ExecutedTask.aggregated, if_pos hsame]
    · rw [get?_overwrite, if_pos (extask.aggregated_id now status)]
  · rw [if_neg he, Nat.add_zero] at hcount
    refine .alone ?_ hcount
    rw [h.executedTasks]
    split_ifs
    · rfl
    · rw [get?_overwrite, if_neg (by rwa [extask.aggregated_id])]

def Leaves (s s' : State) (extask : Nat) : Prop :=
  s'.executedTasks.get? extask = s.executedTasks.get? extask ∧ s'.completions extask = s.completions extask

theorem Ends.after_leaves {s₁ : State} {extask : Nat} (h : Leaves s s₁ extask) (h' : Ends now s₁ s' extask) :
    Ends now s s' extask := by
  obtain ⟨hrow, hcount⟩ := h
  cases h' with
  | alone hrow' hcount' => exact .alone (hrow'.trans hrow) (hcount'.trans hcount)
  | set status hrow₁ hstart hrow' hcount' =>
    exact .set status (hrow ▸ hrow₁) hstart hrow' (by rw [hcount', hcount])

theorem Ends.before_leaves {s₁ : State} {extask : Nat} (h : Ends now s s₁ extask) (h' : Leaves s₁ s' extask) :
    Ends now s s' extask := by
  obtain ⟨hrow', hcount'⟩ := h'
  cases h with
  | alone hrow hcount => exact .alone (hrow'.trans hrow) (hcount'.trans hcount)
  | set status hrow hstart hrow₁ hcount => exact .set status hrow hstart (hrow'.trans hrow₁) (hcount'.trans hcount)

theorem Leaves.trans {s₁ : State} {extask : Nat} (h : Leaves s s₁ extask) (h' : Leaves s₁ s' extask) :
    Leaves s s' extask := ⟨h'.1.trans h.1, h'.2.trans h.2⟩

theorem Sweeps.leaves {f : Job → Job} (h : Sweeps s s' f) (extask : Nat) : Leaves s s' extask :=
  ⟨by rw [h.executedTasks], h.completions extask⟩

theorem Settles.leaves {extask : ExecutedTask} {status : ExecutedTaskStatus} (h : Settles now s s' extask status)
    {id : Nat} (hid : extask.id ≠ id ∨ extask.status = status) : Leaves s s' id := by
  have hcount := h.completions id
  constructor
  · rw [h.executedTasks]
    split_ifs with hsame
    · rfl
    · rw [get?_overwrite, if_neg]
      rw [extask.aggregated_id]
      exact hid.resolve_right hsame
  · rcases hid with hid | hid
    · rwa [if_neg hid] at hcount
    · simpa [ExecutedTask.announced, hid] using hcount

section Timeouts

variable (now) (s) (task : Task)

def State.afterTimeout (extask : Nat) : ExecutedTaskStatus :=
  aggregate ((s.jobsOf extask).map fun job => if stale now task job then .timeout else job.status)

/-- Where the loop over executed tasks stands: the jobs of some have been timed out. -/
structure TimingOut (s₁ : State) (done : Nat → Bool) : Prop where
  jobs : ∀ row, row ∈ s₁.jobs ↔
    ∃ old ∈ s.jobs, (if done old.executedTask && stale now task old then timeOutJob now old else old) = row
  leaves : ∀ extask, done extask = false → Leaves s s₁ extask
  ends : ∀ extask, done extask = true → Ends now s s₁ extask

variable {now} {s} {task}

theorem stale_timeOutJob (job : Job) : stale now task (timeOutJob now job) = false := by
  simp [stale, timeOutJob]

theorem endJobs_timeOut (extask : Nat) (done : Nat → Bool) (old : Job) :
    endJobs extask (stale now task) (timeOutJob now)
        (if done old.executedTask && stale now task old then timeOutJob now old else old) =
      if (done old.executedTask || old.executedTask = extask) && stale now task old then timeOutJob now old else old := by
  by_cases hstale : stale now task old = true
  · by_cases hdone : done old.executedTask = true
    · simp [endJobs, hstale, hdone, stale_timeOutJob]
    · simp [endJobs, hstale, hdone]
  · simp [endJobs, hstale]

theorem TimingOut.jobs_sweep {s₁ s₂ : State} {done : Nat → Bool} {extask : Nat} (h : TimingOut now s task s₁ done)
    (h' : Sweeps s₁ s₂ (endJobs extask (stale now task) (timeOutJob now))) (row : Job) :
    row ∈ s₂.jobs ↔ ∃ old ∈ s.jobs, (if (done old.executedTask || old.executedTask = extask) && stale now task old
      then timeOutJob now old else old) = row := by
  rw [h'.jobs]
  simp only [h.jobs]
  constructor
  · intro hrow
    obtain ⟨_, ⟨old, hold, rfl⟩, hend⟩ := hrow
    exact ⟨old, hold, by rw [← hend, endJobs_timeOut]⟩
  · intro hrow
    obtain ⟨old, hold, hend⟩ := hrow
    exact ⟨_, ⟨old, hold, rfl⟩, by rw [endJobs_timeOut, hend]⟩

/-- After its turn, an executed task's jobs add up to what they do once all of them have timed out. -/
theorem aggregate_of_turn {s₂ : State} {done : Nat → Bool} {extask : Nat}
    (h : ∀ row, row ∈ s₂.jobs ↔ ∃ old ∈ s.jobs, (if (done old.executedTask || old.executedTask = extask) &&
      stale now task old then timeOutJob now old else old) = row) :
    aggregate (s₂.jobStatuses extask) = s.afterTimeout now task extask := by
  have hkeep : ∀ old : Job, (if (done old.executedTask || old.executedTask = extask) && stale now task old
      then timeOutJob now old else old).executedTask = old.executedTask := by
    intro old
    split_ifs <;> rfl
  have hstatus : ∀ old : Job, old.executedTask = extask → (if (done old.executedTask || old.executedTask = extask) &&
      stale now task old then timeOutJob now old else old).status =
        if stale now task old then .timeout else old.status := by
    intro old he
    by_cases hstale : stale now task old = true
    · simp [hstale, he, timeOutJob]
    · simp [hstale]
  refine aggregate_congr fun status => ?_
  rw [State.mem_jobStatuses, List.mem_map]
  simp only [h, State.jobsOf, List.mem_filter, decide_eq_true_eq]
  constructor
  · intro hx
    obtain ⟨_, ⟨old, hold, rfl⟩, he, hs⟩ := hx
    rw [hkeep] at he
    exact ⟨old, ⟨hold, he⟩, by rw [← hs, hstatus old he]⟩
  · intro hx
    obtain ⟨old, ⟨hold, he⟩, hs⟩ := hx
    exact ⟨_, ⟨old, hold, rfl⟩, (hkeep old).trans he, (hstatus old he).trans hs⟩

theorem TimingOut.turn {s₁ : State} {done : Nat → Bool} {extask : ExecutedTask} (h : TimingOut now s task s₁ done)
    (hrow : s.executedTasks.get? extask.id = some extask)
    (hstart : extask.status = .running ∨ extask.status = s.afterTimeout now task extask.id)
    (hdone : done extask.id = true → extask.status = s.afterTimeout now task extask.id) :
    ∃ s₃, checkStaleJobsOf now task extask s₁ = (.ok (), s₃) ∧
      TimingOut now s task s₃ fun id => done id || id = extask.id := by
  obtain ⟨s₂, s₃, hs₃, hsweep, hcase⟩ := checkStaleJobsOf_cases now task extask s₁
  have hjobs := h.jobs_sweep hsweep
  have hagg := aggregate_of_turn hjobs
  have hother : ∀ id, id ≠ extask.id → Leaves s₁ s₃ id := by
    intro id hne
    rcases hcase with ⟨-, rfl⟩ | ⟨-, hset⟩
    · exact hsweep.leaves id
    · exact (hsweep.leaves id).trans (hset.leaves (Or.inl (Ne.symm hne)))
  have hown : Ends now s s₃ extask.id := by
    by_cases hd : done extask.id = true
    · refine (h.ends extask.id hd).before_leaves ?_
      rcases hcase with ⟨-, rfl⟩ | ⟨-, hset⟩
      · exact hsweep.leaves extask.id
      · exact (hsweep.leaves extask.id).trans (hset.leaves (Or.inr ((hdone hd).trans hagg.symm)))
    · have hleaves := (h.leaves extask.id (by simpa using hd)).trans (hsweep.leaves extask.id)
      rcases hcase with ⟨-, rfl⟩ | ⟨-, hset⟩
      · exact .alone hleaves.1 hleaves.2
      · refine Ends.after_leaves hleaves (hset.ends (hleaves.1.trans hrow) ?_ extask.id)
        rw [hagg]
        exact hstart
  have hjobs₃ : s₃.jobs = s₂.jobs := by
    rcases hcase with ⟨-, rfl⟩ | ⟨-, hset⟩
    · rfl
    · exact hset.jobs
  refine ⟨s₃, hs₃, ?_, ?_, ?_⟩
  · intro row
    rw [hjobs₃, hjobs]
  · intro id hid
    simp only [Bool.or_eq_false_iff, decide_eq_false_iff_not] at hid
    exact (h.leaves id hid.1).trans (hother id hid.2)
  · intro id hid
    by_cases he : id = extask.id
    · rw [he]
      exact hown
    · simp only [he, decide_false, Bool.or_false] at hid
      exact (h.ends id hid).before_leaves (hother id he)

theorem TimingOut.each {extasks : List ExecutedTask} {s₁ : State} {done : Nat → Bool}
    (h : TimingOut now s task s₁ done) (hrow : ∀ extask ∈ extasks, s.executedTasks.get? extask.id = some extask)
    (hstart : ∀ extask ∈ extasks, extask.status = .running ∨ extask.status = s.afterTimeout now task extask.id)
    (hdone : ∀ extask ∈ extasks, done extask.id = true → extask.status = s.afterTimeout now task extask.id)
    (htwice : extasks.Pairwise fun a b => a.id = b.id → b.status = s.afterTimeout now task b.id) :
    ∃ s' done', Procedure.each extasks (checkStaleJobsOf now task) s₁ = (.ok (), s') ∧
      TimingOut now s task s' done' := by
  induction extasks generalizing s₁ done with
  | nil => exact ⟨s₁, done, rfl, h⟩
  | cons extask rest ih =>
    obtain ⟨hfirst, hrest⟩ := List.pairwise_cons.mp htwice
    obtain ⟨s₂, hs₂, h₂⟩ := h.turn (hrow extask (by simp)) (hstart extask (by simp)) (hdone extask (by simp))
    have hdone' : ∀ row ∈ rest, (done row.id || row.id = extask.id) = true →
        row.status = s.afterTimeout now task row.id := by
      intro row hmem hd
      rcases Bool.or_eq_true_iff.mp hd with hd | hd
      · exact hdone row (by simp [hmem]) hd
      · exact hfirst row hmem (of_decide_eq_true hd).symm
    obtain ⟨s', done', hs', h'⟩ := ih h₂ (fun row hmem => hrow row (by simp [hmem]))
      (fun row hmem => hstart row (by simp [hmem])) hdone' hrest
    exact ⟨s', done', by rw [each_cons, bind_of_ok hs₂, hs'], h'⟩

theorem checkStaleJobsFor_ends
    (h : ∀ extask ∈ s.executedTasks, extask.task = task.id →
      (s.jobsOf extask.id).filter (stale now task) = [] ∨ extask.status = s.afterTimeout now task extask.id ∨
        extask.status = .running ∧ ((s.jobsOf extask.id).filter (stale now task)).length = 1) (extask : Nat) :
    Ends now s (checkStaleJobsFor now task s).2 extask := by
  have hmem : ∀ row ∈ timedOutExtasks now task s, row ∈ s.executedTasks ∧ row.task = task.id ∧
      (s.jobsOf row.id).filter (stale now task) ≠ [] := by
    intro row hrow
    obtain ⟨r, hr, hm⟩ := List.mem_flatMap.mp hrow
    split_ifs at hm with htask
    · obtain ⟨job, hjob, rfl⟩ := List.mem_map.mp hm
      exact ⟨hr, htask, List.ne_nil_of_mem hjob⟩
    · cases hm
  have hpair : (timedOutExtasks now task s).Pairwise fun a b => a.id = b.id →
      b.status = s.afterTimeout now task b.id := by
    refine List.pairwise_flatMap.mpr ⟨?_, ?_⟩
    · intro row hrow
      split_ifs with htask
      · rcases h row hrow htask with hnone | hsame | ⟨-, hone⟩
        · rw [hnone]
          exact List.Pairwise.nil
        · exact List.pairwise_map.mpr (List.pairwise_of_forall fun _ _ _ => hsame)
        · obtain ⟨job, hjob⟩ := List.length_eq_one_iff.mp hone
          rw [hjob]
          exact List.pairwise_singleton _ _
      · exact List.Pairwise.nil
    · refine (List.pairwise_map.mp s.executedTasks.unique).imp ?_
      intro a b hne x hx y hy hid
      split_ifs at hx hy
      · obtain ⟨_, _, rfl⟩ := List.mem_map.mp hx
        obtain ⟨_, _, rfl⟩ := List.mem_map.mp hy
        exact absurd hid hne
      all_goals first | cases hx | cases hy
  have hstart : TimingOut now s task s fun _ => false :=
    ⟨by simp, fun _ _ => ⟨rfl, rfl⟩, by simp⟩
  obtain ⟨s', done, hs', h'⟩ := hstart.each (fun row hrow => Table.mem_iff_get?.mp (hmem row hrow).1) (fun row hrow => by
    obtain ⟨hr, htask, hne⟩ := hmem row hrow
    rcases h row hr htask with hnone | hsame | ⟨hrun, -⟩
    · exact absurd hnone hne
    · exact Or.inr hsame
    · exact Or.inl hrun) (by simp) hpair
  have hrun : (checkStaleJobsFor now task s).2 = s' := by
    unfold checkStaleJobsFor
    rw [read_bind, hs']
  rw [hrun]
  by_cases hd : done extask = true
  · exact h'.ends extask hd
  · obtain ⟨hrow, hcount⟩ := h'.leaves extask (by simpa using hd)
    exact .alone hrow hcount

end Timeouts

variable (lib) in
/-- The executed task of an update is running, or keeps its status; one with stale jobs has a single
one, or keeps its status. -/
def Request.EndsOnce (s : State) (now : Instant) : Request → Prop
  | ansible message _ =>
    ∀ job status updatedOn extask, s.update? lib message = some (job, status, updatedOn) →
      (job.status = status ∨ ∃ t, parseDatetime lib.django updatedOn = .ok t) → s.room { job with status } →
        s.executedTasks.get? job.executedTask = some extask →
          extask.status = .running ∨ extask.status = s.aggregateWith { job with status }
  | script message upload =>
    ∀ job stdout status extask, s.upload? message upload = some (job, stdout) →
      statusFrom lib .script stdout = some status → s.room { job with status } →
        s.executedTasks.get? job.executedTask = some extask →
          extask.status = .running ∨ extask.status = s.aggregateWith { job with status }
  | cancel _ _ _ => True
  | staleJobs task =>
    ∀ extask ∈ s.executedTasks, extask.task = task.id →
      (s.jobsOf extask.id).filter (stale now task) = [] ∨ extask.status = s.afterTimeout now task extask.id ∨
        extask.status = .running ∧ ((s.jobsOf extask.id).filter (stale now task)).length = 1

theorem ansible_ends {message : Json} {fetch : Fetch} (h : (Request.ansible message fetch).EndsOnce lib s now)
    (extask : Nat) : Ends now s (handleAnsibleJobUpdates lib now message fetch s).2 extask := by
  rcases handleAnsibleJobUpdates_cases lib now message fetch s with
    ⟨hsame, -⟩ | ⟨job, status, updatedOn, t, hupdate, ht, heffect⟩
  · rw [hsame]
    exact (Quiet.refl s).ends extask
  have hread : job.status = status ∨ ∃ t, parseDatetime lib.django updatedOn = .ok t := by
    by_cases hs : job.status = status
    · exact Or.inl hs
    · exact Or.inr ⟨t, ht hs⟩
  have hsame := job.withStatus_same now status t
  have hstatus := job.withStatus_status now status t
  generalize job.withStatus now status t = job' at heffect hsame hstatus
  have hset : ({ job with status } : Job).Same job' := ⟨hsame.id, hsame.executedTask, hsame.systemId, hsame.runId⟩
  have hcond := fun row hroom => h job status updatedOn row hupdate hread hroom
  rw [State.room_same hset hstatus.symm, State.aggregateWith_congr hset hstatus.symm, ← hsame.executedTask] at hcond
  cases heffect with
  | unannounced _ hw => exact hw.ends extask
  | orphan hnone hagg =>
    refine hagg.ends (fun row hrow => ?_) extask
    rw [hnone] at hrow
    cases hrow
  | done hroom hagg hw _ _ _ =>
    exact (hagg.ends (fun row hrow => hcond row hroom hrow) extask).before_leaves
      ⟨by rw [hw.executedTasks], hw.completions extask⟩

theorem script_ends {message : Json} {upload : Option Json} (h : (Request.script message upload).EndsOnce lib s now)
    (extask : Nat) : Ends now s (handleScriptJobUpdates lib now message upload s).2 extask := by
  rcases handleScriptJobUpdates_cases lib now message upload s with
    ⟨hquiet, -⟩ | ⟨job, stdout, hupload, heffect⟩
  · exact hquiet.ends extask
  cases heffect with
  | unparsed _ hw _ _ => exact hw.ends extask
  | unannounced _ _ hw _ => exact hw.ends extask
  | aggregated hfrom hroom hagg hsame =>
    rename_i job'
    have hset : ({ job with status := job'.status } : Job).Same job' :=
      ⟨hsame.id, hsame.executedTask, hsame.systemId, hsame.runId⟩
    refine hagg.ends (fun row hrow => ?_) extask
    rcases hroom with hroom | hnone
    · rw [← State.room_same hset rfl] at hroom
      have hstart := h job stdout job'.status row hupload hfrom hroom (hsame.executedTask ▸ hrow)
      rwa [State.aggregateWith_congr hset rfl] at hstart
    · rw [hnone] at hrow
      cases hrow

theorem cancel_ends {extaskId : Nat} {orgId : String} {refused : Bool} (extask : Nat) :
    Ends now s (cancel now extaskId orgId refused s).2 extask := by
  rcases cancel_cases now extaskId orgId refused s with
    hsame | ⟨row, s₁, s', hrow, hrun, h, hsweep, hcase⟩
  · rw [hsame]
    exact (Quiet.refl s).ends extask
  · rw [h]
    refine Ends.after_leaves (hsweep.leaves extask) ?_
    rcases hcase with ⟨-, rfl⟩ | ⟨-, hset⟩
    · exact (Quiet.refl s').ends extask
    · have hid : row.id = extaskId := Table.get?_key hrow
      exact hset.ends (by rw [hsweep.executedTasks, hid, hrow]) (Or.inl hrun) extask

theorem step_ends (request : Request) (h : request.EndsOnce lib s now) (extask : Nat) :
    Ends now s (request.step lib now s) extask := by
  cases request with
  | ansible message fetch => exact ansible_ends h extask
  | script message upload => exact script_ends h extask
  | cancel extaskId orgId refused => exact cancel_ends extask
  | staleJobs task => exact checkStaleJobsFor_ends h extask

variable (lib) in
/-- Runs of requests that each meet the condition, with how often each executed task has ended in them. -/
inductive EndingRun (s : State) : (Nat → Nat) → State → Prop
  | start : EndingRun s (fun _ => 0) s
  | step {n s'} (now : Instant) (request : Request) : EndingRun s n s' → request.EndsOnce lib s' now →
      EndingRun s (fun extask => n extask + s'.ended (request.step lib now s') extask) (request.step lib now s')

theorem endingRun_completions {n : Nat → Nat} (hs : s.Timed) (h : EndingRun lib s n s') :
    s'.Timed ∧ ∀ extask, s'.completions extask = s.completions extask + n extask := by
  induction h with
  | start => exact ⟨hs, fun _ => rfl⟩
  | step now request _ hone ih =>
    have hends := step_ends request hone
    refine ⟨timed_of_ends hends ih.1, fun extask => ?_⟩
    rw [(hends extask).completions, ih.2 extask, Nat.add_assoc]

def twoJobs : State where
  inventory := .empty
  tasks := .single sampleTask
  executedTasks := .single sampleExtask
  jobs := ⟨[sampleJob 1 .running, sampleJob 2 .running], by decide⟩
  storable job hjob := by
    have hmem : job = sampleJob 1 .running ∨ job = sampleJob 2 .running := by
      simpa [Table.mem_def] using hjob
    rcases hmem with rfl | rfl <;> decide

theorem sampleState_timed : sampleState.Timed := by
  intro extask hextask
  rw [Table.mem_single.mp hextask]
  decide

theorem failedUpdate_endsOnce : failedUpdate.EndsOnce sampleLibrary sampleState 0 := by
  intro job status updatedOn extask hupdate _ _ hextask
  obtain ⟨rfl, -, -⟩ : sampleJob 1 .running = job ∧ JobStatus.failure = status ∧ _ = updatedOn := by
    simpa using update?_failed.symm.trans hupdate
  obtain rfl : sampleExtask = extask := Option.some.inj hextask
  exact Or.inl rfl

theorem endingRun_completions_failed :
    afterFailedUpdate.Timed ∧ ∀ extask, afterFailedUpdate.completions extask =
      sampleState.completions extask + (0 + sampleState.ended afterFailedUpdate extask) :=
  endingRun_completions sampleState_timed (.step 0 failedUpdate .start failedUpdate_endsOnce)

def twoTimedOut : State := (Request.staleJobs sampleTask).step sampleLibrary 4000000000 twoJobs

/-- Two stale jobs of one executed task: it ends once, with two messages. -/
theorem completions_two_stale :
    twoJobs.completions 1 = 0 ∧ twoJobs.ended twoTimedOut 1 = 1 ∧ twoTimedOut.completions 1 = 2 := by
  decide +kernel

end Advisor.Tasks
