import Advisor.Tasks.Create
import Advisor.Tasks.Systems

/-! The lines jobs log, and the one of them that can be too long for its column. -/

namespace Advisor.Tasks

open Python Procedure Django Relational

variable {lib : TaskLibrary} {now : Instant}

theorem Execution.dispatcher_length (execution : Execution) : execution.dispatcher.length ≤ 19 := by
  unfold dispatcher
  cases execution.task.type <;> decide

theorem dispatchedLine_length (execution : Execution) (runId : Uuid) : (execution.dispatchedLine runId).length ≤ 255 := by
  have hdispatcher := execution.dispatcher_length
  have hrun := runId.toText_length
  have h₁ : "Job dispatched to ".length = 18 := rfl
  have h₂ : " (run ID ".length = 9 := rfl
  have h₃ : ")".length = 1 := rfl
  unfold Execution.dispatchedLine
  rw [String.length_append, String.length_append, String.length_append, String.length_append, h₁, h₂, h₃, hrun]
  generalize execution.dispatcher.length = dispatcher at hdispatcher ⊢
  omega

theorem failedLine_length (execution : Execution) {code : Nat} (h : code < 2 ^ 31) :
    (execution.failedLine code).length ≤ 255 := by
  have hdispatcher := execution.dispatcher_length
  have hcode := toString_length_le h
  have h₁ : "Job dispatch to ".length = 16 := rfl
  have h₂ : " failed - ".length = 10 := rfl
  have h₃ : "host is not currently connected to RHC".length = 38 := rfl
  have h₄ : "returned status code ".length = 21 := rfl
  unfold Execution.failedLine
  rw [String.length_append, String.length_append, String.length_append, h₁, h₂]
  generalize execution.dispatcher.length = dispatcher at hdispatcher ⊢
  by_cases hfound : code = 404
  · rw [if_pos hfound, h₃]
    omega
  · rw [if_neg hfound, String.length_append, h₄]
    generalize (toString code).length = digits at hcode ⊢
    omega

theorem sentLine_length (job : Job) (displayName : String) :
    (sentLine job displayName).length = 128 + job.status.label.length + displayName.length := by
  have hsystem := job.systemId.toText_length
  have hrun := job.runId.toText_length
  have h₁ : "Sent message that this job is ".length = 30 := rfl
  have h₂ : " on system ".length = 11 := rfl
  have h₃ : " (ID ".length = 5 := rfl
  have h₄ : ", run ID ".length = 9 := rfl
  have h₅ : ")".length = 1 := rfl
  unfold sentLine
  rw [String.length_append, String.length_append, String.length_append, String.length_append, String.length_append,
    String.length_append, String.length_append, String.length_append, h₁, h₂, h₃, h₄, h₅, hsystem, hrun]
  generalize job.status.label.length = label
  generalize displayName.length = name
  omega

/-- Every line that is written when the jobs of an execution are created, when a job gets a status, and when its
executed task is aggregated. -/
structure LinesFit (lib : TaskLibrary) (s : State) (job : Job) : Prop where
  dispatched : ∀ (execution : Execution) runId, (execution.dispatchedLine runId).length ≤ 255
  failed : ∀ (execution : Execution) code, code < 2 ^ 31 → (execution.failedLine code).length ≤ 255
  updated : (updatedLine lib job).length ≤ 255
  sent : ∀ system ∈ s.systems job, eventTypeForJobStatus job.status ≠ none →
    (sentLine job system.displayName).length ≤ 255
  timedOut : ∀ task : Task, (timedOutLine job task.timeout).length ≤ 255
  noMore : ∀ extask : ExecutedTask, (noMoreLine extask).length ≤ 255

theorem eventTypeForJobStatus_ne {status : JobStatus} : eventTypeForJobStatus status ≠ none ↔ status ≠ .running := by
  cases status <;> simp [eventTypeForJobStatus]

theorem linesFit_iff {s : State} {job : Job} :
    LinesFit lib s job ↔
      ∀ system ∈ s.systems job, job.status ≠ .running → job.status.label.length + system.displayName.length ≤ 127 := by
  constructor
  · intro h system hsystem hstatus
    have hfits := h.sent system hsystem (eventTypeForJobStatus_ne.mpr hstatus)
    rw [sentLine_length] at hfits
    omega
  · intro h
    refine ⟨dispatchedLine_length, fun execution code hcode => failedLine_length execution hcode,
      updatedLine_length lib job, fun system hsystem hstatus => ?_, timedOutLine_length job, noMoreLine_length⟩
    have hshort := h system hsystem (eventTypeForJobStatus_ne.mp hstatus)
    rw [sentLine_length]
    omega

/-- The update ends without an exception, with the status stored and the executed task aggregated. -/
def Completes (lib : TaskLibrary) (now : Instant) (s : State) (job : Job) (status : JobStatus) (updatedOn : Json) : Prop :=
  ∃ t s', updateJobStatus lib now job status updatedOn s = (.ok (job.withStatus now status t), s') ∧
    Aggregated now s s' (job.withStatus now status t)

/-- The time can be read if it has to be, the system is known once at most, and its name is short. -/
structure Updatable (lib : TaskLibrary) (s : State) (job : Job) (status : JobStatus) (updatedOn : Json) : Prop where
  time : job.status = status ∨ ∃ t, parseDatetime lib.django updatedOn = .ok t
  once : (s.systems job).length ≤ 1
  name : ∀ system ∈ s.systems job, status ≠ .running → status.label.length + system.displayName.length ≤ 127

theorem room_iff {s : State} {job : Job} :
    s.room job = true ↔
      ∀ system ∈ s.systems job, job.status ≠ .running → job.status.label.length + system.displayName.length ≤ 127 := by
  rw [State.room, List.all_eq_true]
  refine forall₂_congr fun system _ => ?_
  rw [Bool.or_eq_true, Option.isNone_iff_eq_none, decide_eq_true_eq, sentLine_length, or_iff_not_imp_left,
    ← ne_eq, eventTypeForJobStatus_ne]
  exact imp_congr_right fun _ => by omega

theorem announceJob_many {extask : ExecutedTask} {job : Job} {status : JobStatus} {s : State}
    (h : 2 ≤ (s.systems job).length) : announceJob extask job status s = (.error .multipleObjectsReturned, s) := by
  unfold announceJob
  rw [read_bind]
  rcases hsystems : s.systems job with _ | ⟨system, _ | ⟨other, rest⟩⟩
  · simp [hsystems] at h
  · simp [hsystems] at h
  · rfl

theorem Job.withStatus_systems (s : State) (job : Job) (status : JobStatus) (t : Option Instant) :
    s.systems (job.withStatus now status t) = s.systems job := by
  simp only [State.systems, (job.withStatus_same now status t).systemId]

/-- An update of a stored job completes, with all lines in their column, exactly if it is updatable. -/
theorem joblogs_iff {s : State} {job : Job} (status : JobStatus) (updatedOn : Json) (hjob : job ∈ s.jobs)
    (hextask : (s.executedTasks.get? job.executedTask).isSome = true) :
    (Completes lib now s job status updatedOn ∧ ∀ t, LinesFit lib s (job.withStatus now status t)) ↔
      Updatable lib s job status updatedOn := by
  have hlines : (∀ t, LinesFit lib s (job.withStatus now status t)) ↔
      ∀ system ∈ s.systems job, status ≠ .running → status.label.length + system.displayName.length ≤ 127 := by
    simp only [linesFit_iff, Job.withStatus_status, Job.withStatus_systems, forall_const]
  rw [hlines]
  constructor
  · rintro ⟨⟨t, s', hupdate, -⟩, hname⟩
    refine ⟨?_, ?_, hname⟩
    · by_contra htime
      rw [not_or] at htime
      rcases setJobStatus_cases now lib status updatedOn hjob with ⟨e, he, -⟩ | ⟨t', s₁, ht, -, -⟩
      · rw [updateJobStatus, bind_of_error he] at hupdate
        cases hupdate
      · exact htime.2 ⟨t', ht htime.1⟩
    · by_contra hmany
      rcases setJobStatus_cases now lib status updatedOn hjob with ⟨e, he, -⟩ | ⟨t', s₁, -, hs₁, hw⟩
      · rw [updateJobStatus, bind_of_error he] at hupdate
        cases hupdate
      · rw [updateJobStatus, bind_of_ok hs₁, read_bind] at hupdate
        have hsystems : 2 ≤ (s₁.systems (job.withStatus now status t')).length := by
          rw [State.systems, hw.inventory, ← State.systems, Job.withStatus_systems]
          omega
        cases hrow : s₁.executedTasks.get? (job.withStatus now status t').executedTask with
        | none =>
          rw [hrow] at hupdate
          cases hupdate
        | some extask =>
          simp only [hrow] at hupdate
          rw [bind_of_error (announceJob_many hsystems)] at hupdate
          cases hupdate
  · intro h
    refine ⟨?_, h.name⟩
    rcases updateJobStatus_cases now lib status updatedOn hjob h.once with
      ⟨e, -, hne, he⟩ | ⟨t, r, s', -, hupdate, hupdated⟩
    · rcases h.time with hsame | ⟨t, ht⟩
      · exact absurd hsame hne
      · rw [he] at ht
        cases ht
    · have hroom : s.room (job.withStatus now status t) = true := by
        rw [room_iff]
        simpa only [Job.withStatus_status, Job.withStatus_systems] using h.name
      cases hupdated with
      | unannounced hno => rw [hroom] at hno; cases hno
      | orphan hnone =>
        rw [(job.withStatus_same now status t).executedTask] at hnone
        rw [hnone] at hextask
        cases hextask
      | done _ hagg => exact ⟨t, s', hupdate, hagg⟩

theorem joblogs_cancelled :
    (Completes sampleLibrary 0 sampleState (sampleJob 1 .running) .cancelled .null ∧
        ∀ t, LinesFit sampleLibrary sampleState ((sampleJob 1 .running).withStatus 0 .cancelled t)) ↔
      Updatable sampleLibrary sampleState (sampleJob 1 .running) .cancelled .null :=
  joblogs_iff .cancelled .null (Table.mem_single.mpr rfl) rfl

def longNamed : State where
  inventory := .single (hostOf "1234" (String.ofList (List.replicate 200 'x')))
  tasks := .single sampleTask
  executedTasks := .single sampleExtask
  jobs := .single (sampleJob 1 .running)
  storable := sampleState.storable

theorem longNamed_room (t : Option Instant) : longNamed.room ((sampleJob 1 .running).withStatus 0 .success t) = false := by
  rw [Bool.eq_false_iff]
  intro hroom
  have hsystem : hostOf "1234" (String.ofList (List.replicate 200 'x')) ∈
      longNamed.systems ((sampleJob 1 .running).withStatus 0 .success t) :=
    List.mem_filter.mpr ⟨List.mem_singleton.mpr rfl, rfl⟩
  have hshort := room_iff.mp hroom _ hsystem (by rw [Job.withStatus_status]; decide)
  have hname : (hostOf "1234" (String.ofList (List.replicate 200 'x'))).displayName.length = 200 := by
    show (String.ofList (List.replicate 200 'x')).length = 200
    rw [String.length_ofList, List.length_replicate]
  rw [hname] at hshort
  omega

theorem longNamed_jobs {s : State} {t : Option Instant}
    (h : Replaces longNamed s ((sampleJob 1 .running).withStatus 0 .success t)) :
    s.jobs.rows = [(sampleJob 1 .running).withStatus 0 .success t] := by
  have hid : ((sampleJob 1 .running).withStatus 0 .success t).id = 1 := by cases t <;> rfl
  refine List.perm_singleton.mp ((List.perm_ext_iff_of_nodup (List.Nodup.of_map _ s.jobs.unique)
    (List.nodup_singleton _)).mpr fun row => ?_)
  rw [List.mem_singleton, ← Table.mem_def, h row, hid]
  refine or_iff_left fun hold => hold.2 ?_
  rw [Table.mem_single.mp hold.1]
  rfl

/-- The job succeeds, the line about it does not fit, and its executed task stays as it was. -/
theorem longName_left_running :
    let result := updateJobStatus sampleLibrary 0 (sampleJob 1 .running) .success (.str "2024-05-01T11:00:00+00:00") longNamed
    result.1.toOption = none ∧ result.2.jobStatuses 1 = [.success] ∧
      result.2.executedTasks.rows.map (·.status) = [.running] ∧
      ¬Completes sampleLibrary 0 longNamed (sampleJob 1 .running) .success (.str "2024-05-01T11:00:00+00:00") := by
  have hjob : sampleJob 1 .running ∈ longNamed.jobs := Table.mem_single.mpr rfl
  have honce : (longNamed.systems (sampleJob 1 .running)).length ≤ 1 := List.length_filter_le _ _
  rcases updateJobStatus_cases 0 sampleLibrary .success (.str "2024-05-01T11:00:00+00:00") hjob honce with
    ⟨e, -, -, hparse⟩ | ⟨t, r, s', -, hupdate, hupdated⟩
  · cases hparse
  · cases hupdated with
    | unannounced _ hwrites =>
      rw [hupdate]
      refine ⟨rfl, ?_, ?_, ?_⟩
      · rw [State.jobStatuses, State.jobsOf, longNamed_jobs hwrites.jobs]
        cases t <;> rfl
      · rw [hwrites.executedTasks]
        rfl
      · rintro ⟨t', s₁, hcompletes, -⟩
        rw [hupdate] at hcompletes
        cases hcompletes
    | orphan hnone _ => cases hnone
    | done hroom _ =>
      rw [longNamed_room] at hroom
      cases hroom

end Advisor.Tasks
