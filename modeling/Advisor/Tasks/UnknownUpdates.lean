import Advisor.Tasks.Aggregate

/-! Updates of playbook runs that lack their time, or whose status has no name here: they write nothing, and raise
wherever there is a job they could be about. -/

namespace Advisor.Tasks

open Python Procedure Django Relational

variable (lib : TaskLibrary)

def UnknownStatus (status : Json) : Prop := ∃ name, status = .str name ∧ JobStatus.ofName? (lib.upper name) = none

/-- A payload with a run and a status that lacks its time, or whose status is unknown. -/
structure Incomplete (message runId status : Json) (items : List (String × Json)) : Prop where
  payload : message.item "payload" = .ok (.dict items)
  run : items.lookup "id" = some runId
  named : items.lookup "status" = some status
  lacks : items.lookup "updated_at" = none ∨ UnknownStatus lib status

/-- The update is gone through, and if its status is unknown all jobs have the one they had. -/
def ChangesNothing (now : Instant) (message status : Json) (fetch : Fetch) (s : State) : Prop :=
  (handleAnsibleJobUpdates lib now message fetch s).1 = .ok () ∧
    (UnknownStatus lib status → ∀ k, ((handleAnsibleJobUpdates lib now message fetch s).2.jobs.get? k).map (·.status) =
      (s.jobs.get? k).map (·.status))

variable {lib} {now : Instant} {message runId status : Json} {items : List (String × Json)} {fetch : Fetch} {s : State}

theorem Incomplete.readUpdate_eq (h : Incomplete lib message runId status items) :
    readUpdate message = match items.lookup "updated_at" with
      | some updatedOn => .ok (some (runId, status, updatedOn))
      | none => .error (.keyError "updated_at") := by
  have hitem : ∀ {key x}, items.lookup key = some x → (Json.dict items).item key = .ok x := by
    intro key x hx
    rw [Json.item, hx]
  have hrun := hitem h.run
  have hnamed := hitem h.named
  unfold readUpdate
  rw [Json.hasKey_of_item h.payload, h.payload]
  simp only [bind, Except.bind, Json.hasKey_of_item hrun, Json.hasKey_of_item hnamed, hrun, hnamed, Bool.and_self, Bool.not_true,
    Bool.false_eq_true, if_false]
  cases hupdated : items.lookup "updated_at" with
  | some updatedOn =>
    rw [hitem hupdated]
    rfl
  | none =>
    rw [Json.item, hupdated]

theorem namedStatus_unknown (job : Job) (h : UnknownStatus lib status) :
    namedStatus lib job status = .error (.keyError (toString job.status.value)) := by
  obtain ⟨name, rfl, hnone⟩ := h
  simp only [namedStatus, hnone]

/-- Without a time the update is not read; else a job there is for it has no status by the number of its own. -/
theorem Incomplete.handled (h : Incomplete lib message runId status items) (now : Instant) (fetch : Fetch) (s : State) :
    (handleAnsibleJobUpdates lib now message fetch s).2 = s ∧
      ((handleAnsibleJobUpdates lib now message fetch s).1 = .ok () ↔
        (items.lookup "updated_at").isSome ∧ s.jobWithRunId runId = .ok none) := by
  unfold handleAnsibleJobUpdates
  rw [h.readUpdate_eq]
  rcases h.lacks with hnone | hunknown
  · simp [hnone]
  · cases items.lookup "updated_at" with
    | none => simp
    | some updatedOn =>
      simp only [lift_ok_bind, read_bind]
      cases s.jobWithRunId runId with
      | error e => simp
      | ok found =>
        simp only [lift_ok_bind]
        cases found with
        | none => simp
        | some job => simp [namedStatus_unknown job hunknown]

theorem changesNothing_iff (h : Incomplete lib message runId status items) :
    ChangesNothing lib now message status fetch s ↔
      (items.lookup "updated_at").isSome ∧ s.jobWithRunId runId = .ok none := by
  obtain ⟨hstate, hok⟩ := h.handled now fetch s
  rw [← hok, ChangesNothing, hstate]
  exact and_iff_left fun _ _ => rfl

def joblessState : State where
  inventory := .empty
  tasks := .single sampleTask
  executedTasks := .empty
  jobs := .empty
  storable := storable_empty

def queued : Json := sampleUpdate "queued" "2024-05-01T10:00:00+00:00"

def queuedItems : List (String × Json) :=
  [("id", .str "00000000-0000-0000-0000-000000000001"), ("status", .str "queued"),
    ("updated_at", .str "2024-05-01T10:00:00+00:00")]

theorem queued_incomplete :
    Incomplete sampleLibrary queued (.str "00000000-0000-0000-0000-000000000001") (.str "queued") queuedItems :=
  ⟨rfl, rfl, rfl, Or.inr ⟨"queued", rfl, by decide⟩⟩

theorem changesNothing_other_run :
    ChangesNothing sampleLibrary 0 queued (.str "queued") .unconfigured joblessState ↔
      (queuedItems.lookup "updated_at").isSome ∧
        joblessState.jobWithRunId (.str "00000000-0000-0000-0000-000000000001") = .ok none :=
  changesNothing_iff queued_incomplete

/-- An unknown status raises where its job is. -/
theorem unknown_status_raises :
    Incomplete sampleLibrary queued (.str "00000000-0000-0000-0000-000000000001") (.str "queued") queuedItems ∧
      sampleJob 1 .running ∈ sampleState.jobs ∧
      ¬ChangesNothing sampleLibrary 0 queued (.str "queued") .unconfigured sampleState := by
  have hraises : (handleAnsibleJobUpdates sampleLibrary 0 queued .unconfigured sampleState).1.toOption = none := by
    decide +kernel
  refine ⟨queued_incomplete, Table.mem_single.mpr rfl, fun h => ?_⟩
  rw [h.1] at hraises
  cases hraises

end Advisor.Tasks
