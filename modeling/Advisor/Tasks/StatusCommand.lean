import Advisor.Tasks.Aggregate

/-! The command that puts the states of executed tasks right: what one run of it leaves, whatever
state it began in, and that another run finds nothing to do. -/

namespace Advisor.Tasks

open Python Procedure Django Relational

/-- The options of the command; an empty list is one that was not given. -/
structure StatusOptions where
  executedTask : List Int := []
  job : List Int := []
  org : List Int := []
  task : List String := []
  deleteEmpty : Bool := false

namespace State

def pickedJobs (s : State) (options : StatusOptions) (extask : Nat) : List Job :=
  (s.jobsOf extask).filter fun job => (job.id : Int) ∈ options.job

/-- The other filters, on columns of the executed task and on the slug of its task. -/
def picks (s : State) (options : StatusOptions) (extask : ExecutedTask) : Bool :=
  (options.executedTask.isEmpty || (extask.id : Int) ∈ options.executedTask) &&
    (options.org.isEmpty || extask.orgId ∈ options.org.map toString) &&
    (options.task.isEmpty || (s.tasks.get? extask.task).any fun task => task.slug ∈ options.task)

/-- Where jobs are given, an executed task comes once for each of them that it has. -/
def picked (s : State) (options : StatusOptions) : List ExecutedTask :=
  s.executedTasks.rows.flatMap fun extask =>
    if !s.picks options extask then []
    else if options.job.isEmpty then [extask]
    else (s.pickedJobs options extask.id).map fun _ => extask

end State

/-- The rows are read once; each turn has its own time. -/
def updateStatuses (clock : Nat → Instant) (options : StatusOptions) : Run Unit := do
  let etqs ← read fun s => s.picked options
  each etqs.zipIdx fun (extask, turn) =>
    updateExecutedTaskStatus (clock turn) extask none false options.deleteEmpty

namespace State

def settledRows (s : State) (now : Instant) (deleteEmpty : Bool) (extask : ExecutedTask) : Table ExecutedTask.id :=
  if s.jobStatuses extask.id = [] then
    if deleteEmpty then s.executedTasks.deleteWhere fun row => row.id = extask.id else s.executedTasks
  else if extask.status = aggregate (s.jobStatuses extask.id) then s.executedTasks
  else
    s.executedTasks.upsert (overwrite ExecutedTask.id) (extask.aggregated now (aggregate (s.jobStatuses extask.id)))

variable (s : State) (now : Instant) (deleteEmpty : Bool) {extask : ExecutedTask}

theorem get?_settledRows_of_ne {id : Nat} (hne : extask.id ≠ id) :
    (s.settledRows now deleteEmpty extask).get? id = s.executedTasks.get? id := by
  unfold settledRows
  by_cases hnil : s.jobStatuses extask.id = []
  · rw [if_pos hnil]
    cases deleteEmpty with
    | false => rfl
    | true =>
      have hkeep : ∀ row, s.executedTasks.get? id = some row → row.id ≠ extask.id := by
        intro row hrow heq
        exact hne (heq.symm.trans (Table.get?_key hrow))
      rw [if_pos rfl, Table.get?_deleteWhere]
      cases hrow : s.executedTasks.get? id with
      | none => rfl
      | some row => simp [hkeep row hrow]
  · rw [if_neg hnil]
    by_cases hs : extask.status = aggregate (s.jobStatuses extask.id)
    · rw [if_pos hs]
    · rw [if_neg hs, get?_overwrite, ExecutedTask.aggregated_id, if_neg hne]

theorem get?_settledRows_empty (h : s.jobStatuses extask.id = []) :
    (s.settledRows now deleteEmpty extask).get? extask.id =
      if deleteEmpty then none else s.executedTasks.get? extask.id := by
  unfold settledRows
  rw [if_pos h]
  cases deleteEmpty with
  | false => rfl
  | true =>
    rw [if_pos rfl, if_pos rfl, Table.get?_eq_none]
    intro row hrow
    simpa using (Table.mem_deleteWhere.mp hrow).2

theorem get?_settledRows (h : s.jobStatuses extask.id ≠ []) :
    (s.settledRows now deleteEmpty extask).get? extask.id =
      if extask.status = aggregate (s.jobStatuses extask.id) then s.executedTasks.get? extask.id
      else some (extask.aggregated now (aggregate (s.jobStatuses extask.id))) := by
  unfold settledRows
  rw [if_neg h]
  by_cases hs : extask.status = aggregate (s.jobStatuses extask.id)
  · rw [if_pos hs, if_pos hs]
  · rw [if_neg hs, if_neg hs, get?_overwrite, ExecutedTask.aggregated_id, if_pos rfl]

end State

theorem updateExecutedTaskStatus_silent (now : Instant) (deleteEmpty : Bool) (extask : ExecutedTask) (s : State) :
    updateExecutedTaskStatus now extask none false deleteEmpty s =
      (.ok (), { s with executedTasks := s.settledRows now deleteEmpty extask }) := by
  unfold updateExecutedTaskStatus State.settledRows
  rw [read_bind]
  by_cases hnil : s.jobStatuses extask.id = []
  · rw [if_pos hnil, hnil]
    cases deleteEmpty <;> rfl
  · have hempty : (s.jobStatuses extask.id).isEmpty = false := by simpa using hnil
    rw [if_neg hnil, hempty, if_neg Bool.false_ne_true]
    by_cases hrun : JobStatus.running ∈ s.jobStatuses extask.id
    · rw [if_pos hrun, aggregate_running.mpr hrun, ExecutedTask.aggregated]
      by_cases hs : extask.status = .running
      · rw [if_pos hs, if_neg (not_not_intro hs)]
        rfl
      · rw [if_neg hs, if_pos hs, if_neg hs, if_pos rfl]
        rfl
    · have hagg : aggregate (s.jobStatuses extask.id) ≠ .running := fun h => hrun (aggregate_running.mp h)
      have hquiet : noMoreRunning extask none s = (.ok (), s) := rfl
      rw [if_neg hrun, bind_of_ok hquiet, finishedStatus_eq hrun, finish, ExecutedTask.aggregated]
      by_cases hs : extask.status = aggregate (s.jobStatuses extask.id)
      · rw [if_pos hs, if_pos hs]
        rfl
      · rw [if_neg hs, if_neg hs, if_neg hs, if_neg hagg]
        rfl

/-- What the command leaves of an executed task that it picked. -/
def Repaired (clock : Nat → Instant) (deleteEmpty : Bool) (s s' : State) (extask : ExecutedTask) : Prop :=
  if s.jobStatuses extask.id = [] then
    s'.executedTasks.get? extask.id = if deleteEmpty then none else some extask
  else ∃ turn,
    s'.executedTasks.get? extask.id = some (extask.aggregated (clock turn) (aggregate (s.jobStatuses extask.id)))

/-- What differs once some executed tasks have had their turn. -/
structure Repairs (clock : Nat → Instant) (deleteEmpty : Bool) (done : List ExecutedTask) (s s' : State) : Prop where
  inventory : s'.inventory = s.inventory
  tasks : s'.tasks = s.tasks
  jobs : s'.jobs = s.jobs
  logs : s'.logs = s.logs
  sent : s'.sent = s.sent
  tracked : s'.tracked = s.tracked
  others : ∀ id, (∀ extask ∈ done, extask.id ≠ id) → s'.executedTasks.get? id = s.executedTasks.get? id
  repaired : ∀ extask ∈ done, Repaired clock deleteEmpty s s' extask

section

variable {clock : Nat → Instant} {deleteEmpty : Bool} {done : List ExecutedTask} {s s₁ s' : State}
  {extask : ExecutedTask}

theorem ExecutedTask.aggregated_of_status {now : Instant} {status : ExecutedTaskStatus} (h : extask.status = status) :
    extask.aggregated now status = extask := by
  rw [ExecutedTask.aggregated, if_pos h]

theorem Repairs.jobStatuses (h : Repairs clock deleteEmpty done s s') (extask : Nat) :
    s'.jobStatuses extask = s.jobStatuses extask := by
  simp only [State.jobStatuses, State.jobsOf, h.jobs]

/-- Before its own turn an executed task is as the command read it, or an earlier turn was about it too. -/
theorem Repairs.unread_or (h : Repairs clock deleteEmpty done s s₁) (hdone : ∀ row ∈ done, row ∈ s.executedTasks)
    (hmem : extask ∈ s.executedTasks) : extask ∈ done ∨ s₁.executedTasks.get? extask.id = some extask := by
  by_cases hin : extask ∈ done
  · exact Or.inl hin
  · have hothers : ∀ row ∈ done, row.id ≠ extask.id := by
      intro row hrow hid
      have heq : row = extask := s.executedTasks.key_injOn (hdone row hrow) hmem hid
      exact hin (heq ▸ hrow)
    exact Or.inr ((h.others extask.id hothers).trans (Table.mem_iff_get?.mp hmem))

theorem Repairs.own (h : Repairs clock deleteEmpty done s s₁) (hdone : ∀ row ∈ done, row ∈ s.executedTasks)
    (hmem : extask ∈ s.executedTasks) (turn : Nat) :
    Repaired clock deleteEmpty s { s₁ with executedTasks := s₁.settledRows (clock turn) deleteEmpty extask } extask := by
  have hjobs := h.jobStatuses extask.id
  have hbefore := h.unread_or hdone hmem
  unfold Repaired
  by_cases hnil : s.jobStatuses extask.id = []
  · rw [if_pos hnil]
    dsimp only
    rw [State.get?_settledRows_empty _ _ _ (hjobs.trans hnil)]
    cases deleteEmpty with
    | true => rfl
    | false =>
      rw [if_neg Bool.false_ne_true, if_neg Bool.false_ne_true]
      rcases hbefore with hin | hrow
      · have hown := h.repaired extask hin
        rw [Repaired, if_pos hnil, if_neg Bool.false_ne_true] at hown
        exact hown
      · exact hrow
  · rw [if_neg hnil]
    dsimp only
    rw [State.get?_settledRows _ _ _ (hjobs ▸ hnil), hjobs]
    by_cases hs : extask.status = aggregate (s.jobStatuses extask.id)
    · rw [if_pos hs]
      rcases hbefore with hin | hrow
      · have hown := h.repaired extask hin
        rw [Repaired, if_neg hnil] at hown
        exact hown
      · exact ⟨turn, by rw [hrow, ExecutedTask.aggregated_of_status hs]⟩
    · rw [if_neg hs]
      exact ⟨turn, rfl⟩

theorem Repairs.turn (h : Repairs clock deleteEmpty done s s₁) (hdone : ∀ row ∈ done, row ∈ s.executedTasks)
    (hmem : extask ∈ s.executedTasks) (turn : Nat) :
    Repairs clock deleteEmpty (done ++ [extask]) s
      { s₁ with executedTasks := s₁.settledRows (clock turn) deleteEmpty extask } := by
  refine ⟨h.inventory, h.tasks, h.jobs, h.logs, h.sent, h.tracked, ?_, ?_⟩
  · intro id hid
    have hne : extask.id ≠ id := hid extask (by simp)
    have hrest : ∀ row ∈ done, row.id ≠ id := fun row hrow => hid row (by simp [hrow])
    exact (State.get?_settledRows_of_ne s₁ _ _ hne).trans (h.others id hrest)
  · intro row hrow
    by_cases heq : row = extask
    · rw [heq]
      exact h.own hdone hmem turn
    · have hin : row ∈ done := by simpa [heq] using hrow
      have hne : extask.id ≠ row.id := by
        intro hid
        exact heq (s.executedTasks.key_injOn (hdone row hin) hmem hid.symm)
      have hsame := State.get?_settledRows_of_ne s₁ (clock turn) deleteEmpty hne
      have hown := h.repaired row hin
      unfold Repaired at hown ⊢
      rw [hsame]
      exact hown

theorem Repairs.each {rest : List ExecutedTask} (n : Nat) (h : Repairs clock deleteEmpty done s s₁)
    (hdone : ∀ row ∈ done, row ∈ s.executedTasks) (hrest : ∀ row ∈ rest, row ∈ s.executedTasks) :
    ∃ s', Procedure.each (rest.zipIdx n)
        (fun row => updateExecutedTaskStatus (clock row.2) row.1 none false deleteEmpty) s₁ = (.ok (), s') ∧
      Repairs clock deleteEmpty (done ++ rest) s s' := by
  induction rest generalizing done s₁ n with
  | nil => exact ⟨s₁, rfl, by rwa [List.append_nil]⟩
  | cons extask rest ih =>
    have hmem : extask ∈ s.executedTasks := hrest extask (by simp)
    have hnext : ∀ row ∈ done ++ [extask], row ∈ s.executedTasks := by
      intro row hrow
      rcases List.mem_append.mp hrow with hrow | hrow
      · exact hdone row hrow
      · exact List.mem_singleton.mp hrow ▸ hmem
    obtain ⟨s', hs', h'⟩ := ih (n + 1) (h.turn hdone hmem n) hnext fun row hrow => hrest row (by simp [hrow])
    refine ⟨s', ?_, ?_⟩
    · rw [List.zipIdx_cons, each_cons, bind_of_ok (updateExecutedTaskStatus_silent _ _ _ _), hs']
    · rwa [List.append_assoc] at h'

theorem State.mem_picked {options : StatusOptions} :
    extask ∈ s.picked options ↔ extask ∈ s.executedTasks ∧ s.picks options extask = true ∧
      (options.job = [] ∨ s.pickedJobs options extask.id ≠ []) := by
  simp only [State.picked, List.mem_flatMap, Table.mem_def]
  constructor
  · intro h
    obtain ⟨row, hrow, hin⟩ := h
    by_cases hpick : s.picks options row = true
    · by_cases hjob : options.job = []
      · have heq : extask = row := by simpa [hpick, hjob] using hin
        exact heq ▸ ⟨hrow, hpick, Or.inl hjob⟩
      · simp only [hpick, Bool.not_true, Bool.false_eq_true, if_false, List.isEmpty_iff, hjob] at hin
        obtain ⟨job, hpicked, heq⟩ := List.mem_map.mp hin
        exact heq ▸ ⟨hrow, hpick, Or.inr (List.ne_nil_of_mem hpicked)⟩
    · simp [hpick] at hin
  · intro h
    obtain ⟨hrow, hpick, hjob⟩ := h
    refine ⟨extask, hrow, ?_⟩
    by_cases hnone : options.job = []
    · simp [hpick, hnone]
    · obtain ⟨job, hin⟩ := List.exists_mem_of_ne_nil _ (hjob.resolve_left hnone)
      simp only [hpick, Bool.not_true, Bool.false_eq_true, if_false, List.isEmpty_iff, hnone]
      exact List.mem_map.mpr ⟨job, hin, rfl⟩

theorem updateStatuses_repairs (clock : Nat → Instant) (options : StatusOptions) (s : State) :
    ∃ s', updateStatuses clock options s = (.ok (), s') ∧
      Repairs clock options.deleteEmpty (s.picked options) s s' := by
  have hread : Repairs clock options.deleteEmpty [] s s := ⟨rfl, rfl, rfl, rfl, rfl, rfl, by simp, by simp⟩
  exact hread.each 0 (by simp) fun extask hextask => (State.mem_picked.mp hextask).1

theorem updateExecutedTaskStatus_still {now : Instant} (hempty : s.jobStatuses extask.id = [] → deleteEmpty = false)
    (hstatus : s.SettledTask extask) :
    updateExecutedTaskStatus now extask none false deleteEmpty s = (.ok (), s) := by
  have hrows : s.settledRows now deleteEmpty extask = s.executedTasks := by
    unfold State.settledRows
    by_cases hnil : s.jobStatuses extask.id = []
    · rw [if_pos hnil, hempty hnil, if_neg Bool.false_ne_true]
    · rw [if_neg hnil, if_pos (hstatus hnil)]
  rw [updateExecutedTaskStatus_silent, hrows]

theorem updateStatuses_still {options : StatusOptions}
    (h : ∀ extask ∈ s.picked options,
      (s.jobStatuses extask.id = [] → options.deleteEmpty = false) ∧ s.SettledTask extask) :
    updateStatuses clock options s = (.ok (), s) := by
  have hloop : ∀ (rows : List ExecutedTask) (n : Nat), (∀ row ∈ rows, row ∈ s.picked options) →
      each (rows.zipIdx n) (fun row => updateExecutedTaskStatus (clock row.2) row.1 none false options.deleteEmpty) s =
        (.ok (), s) := by
    intro rows
    induction rows with
    | nil => exact fun _ _ => rfl
    | cons extask rows ih =>
      intro n hrows
      have hrow := h extask (hrows extask (by simp))
      rw [List.zipIdx_cons, each_cons, bind_of_ok (updateExecutedTaskStatus_still hrow.1 hrow.2)]
      exact ih (n + 1) fun row hin => hrows row (by simp [hin])
  exact hloop _ 0 fun _ hrow => hrow

theorem Repairs.row (h : Repairs clock deleteEmpty done s s') (hrow : extask ∈ s'.executedTasks) :
    extask ∈ s.executedTasks ∧ extask ∉ done ∨
      (s'.jobStatuses extask.id = [] → deleteEmpty = false) ∧ s'.SettledTask extask := by
  have hget := Table.mem_iff_get?.mp hrow
  by_cases hturn : ∃ old ∈ done, old.id = extask.id
  · obtain ⟨old, hold, hid⟩ := hturn
    have hown := h.repaired old hold
    have hjobs := h.jobStatuses extask.id
    unfold Repaired at hown
    rw [hid, hget, ← hjobs] at hown
    by_cases hnil : s'.jobStatuses extask.id = []
    · rw [if_pos hnil] at hown
      have hkept : deleteEmpty = false := by
        cases deleteEmpty with
        | false => rfl
        | true => cases hown
      exact Or.inr ⟨fun _ => hkept, fun hne => absurd hnil hne⟩
    · rw [if_neg hnil] at hown
      obtain ⟨turn, heq⟩ := hown
      have hstatus := congrArg ExecutedTask.status (Option.some.inj heq)
      rw [ExecutedTask.aggregated_status] at hstatus
      exact Or.inr ⟨fun h => absurd h hnil, fun _ => hstatus⟩
  · have hothers : ∀ old ∈ done, old.id ≠ extask.id := by
      intro old hold hid
      exact hturn ⟨old, hold, hid⟩
    rw [h.others extask.id hothers] at hget
    refine Or.inl ⟨(Table.get?_eq_some.mp hget).1, ?_⟩
    intro hin
    exact hothers extask hin rfl

end

/-- From any state the command ends, and leaves each executed task that it picked with the aggregate of
its jobs' statuses; all of them if no filter was given. Run again it finds nothing to do. -/
theorem statuses_repaired (clock clock' : Nat → Instant) (options : StatusOptions) (s : State) :
    ∃ s', updateStatuses clock options s = (.ok (), s') ∧
      Repairs clock options.deleteEmpty (s.picked options) s s' ∧
      (options.executedTask = [] → options.job = [] → options.org = [] → options.task = [] → s'.Settled) ∧
      updateStatuses clock' options s' = (.ok (), s') := by
  obtain ⟨s', hs', h⟩ := updateStatuses_repairs clock options s
  refine ⟨s', hs', h, ?_, ?_⟩
  · intro hids hjobs horgs htasks extask hextask
    rcases h.row hextask with ⟨hrow, hout⟩ | ⟨-, hsettled⟩
    · have hall : s.picks options extask = true := by simp [State.picks, hids, horgs, htasks]
      exact absurd (State.mem_picked.mpr ⟨hrow, hall, Or.inl hjobs⟩) hout
    · exact hsettled
  · apply updateStatuses_still
    intro extask hextask
    obtain ⟨hrow, hpick, hjob⟩ := State.mem_picked.mp hextask
    have hsame : s'.pickedJobs options extask.id = s.pickedJobs options extask.id := by
      simp only [State.pickedJobs, State.jobsOf, h.jobs]
    rcases h.row hrow with ⟨hbefore, hout⟩ | ⟨hempty, hsettled⟩
    · rw [State.picks, h.tasks] at hpick
      rw [hsame] at hjob
      exact absurd (State.mem_picked.mpr ⟨hbefore, hpick, hjob⟩) hout
    · exact ⟨hempty, hsettled⟩

end Advisor.Tasks
