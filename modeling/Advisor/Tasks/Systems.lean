import Advisor.Tasks.Order

/-! The hosts of a job. `Job.objects` joins them by inventory id, and so does `job.system`; the
inventory has a row for each org that has a host with that id. -/

namespace Advisor

def AdvisorInventoryHost.rhcConnected (row : AdvisorInventoryHost) : Bool :=
  (row.columns.lookup "rhc_client_id").join.isSome

namespace Tasks

open Python Procedure Django Relational

inductive ConnectionType where
  | none
  | direct
  | satellite
  deriving DecidableEq

structure AnnotatedJob where
  job : Job
  displayName : Option String
  hasStdout : Bool
  connectionType : ConnectionType

def annotate (job : Job) (system : Option AdvisorInventoryHost) : AnnotatedJob where
  job
  displayName := system.map (·.displayName)
  hasStdout := job.stdout ≠ ""
  connectionType :=
    match system with
    | none => .none
    | some row => if row.rhcConnected then .direct else .satellite

/-- The events of one message, one for each job that was started or not. -/
structure StartMessage where
  eventType : String
  orgId : String
  context : List (String × Json)
  payloads : List (List (String × Json))

def startPayload (job : Job) (system : AdvisorInventoryHost) : List (String × Json) :=
  [("system_uuid", .str job.systemId.toText), ("display_name", .str system.displayName),
    ("status", .str job.status.label)]

namespace State

variable (s : State)

def joinedSystems (job : Job) : List (Option AdvisorInventoryHost) :=
  match s.systems job with
  | [] => [none]
  | systems => systems.map some

def jobObjects : List AnnotatedJob := s.jobs.rows.flatMap fun job => (s.joinedSystems job).map (annotate job)

def systemOf (job : Job) : Except Exception AdvisorInventoryHost :=
  match s.systems job with
  | [] => .error .doesNotExist
  | [system] => .ok system
  | _ => .error .multipleObjectsReturned

def sendJobStartMessages (extask : ExecutedTask) (slug eventType : String) (jobs : List Job) :
    Except Exception (Option StartMessage) :=
  if jobs = [] then .ok none
  else do
    let payloads ← jobs.mapM fun job => (s.systemOf job).map (startPayload job)
    return some {
      eventType
      orgId := extask.orgId
      context := [("task_name", .str extask.name), ("task_slug", .str slug), ("executed_task_id", .int extask.id)]
      payloads }

def orgOf (job : Job) : Option String := (s.executedTasks.get? job.executedTask).map (·.orgId)

/-- The host of a job in the org of its executed task. -/
def ownSystem (job : Job) : Option AdvisorInventoryHost :=
  (s.orgOf job).bind fun orgId => s.inventory.get? (orgId, job.systemId)

end State

def Names (system : Option AdvisorInventoryHost) (payload : List (String × Json)) : Prop :=
  ∀ name, payload.lookup "display_name" = some name → ∃ row, system = some row ∧ name = .str row.displayName

/-- Each job is listed once and found by its run; what is shown of its host, and the system that is named
in the events about it, are those of its own org. -/
structure State.SeesOwn (s : State) : Prop where
  once : ∀ job ∈ s.jobs, (s.jobObjects.map (·.job)).count job = 1
  found : ∀ job ∈ s.jobs, (∀ row ∈ s.jobs, row.runId = job.runId → row = job) →
    s.jobWithRunId (.str job.runId.toText) = .ok (some job)
  shown : ∀ row ∈ s.jobObjects, row = annotate row.job (s.ownSystem row.job)
  started : ∀ extask slug eventType jobs message, (∀ job ∈ jobs, job ∈ s.jobs) →
    s.sendJobStartMessages extask slug eventType jobs = .ok (some message) →
      jobs.Forall₂ (fun job payload => Names (s.ownSystem job) payload) message.payloads
  ended : ∀ lib now job status updatedOn, job ∈ s.jobs → ∃ sent,
    (updateJobStatus lib now job status updatedOn s).2.sent = s.sent ++ sent ∧
      ∀ message ∈ sent, Names (s.ownSystem job) message.payload

variable {s : State} {job : Job} {row : AdvisorInventoryHost}

namespace State

theorem mem_systems : row ∈ s.systems job ↔ row ∈ s.inventory ∧ row.inventoryId = job.systemId := by
  rw [systems, List.mem_filter, decide_eq_true_eq]
  rfl

theorem ownSystem_mem (h : s.ownSystem job = some row) : row ∈ s.systems job ∧ s.orgOf job = some row.orgId := by
  obtain ⟨orgId, horg, hget⟩ := Option.bind_eq_some_iff.mp h
  have hkey := Table.get?_key hget
  obtain ⟨rfl, hid⟩ := Prod.mk.inj hkey
  exact ⟨mem_systems.mpr ⟨(Table.get?_eq_some.mp hget).1, hid⟩, horg⟩

theorem jobObjects_job : s.jobObjects.map (·.job) = s.joined s.jobs.rows := by
  unfold jobObjects joined
  rw [List.map_flatMap]
  refine congrArg (s.jobs.rows.flatMap ·) (funext fun job => ?_)
  rw [List.map_map, joinedSystems]
  rcases s.systems job with _ | ⟨first, rest⟩
  · rfl
  · simp [Function.comp_def, annotate, List.map_const', List.replicate_succ]

theorem joinedSystems_own (h : ∀ row ∈ s.systems job, s.orgOf job = some row.orgId) :
    s.joinedSystems job = [s.ownSystem job] := by
  have hown : ∀ row ∈ s.systems job, s.ownSystem job = some row := by
    intro row hrow
    obtain ⟨hm, hid⟩ := mem_systems.mp hrow
    rw [ownSystem, h row hrow, Option.bind_some, ← hid]
    exact Table.mem_iff_get?.mp hm
  have hnodup : (s.systems job).Nodup := (List.Nodup.of_map _ s.inventory.unique).filter _
  rcases hsystems : s.systems job with _ | ⟨first, _ | ⟨second, rest⟩⟩
  · have hnone : s.ownSystem job = none := by
      refine Option.eq_none_iff_forall_ne_some.mpr fun row hrow => ?_
      have hm := (ownSystem_mem hrow).1
      rw [hsystems] at hm
      exact absurd hm List.not_mem_nil
    rw [joinedSystems, hsystems, hnone]
  · rw [joinedSystems, hsystems, hown first (by simp [hsystems])]
    rfl
  · rw [hsystems] at hnodup
    have heq := (hown first (by simp [hsystems])).symm.trans (hown second (by simp [hsystems]))
    exact absurd (by simp [Option.some.inj heq]) (List.nodup_cons.mp hnodup).1

theorem systems_own (h : ∀ row ∈ s.systems job, s.orgOf job = some row.orgId) {system : AdvisorInventoryHost}
    {rest : List AdvisorInventoryHost} (hsystems : s.systems job = system :: rest) :
    rest = [] ∧ s.ownSystem job = some system := by
  have hjoined := joinedSystems_own h
  rw [joinedSystems, hsystems] at hjoined
  obtain ⟨hfirst, hrest⟩ := List.cons.inj hjoined
  exact ⟨List.map_eq_nil_iff.mp hrest, hfirst.symm⟩

theorem sendJobStartMessages_names {extask : ExecutedTask} {slug eventType : String} {jobs : List Job}
    {message : StartMessage} (hown : ∀ job ∈ jobs, ∀ row rest, s.systems job = row :: rest → s.ownSystem job = some row)
    (hsend : s.sendJobStartMessages extask slug eventType jobs = .ok (some message)) :
    jobs.Forall₂ (fun job payload => Names (s.ownSystem job) payload) message.payloads := by
  unfold sendJobStartMessages at hsend
  by_cases hempty : jobs = []
  · rw [if_pos hempty] at hsend
    cases hsend
  rw [if_neg hempty] at hsend
  obtain ⟨payloads, hpayloads, hmessage⟩ := bind_eq_ok.mp hsend
  obtain rfl := Option.some.inj (Except.ok.inj hmessage)
  refine ((List.forall₂_and_left _ _).mpr ⟨fun job hjob => hjob, mapM_forall₂ hpayloads⟩).imp ?_
  intro job payload h
  obtain ⟨hjob, hpayload⟩ := h
  rcases hsystems : s.systems job with _ | ⟨system, _ | ⟨second, rest⟩⟩
  · rw [systemOf, hsystems] at hpayload
    cases hpayload
  · rw [systemOf, hsystems] at hpayload
    obtain rfl := Except.ok.inj hpayload
    intro name hname
    refine ⟨system, hown job hjob system [] hsystems, ?_⟩
    simpa [startPayload, List.lookup_cons, List.lookup_nil] using hname.symm
  · rw [systemOf, hsystems] at hpayload
    cases hpayload

end State

/-- From `s₀`, the events sent since then name the given system. -/
structure Announces (s₀ : State) (system : Option AdvisorInventoryHost) (s : State) : Prop where
  inventory : s.inventory = s₀.inventory
  sent : ∃ sent, s.sent = s₀.sent ++ sent ∧ ∀ message ∈ sent, Names system message.payload

namespace Announces

variable {s₀ s' : State} {system : Option AdvisorInventoryHost}

theorem refl : Announces s₀ system s₀ := ⟨rfl, [], (List.append_nil _).symm, by simp⟩

theorem congr (h : Announces s₀ system s) (hinventory : s'.inventory = s.inventory) (hsent : s'.sent = s.sent) :
    Announces s₀ system s' := ⟨hinventory.trans h.inventory, by rw [hsent]; exact h.sent⟩

theorem sendEventMessage (h : Announces s₀ system s) (message : EventMessage) (hm : Names system message.payload) :
    Triple (sendEventMessage message) s (fun _ => Announces s₀ system) (fun _ => Announces s₀ system) := by
  obtain ⟨sent, hsent, hall⟩ := h.sent
  refine Triple.write ⟨h.inventory, sent ++ [message], ?_, ?_⟩
  · change s.sent ++ [message] = _
    rw [hsent, List.append_assoc]
  · intro m hm'
    rcases List.mem_append.mp hm' with hm' | hm'
    · exact hall m hm'
    · rw [List.mem_singleton.mp hm']
      exact hm

theorem newLog (h : Announces s₀ system s) (job : Job) (isOk : Bool) (line : String) :
    Triple (job.newLog isOk line) s (fun _ => Announces s₀ system) (fun _ => Announces s₀ system) := by
  unfold Job.newLog
  split
  · exact Triple.write (h.congr rfl rfl)
  · exact Triple.raise h

theorem save (h : Announces s₀ system s) :
    Triple job.save s (fun _ => Announces s₀ system) (fun _ => Announces s₀ system) := by
  unfold Job.save
  split_ifs
  · exact Triple.write (h.congr rfl rfl)
  · exact Triple.raise h
  · exact Triple.raise h

theorem setJobStatus (h : Announces s₀ system s) {lib : TaskLibrary} {now : Instant} {status : JobStatus}
    {updatedOn : Json} : Triple (setJobStatus lib now job status updatedOn) s
      (fun job' s' => Announces s₀ system s' ∧ job.Same job') (fun _ => Announces s₀ system) := by
  unfold Tasks.setJobStatus
  split_ifs
  · exact Triple.pure ⟨h, rfl, rfl, rfl, rfl⟩
  · refine Triple.bind (Triple.lift (fun updated _ => ?_) fun _ _ => h)
    dsimp only
    refine Triple.seq (save h) fun _ s₁ h₁ => ?_
    refine Triple.seq (newLog h₁ _ (status = .success) (updatedLine lib _)) fun _ s₂ h₂ => ?_
    exact Triple.pure ⟨h₂, rfl, rfl, rfl, rfl⟩

theorem completedMessage_names (slug : String) (extask : ExecutedTask) :
    Names system (completedMessage slug extask).payload := by
  intro name hname
  simp [completedMessage, List.lookup_cons, List.lookup_nil] at hname

theorem endedMessage_names {eventType slug : String} {extask : ExecutedTask} {status : JobStatus}
    (h : system = some row) : Names system (endedMessage eventType slug extask job row status).payload := by
  intro name hname
  refine ⟨row, h, ?_⟩
  simpa [endedMessage, List.lookup_cons, List.lookup_nil] using hname.symm

theorem noMoreRunning (h : Announces s₀ system s) {extask : ExecutedTask} :
    Triple (noMoreRunning extask (some job)) s (fun _ => Announces s₀ system) (fun _ => Announces s₀ system) := by
  unfold Tasks.noMoreRunning
  exact newLog h job true (noMoreLine extask)

theorem finish (h : Announces s₀ system s) {now : Instant} {extask : ExecutedTask} {status : ExecutedTaskStatus} :
    Triple (finish now extask status true) s (fun _ => Announces s₀ system) (fun _ => Announces s₀ system) := by
  unfold Tasks.finish
  by_cases hs : extask.status = status
  · rw [if_pos hs]
    exact Triple.pure h
  · rw [if_neg hs]
    refine Triple.seq (Q := fun _ => Announces s₀ system) (Triple.write (h.congr rfl rfl)) fun _ s₁ h₁ => ?_
    exact Triple.bind (Triple.read (sendEventMessage h₁ _ (completedMessage_names _ _)))

theorem updateExecutedTaskStatus (h : Announces s₀ system s) {now : Instant} {extask : ExecutedTask} :
    Triple (updateExecutedTaskStatus now extask (some job) true false) s (fun _ => Announces s₀ system)
      (fun _ => Announces s₀ system) := by
  unfold Tasks.updateExecutedTaskStatus
  refine Triple.bind (Triple.read ?_)
  split_ifs
  · exact Triple.write (h.congr rfl rfl)
  · exact Triple.pure h
  · exact Triple.write (h.congr rfl rfl)
  · exact Triple.pure h
  · exact Triple.seq (noMoreRunning h) fun _ s₁ h₁ => finish h₁

theorem announceJob (h : Announces s₀ system s) {extask : ExecutedTask} {status : JobStatus}
    (hown : ∀ row rest, s.systems job = row :: rest → system = some row) :
    Triple (announceJob extask job status) s (fun _ => Announces s₀ system) (fun _ => Announces s₀ system) := by
  unfold Tasks.announceJob
  refine Triple.bind (Triple.read ?_)
  rcases hsystems : s.systems job with _ | ⟨row, _ | ⟨second, rest⟩⟩
  · exact Triple.pure h
  · cases eventTypeForJobStatus job.status with
    | none => exact Triple.pure h
    | some eventType =>
      dsimp only
      rw [Triple.read_bind]
      generalize ((s.tasks.get? extask.task).map fun task => task.slug).getD "" = slug
      exact Triple.seq (sendEventMessage h (endedMessage eventType slug extask job row status)
        (endedMessage_names (hown row [] hsystems))) fun _ s₁ h₁ => newLog h₁ job true (sentLine job row.displayName)
  · exact Triple.raise h

theorem updateJobStatus (h : Announces s₀ system s) {lib : TaskLibrary} {now : Instant} {status : JobStatus}
    {updatedOn : Json} (hown : ∀ row rest, s₀.systems job = row :: rest → system = some row) :
    Triple (updateJobStatus lib now job status updatedOn) s (fun _ => Announces s₀ system)
      (fun _ => Announces s₀ system) := by
  unfold Tasks.updateJobStatus
  refine Triple.seq (setJobStatus h) fun job' s₁ h₁ => ?_
  refine Triple.bind (Triple.read ?_)
  cases s₁.executedTasks.get? job'.executedTask with
  | none => exact Triple.raise h₁.1
  | some extask =>
    have hown₁ : ∀ row rest, s₁.systems job' = row :: rest → system = some row := by
      have heq : s₁.systems job' = s₀.systems job := by
        simp only [State.systems, h₁.1.inventory, h₁.2.systemId]
      rwa [heq]
    refine Triple.seq (announceJob h₁.1 hown₁) fun _ s₂ h₂ => ?_
    refine Triple.seq (updateExecutedTaskStatus h₂) fun _ s₃ h₃ => ?_
    exact Triple.pure h₃

end Announces

/-- Jobs see their own org's host alone if and only if no other org has a host with the id of theirs. -/
theorem seesOwn_iff (s : State) :
    s.SeesOwn ↔ ∀ job ∈ s.jobs, ∀ row ∈ s.inventory, row.inventoryId = job.systemId → s.orgOf job = some row.orgId := by
  constructor
  · intro h job hjob row hrow hid
    have hsystems : row ∈ s.systems job := State.mem_systems.mpr ⟨hrow, hid⟩
    have hlisted : annotate job (some row) ∈ s.jobObjects := by
      refine List.mem_flatMap.mpr ⟨job, hjob, List.mem_map_of_mem ?_⟩
      unfold State.joinedSystems
      split
      · rename_i hnil
        rw [hnil] at hsystems
        exact absurd hsystems List.not_mem_nil
      · exact List.mem_map_of_mem hsystems
    have hshown : some row.displayName = (s.ownSystem job).map (·.displayName) :=
      congrArg AnnotatedJob.displayName (h.shown _ hlisted)
    obtain ⟨own, hown, -⟩ := Option.map_eq_some_iff.mp hshown.symm
    obtain ⟨hmem, horg⟩ := State.ownSystem_mem hown
    have hone : (s.systems job).length ≤ 1 := by
      have hcount := h.once job hjob
      rw [State.jobObjects_job, State.joined] at hcount
      obtain ⟨before, after, hsplit⟩ := List.append_of_mem hjob
      rw [hsplit] at hcount
      simp only [List.flatMap_append, List.flatMap_cons, List.count_append, List.count_replicate_self] at hcount
      omega
    obtain ⟨only, honly⟩ := List.length_eq_one_iff.mp (Nat.le_antisymm hone (List.length_pos_of_mem hsystems))
    rw [honly, List.mem_singleton] at hmem hsystems
    rw [horg, hmem, hsystems]
  · intro h
    have hown : ∀ job ∈ s.jobs, ∀ row ∈ s.systems job, s.orgOf job = some row.orgId := fun job hjob row hrow =>
      h job hjob row (State.mem_systems.mp hrow).1 (State.mem_systems.mp hrow).2
    have hsystems : ∀ job ∈ s.jobs, ∀ row rest, s.systems job = row :: rest → s.ownSystem job = some row :=
      fun job hjob row rest heq => (State.systems_own (hown job hjob) heq).2
    have hobjects : s.jobObjects = s.jobs.rows.map fun job => annotate job (s.ownSystem job) := by
      rw [State.jobObjects, ← List.flatMap_pure_eq_map]
      refine List.flatMap_congr fun job hjob => ?_
      rw [State.joinedSystems_own (hown job hjob)]
      rfl
    have hlength : ∀ job ∈ s.jobs, (s.systems job).length ≤ 1 := by
      intro job hjob
      rcases heq : s.systems job with _ | ⟨row, rest⟩
      · exact Nat.zero_le 1
      · rw [(State.systems_own (hown job hjob) heq).1]
        exact Nat.le_refl 1
    refine ⟨?_, ?_, ?_, ?_, ?_⟩
    · intro job hjob
      rw [hobjects, List.map_map]
      have hjobs : s.jobs.rows.map ((·.job) ∘ fun job => annotate job (s.ownSystem job)) = s.jobs.rows :=
        List.map_id s.jobs.rows
      rw [hjobs]
      exact List.count_eq_one_of_mem (List.Nodup.of_map _ s.jobs.unique) hjob
    · intro job hjob halone
      exact State.Runs.found ⟨hjob, halone, hlength job hjob⟩ (Uuid.ofText_toText job.runId)
    · intro row hrow
      rw [hobjects] at hrow
      obtain ⟨job, -, rfl⟩ := List.mem_map.mp hrow
      rfl
    · intro extask slug eventType jobs message hjobs hsend
      exact State.sendJobStartMessages_names (fun job hjob => hsystems job (hjobs job hjob)) hsend
    · intro lib now job status updatedOn hjob
      have htriple : Triple (updateJobStatus lib now job status updatedOn) s (fun _ => Announces s (s.ownSystem job))
          fun _ => Announces s (s.ownSystem job) := Announces.updateJobStatus .refl (hsystems job hjob)
      exact (htriple.final (fun _ _ h => h) fun _ _ h => h).sent

def hostOf (orgId displayName : String) : AdvisorInventoryHost where
  orgId
  inventoryId := 7
  updated := 0
  columns := [("display_name", some (.text displayName)), ("rhc_client_id", none)]

/-- The system of the one job has moved to another org, and its old org still has a row for it. -/
def sharedSystem : State where
  inventory := ⟨[hostOf "1234" "web", hostOf "5678" "secret"], by decide⟩
  tasks := .single sampleTask
  executedTasks := .single sampleExtask
  jobs := .single (sampleJob 1 .running)
  storable := sampleState.storable

/-- The job is listed once for each org, once with the other org's display name, and its updates are dropped. -/
theorem seesOwn_shared_system :
    sharedSystem.jobObjects.map (fun row => (row.job.id, row.displayName)) = [(1, some "web"), (1, some "secret")] ∧
      sharedSystem.jobWithRunId (.str "00000000-0000-0000-0000-000000000001") = .error .multipleObjectsReturned ∧
      ¬ sharedSystem.SeesOwn := by
  refine ⟨by decide +kernel, by decide +kernel, fun h => ?_⟩
  have hcount := h.once (sampleJob 1 .running) (Table.mem_single.mpr rfl)
  exact absurd hcount (by decide +kernel)

end Tasks

end Advisor
