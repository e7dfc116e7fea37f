import Advisor.Tasks.Create
import Advisor.Tasks.Order

/-! Executing a task while the tasks service already gets reports about its runs: the jobs can be seen
only when the transaction that makes them has committed. -/

namespace Advisor.Tasks

open Python Procedure Django Relational

variable (lib : TaskLibrary)

/-- A message to the tasks service from which it reads a run and a status. -/
inductive Source (runId : Uuid) (status : JobStatus) where
  | ansible (message : Json) (fetch : Fetch)
      (reads : ∃ id name updatedOn t, readUpdate message = .ok (some (.str id, .str name, updatedOn)) ∧
        Uuid.ofText id = some runId ∧ JobStatus.ofName? (lib.upper name) = some status ∧
        parseDatetime lib.django updatedOn = .ok t)
  | script (message : Json) (upload : Option Json)
      (reads : ∃ id stdout t, timestampOf message = .ok t ∧ uploadOf message upload = .ok (.str id, stdout) ∧
        Uuid.ofText id = some runId ∧ statusFrom lib .script stdout = some status)

/-- A report about a run, and when it is handled. -/
structure Report where
  runId : Uuid
  status : JobStatus
  now : Instant
  source : Source lib runId status

variable {lib}

def Report.handle (report : Report lib) (s : State) : State :=
  match report.source with
  | .ansible message fetch _ => (handleAnsibleJobUpdates lib report.now message fetch s).2
  | .script message upload _ => (handleScriptJobUpdates lib report.now message upload s).2

/-- The status of a job is that of the report, or what the output that is fetched for it says. -/
def Report.Reflected (report : Report lib) (job : Job) : Prop :=
  job.status = report.status ∨
    match report.source with
    | .ansible _ fetch _ =>
      ∃ ended : Job, ended.Same job ∧ ended.status = report.status ∧ outputStatus lib fetch ended = some job.status
    | .script .. => False

variable (lib) in
inductive Label where
  | dispatch (answer : Answer)
  | commit (now : Instant)
  | report (report : Report lib)

inductive Phase where
  | dispatching
  | committed
  | failed
  deriving DecidableEq

/-- What the tasks service sees, and how far the request has got. -/
structure World where
  visible : State
  remaining : List (List DispatchHost)
  runsCreated : List RunCreated
  phase : Phase

def World.start (execution : Execution) (s : State) : World where
  visible := s
  remaining := execution.hosts.toChunks execution.batchSize
  runsCreated := []
  phase := .dispatching

namespace World

variable (execution : Execution)

def dispatch (w : World) (answer : Answer) : World :=
  match w.remaining with
  | [] => w
  | batch :: remaining =>
    match execution.execute batch answer with
    | .ok runs => { w with remaining, runsCreated := w.runsCreated ++ runs }
    | .error _ => { w with phase := .failed }

/-- The assertion on the number of runs, and then the rows. -/
def commit (w : World) (now : Instant) : World :=
  if w.runsCreated.length = execution.hosts.length then
    match createRows now execution w.runsCreated w.visible with
    | (.ok _, s) => { w with visible := s, phase := .committed }
    | (.error _, _) => { w with phase := .failed }
  else { w with phase := .failed }

def step (w : World) : Label lib → World
  | .dispatch answer => w.dispatch execution answer
  | .commit now => w.commit execution now
  | .report report => { w with visible := report.handle w.visible }

def run (w : World) (labels : List (Label lib)) : World := labels.foldl (step execution) w

def runIds (w : World) : List Uuid := w.runsCreated.filterMap (·.id)

def Fresh (w : World) (runs : List RunCreated) : Prop :=
  (w.runIds ++ runs.filterMap (·.id)).Nodup ∧ 0 ∉ runs.filterMap (·.id) ∧
    ∀ job ∈ w.visible.jobs, job.runId ∉ runs.filterMap (·.id)

/-- What can happen: a request for the next batch, then the commit; reports are about runs that exist. -/
def Enabled (w : World) : Label lib → Prop
  | .dispatch answer => w.phase = .dispatching ∧ ∃ batch remaining, w.remaining = batch :: remaining ∧
      ∀ runs, execution.execute batch answer = .ok runs → w.Fresh runs
  | .commit _ => w.phase = .dispatching ∧ w.remaining = []
  | .report report => report.runId ∈ w.runIds

def Allowed (w : World) (labels : List (Label lib)) : Prop :=
  ∀ before label after, labels = before ++ label :: after → (w.run execution before).Enabled execution label

end World

section Handling

variable {s s' s'' : State} {job job' : Job} {report : Report lib}

theorem Replaces.trans (h : Replaces s s' job) (h' : Replaces s' s'' job') (hid : job'.id = job.id) :
    Replaces s s'' job' := by
  intro row
  rw [h', h]
  constructor
  · intro hrow
    rcases hrow with hrow | ⟨hrow | hrow, hne⟩
    · exact Or.inl hrow
    · exact absurd (by rw [hrow, hid]) hne
    · exact Or.inr ⟨hrow.1, hne⟩
  · intro hrow
    rcases hrow with hrow | hrow
    · exact Or.inl hrow
    · exact Or.inr ⟨Or.inr ⟨hrow.1, hid ▸ hrow.2⟩, hrow.2⟩

theorem State.jobWithRunId_ne {id : String} {runId : Uuid} (hid : Uuid.ofText id = some runId)
    (h : ∀ job ∈ s.jobs, job.runId = runId → ¬ (s.systems job).length ≤ 1) (job : Job) :
    s.jobWithRunId (.str id) ≠ .ok (some job) := by
  intro hget
  obtain ⟨hjob, hsystems, hrun⟩ := State.jobWithRunId_eq_some hget
  refine h job hjob ?_ hsystems
  simp only [uuidOf, hid, Except.ok.injEq] at hrun
  exact hrun.symm

theorem Report.handle_unfound (h : ∀ job ∈ s.jobs, job.runId = report.runId → ¬ (s.systems job).length ≤ 1) :
    (report.handle s).jobs = s.jobs ∧ (report.handle s).inventory = s.inventory := by
  revert h
  obtain ⟨runId, status, now, source⟩ := report
  intro h
  replace h : ∀ job ∈ s.jobs, job.runId = runId → ¬ (s.systems job).length ≤ 1 := h
  cases source with
  | ansible message fetch reads =>
    obtain ⟨id, name, updatedOn, t, hread, hid, -, -⟩ := reads
    have hnone := State.jobWithRunId_ne hid h
    rcases handleAnsibleJobUpdates_cases lib now message fetch s with ⟨hsame, -⟩ | ⟨job, status', at_, t', hupdate, -⟩
    · simp only [Report.handle, hsame, and_self]
    · unfold State.update? at hupdate
      rw [hread] at hupdate
      dsimp only at hupdate
      split at hupdate
      · rename_i found hget
        exact absurd hget (hnone found)
      · cases hupdate
  | script message upload reads =>
    obtain ⟨id, stdout, t, ht, hread, hid, -⟩ := reads
    have hnone := State.jobWithRunId_ne hid h
    rcases handleScriptJobUpdates_cases lib now message upload s with ⟨hq, -⟩ | ⟨job, stdout', hupload, -⟩
    · exact ⟨hq.jobs, hq.inventory⟩
    · unfold State.upload? at hupload
      rw [ht, hread] at hupload
      dsimp only at hupload
      split at hupload
      · rename_i found hget
        exact absurd hget (hnone found)
      · cases hupload

theorem Report.handle_found (h : s.Runs job) (hid : job.runId = report.runId) :
    ∃ job', Replaces s (report.handle s) job' ∧ (report.handle s).inventory = s.inventory ∧ job.Same job' ∧
      report.Reflected job' := by
  obtain ⟨runId, status, now, source⟩ := report
  subst hid
  cases source with
  | ansible message fetch reads =>
    obtain ⟨id, name, updatedOn, t, hread, hid, hname, htime⟩ := reads
    have hupdate : s.update? lib message = some (job, status, updatedOn) := by
      simp only [State.update?, hread, h.found hid, namedStatus, hname]
    rcases handleAnsibleJobUpdates_cases lib now message fetch s with
      ⟨-, hrefused⟩ | ⟨job₁, status₁, updatedOn₁, t₁, hupdate₁, -, heffect⟩
    · obtain ⟨-, e, he⟩ := hrefused job status updatedOn hupdate
      rw [htime] at he
      cases he
    obtain ⟨rfl, rfl, rfl⟩ : job = job₁ ∧ status = status₁ ∧ updatedOn = updatedOn₁ := by
      simpa [hupdate] using hupdate₁
    have hsame := job.withStatus_same now status t₁
    have hstatus := job.withStatus_status now status t₁
    generalize job.withStatus now status t₁ = job' at heffect hsame hstatus
    cases heffect with
    | unannounced _ hw => exact ⟨job', hw.jobs, hw.inventory, hsame, Or.inl hstatus⟩
    | orphan _ hagg => exact ⟨job', hagg.jobs, hagg.inventory, hsame, Or.inl hstatus⟩
    | done hroom hagg hw hsame' hout htime' =>
      rename_i s₁ job''
      refine ⟨job'', hagg.jobs.trans hw.jobs hsame'.id, hw.inventory.trans hagg.inventory, hsame.trans hsame', ?_⟩
      cases houtput : outputStatus lib fetch job' with
      | none =>
        rw [houtput] at hout
        exact Or.inl (hout.trans hstatus)
      | some status' =>
        rw [houtput] at hout
        exact Or.inr ⟨job', hsame', hstatus, houtput.trans (congrArg some hout.symm)⟩
  | script message upload reads =>
    obtain ⟨id, stdout, t, ht, hread, hid, hfrom⟩ := reads
    have hupload : s.upload? message upload = some (job, stdout) := by
      simp only [State.upload?, ht, hread, h.found hid]
    rcases handleScriptJobUpdates_cases lib now message upload s with ⟨-, hnone⟩ | ⟨job₁, stdout₁, hupload₁, heffect⟩
    · rw [hupload] at hnone
      cases hnone
    obtain ⟨rfl, rfl⟩ : job = job₁ ∧ stdout = stdout₁ := by simpa [hupload] using hupload₁
    cases heffect with
    | unparsed hnone _ _ _ =>
      rw [hfrom] at hnone
      cases hnone
    | unannounced hfrom' hroom hw hsame =>
      rename_i job'
      exact ⟨job', hw.jobs, hw.inventory, hsame, Or.inl (Option.some.inj (hfrom'.symm.trans hfrom))⟩
    | aggregated hfrom' hroom hagg hsame =>
      rename_i job'
      exact ⟨job', hagg.jobs, hagg.inventory, hsame, Or.inl (Option.some.inj (hfrom'.symm.trans hfrom))⟩

end Handling

section Creating

variable {now : Instant} {execution : Execution} {extask : ExecutedTask} {s s' : State}

theorem lt_nextId {ids : List Nat} {id : Nat} (h : id ∈ ids) : id < nextId ids := by
  have hle : ∀ (l : List Nat), id ∈ l → id ≤ l.foldr max 0 := by
    intro l hl
    induction l with
    | nil => exact absurd hl List.not_mem_nil
    | cons first rest ih =>
      rcases List.mem_cons.mp hl with rfl | hl
      · exact Nat.le_max_left _ _
      · exact (ih hl).trans (Nat.le_max_right _ _)
  exact Nat.lt_succ_of_le (hle ids h)

def MadeOf (made : DispatchHost × RunCreated) (job : Job) : Prop :=
  job.systemId = made.1.inventoryId ∧ job.runId = made.2.id.getD 0 ∧
    job.status = if made.2.id.isSome then .running else .failure

/-- The rows of the jobs are the old ones and the new ones. -/
structure Adds (s s' : State) (jobs : List Job) : Prop where
  inventory : s'.inventory = s.inventory
  rows : ∀ row, row ∈ s'.jobs ↔ row ∈ jobs ∨ row ∈ s.jobs

theorem Adds.quiet (hinventory : s'.inventory = s.inventory) (hjobs : s'.jobs = s.jobs) : Adds s s' [] :=
  ⟨hinventory, fun row => by rw [hjobs]; simp⟩

theorem Adds.trans {s'' : State} {jobs jobs' : List Job} (h : Adds s s' jobs) (h' : Adds s' s'' jobs') :
    Adds s s'' (jobs ++ jobs') := by
  refine ⟨h'.inventory.trans h.inventory, fun row => ?_⟩
  rw [h'.rows, h.rows, List.mem_append]
  tauto

theorem withJob_adds {job : Job} (hid : job.id = nextId (s.jobs.rows.map (·.id))) (h : job.storable) :
    Adds s (s.withJob job h) [job] := by
  refine ⟨rfl, fun row => ?_⟩
  rw [List.mem_singleton]
  refine mem_overwrite.trans (or_congr Iff.rfl (and_iff_left_of_imp fun hrow => ?_))
  have hlt : row.id < job.id := by
    rw [hid]
    exact lt_nextId (List.mem_map_of_mem hrow)
  exact Nat.ne_of_lt hlt

theorem createJob_adds (host : DispatchHost) (created : RunCreated) :
    Triple (createJob now execution extask host created) s
      (fun _ s' => ∃ job, MadeOf (host, created) job ∧ Adds s s' [job]) fun _ _ => True := by
  unfold createJob
  rw [Triple.read_bind]
  generalize hid : nextId (s.jobs.rows.map (·.id)) = id
  have hstorable : (newJob now extask id host created).storable := rfl
  have hadds : Adds s (s.withJob (newJob now extask id host created) hstorable) [newJob now extask id host created] :=
    withJob_adds hid.symm hstorable
  have hsave : Triple (newJob now extask id host created).save s
      (fun _ s₁ => Adds s s₁ [newJob now extask id host created]) fun _ _ => True :=
    Triple.of_eq (save_of_storable hstorable) (fun _ _ => hadds) fun _ _ => trivial
  refine Triple.seq hsave fun _ s₁ h₁ => ?_
  have hlog : ∀ isOk line, Triple ((newJob now extask id host created).newLog isOk line) s₁
      (fun _ s' => ∃ job, MadeOf (host, created) job ∧ Adds s s' [job]) fun _ _ => True := by
    intro isOk line
    obtain ⟨r, s₂, hs₂, hq⟩ := newLog_quiet (newJob now extask id host created) isOk line s₁
    refine Triple.of_eq hs₂ (fun _ _ => ⟨newJob now extask id host created, ⟨rfl, rfl, rfl⟩, ?_⟩) fun _ _ => trivial
    exact h₁.trans (Adds.quiet hq.inventory hq.jobs)
  cases created.id with
  | none => exact hlog _ _
  | some runId => exact hlog _ _

theorem createJobs_adds (pairs : List (DispatchHost × RunCreated)) (s : State) :
    Triple (each pairs fun (host, created) => createJob now execution extask host created) s
      (fun _ s' => ∃ jobs, pairs.Forall₂ MadeOf jobs ∧ Adds s s' jobs) fun _ _ => True := by
  induction pairs generalizing s with
  | nil => exact Triple.pure ⟨[], .nil, Adds.quiet rfl rfl⟩
  | cons made rest ih =>
    rw [each_cons]
    refine Triple.seq (createJob_adds made.1 made.2) fun _ s₁ h₁ => ?_
    obtain ⟨job, hmade, hadds⟩ := h₁
    refine Triple.mono (ih s₁) (fun _ s' h' => ?_) fun _ _ _ => trivial
    obtain ⟨jobs, hjobs, hadds'⟩ := h'
    exact ⟨job :: jobs, .cons hmade hjobs, hadds.trans hadds'⟩

theorem createExecutedTask_adds :
    Triple (createExecutedTask execution) s (fun _ s₁ => Adds s s₁ []) fun _ _ => True := by
  unfold createExecutedTask
  rw [Triple.read_bind]
  split_ifs
  · refine Triple.seq (Q := fun _ s₁ => Adds s s₁ []) (Triple.write ?_) fun _ _ h₁ => Triple.pure h₁
    exact Adds.quiet rfl rfl
  · exact Triple.raise trivial

theorem createJobsForExecutedTask_adds (runsCreated : List RunCreated) (s : State) :
    Triple (createJobsForExecutedTask now execution extask runsCreated) s
      (fun _ s' => ∃ jobs, (execution.hosts.zip runsCreated).Forall₂ MadeOf jobs ∧ Adds s s' jobs) fun _ _ => True := by
  refine Triple.seq (createJobs_adds _ s) fun _ s₁ h₁ => ?_
  obtain ⟨jobs, hjobs, hadds⟩ := h₁
  by_cases hempty : s₁.jobStatuses extask.id = []
  · exact Triple.of_eq (updateExecutedTaskStatus_empty none hempty) (fun _ _ => ⟨jobs, hjobs, hadds⟩)
      fun _ _ => trivial
  · obtain ⟨s₂, hs₂, hset⟩ := updateExecutedTaskStatus_settles now none hempty
    refine Triple.of_eq hs₂ (fun _ _ => ⟨jobs, hjobs, ?_⟩) fun _ _ => trivial
    simpa using hadds.trans (Adds.quiet hset.inventory hset.jobs)

theorem createRows_adds {runsCreated : List RunCreated} (h : createRows now execution runsCreated s = (.ok (), s')) :
    ∃ jobs, (execution.hosts.zip runsCreated).Forall₂ MadeOf jobs ∧ Adds s s' jobs := by
  have hcreate : Triple (createRows now execution runsCreated) s
      (fun _ s' => ∃ jobs, (execution.hosts.zip runsCreated).Forall₂ MadeOf jobs ∧ Adds s s' jobs) fun _ _ => True := by
    unfold createRows
    refine Triple.atomic (Triple.seq createExecutedTask_adds fun extask s₁ h₁ => ?_)
    refine Triple.mono (createJobsForExecutedTask_adds runsCreated s₁) (fun _ s₂ h₂ => ?_) fun _ _ _ => trivial
    obtain ⟨jobs, hjobs, hadds⟩ := h₂
    exact ⟨jobs, hjobs, h₁.trans hadds⟩
  exact hcreate.of_ok h

end Creating

end Advisor.Tasks
