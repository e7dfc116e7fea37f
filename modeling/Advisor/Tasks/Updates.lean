import Advisor.Python.Raise
import Advisor.Tasks.Effects

/-! What the handlers of job updates do, from the state before them: which job an update is about,
which status an output leaves it with, and how its executed task follows. -/

namespace Advisor.Tasks

open Python Procedure Django Relational

namespace State

variable {s : State} {job : Job}

theorem joined_eq_singleton {jobs : List Job} (h : s.joined jobs = [job]) :
    job ∈ jobs ∧ (s.systems job).length ≤ 1 := by
  cases jobs with
  | nil => simp [joined] at h
  | cons first rest =>
    have hlen := congrArg List.length h
    simp only [joined, List.flatMap_cons, List.length_append, List.length_replicate, List.length_singleton] at hlen
    have hmem : job ∈ s.joined (first :: rest) := by rw [h]; exact List.mem_singleton_self job
    have hfirst : first ∈ s.joined (first :: rest) := by
      refine List.mem_flatMap.mpr ⟨first, List.mem_cons_self, List.mem_replicate.mpr ⟨?_, rfl⟩⟩
      omega
    rw [h, List.mem_singleton] at hfirst
    subst hfirst
    exact ⟨List.mem_cons_self, by omega⟩

theorem onlyJob_eq_some {jobs : List Job} (h : onlyJob (s.joined jobs) = .ok (some job)) :
    job ∈ jobs ∧ (s.systems job).length ≤ 1 := by
  refine joined_eq_singleton ?_
  rcases hjobs : s.joined jobs with _ | ⟨first, _ | ⟨second, rest⟩⟩
  · simp [hjobs, onlyJob] at h
  · simpa [hjobs, onlyJob] using h
  · simp [hjobs, onlyJob] at h

theorem jobWithRunId_eq_some {runId : Json} (h : s.jobWithRunId runId = .ok (some job)) :
    job ∈ s.jobs ∧ (s.systems job).length ≤ 1 ∧ uuidOf runId = .ok job.runId := by
  have hget : ∃ u, uuidOf runId = .ok u ∧
      onlyJob (s.joined (s.jobs.rows.filter fun job => job.runId = u)) = .ok (some job) := by
    cases runId with
    | null => cases h
    | _ => exact bind_eq_ok.mp h
  obtain ⟨u, hu, honly⟩ := hget
  obtain ⟨hmem, hsys⟩ := onlyJob_eq_some honly
  obtain ⟨hjob, hrun⟩ := List.mem_filter.mp hmem
  exact ⟨hjob, hsys, by rw [hu, of_decide_eq_true hrun]⟩

theorem jobWithRunId_congr {s' : State} (h : Quiet s s') (runId : Json) :
    s'.jobWithRunId runId = s.jobWithRunId runId := by
  have hjoined : ∀ jobs, s'.joined jobs = s.joined jobs := fun jobs => by
    simp only [joined, systems, h.inventory]
  unfold jobWithRunId
  simp only [hjoined, h.jobs]

end State

variable (lib : TaskLibrary)

/-- The status stored with what was parsed; `none` when storing it raises. -/
def Parsed.status? (parsed : Parsed) : Option JobStatus :=
  if parsed.line.length ≤ 255 then
    match parsed.outcome with
    | .ok (status, results) => if jsonStorable results then some status else none
    | .error _ => none
  else none

def statusFrom (type : TaskType) (stdout : Json) : Option JobStatus :=
  if '\x00' ∈ (stdoutText lib stdout).toList then none
  else match parsedStdout lib type stdout with
    | .error _ => none
    | .ok parsed => parsed.status?

def fetchedStdout (fetch : Fetch) (job : Job) : Option Json :=
  match fetch with
  | .unconfigured => none
  | .response statusCode body =>
    match stdoutOf job.runId.toText statusCode body with
    | .ok (.inr stdout) => some stdout
    | _ => none

/-- The status that the output of a run which has ended leaves its job with, if it does. -/
def outputStatus (fetch : Fetch) (job : Job) : Option JobStatus :=
  if job.status = .running then none
  else (fetchedStdout fetch job).bind fun stdout => if stdout.truthy then statusFrom lib .ansible stdout else none

variable {lib} {now : Instant}

theorem sourceLine_length (type : TaskType) :
    ("got stdout from " ++ type.source ++ " for this job").length ≤ 255 := by
  cases type <;> decide

/-- The job is written, with the status there is for it, or a run ends without a status. -/
structure Records (s s' : State) (job job' : Job) (left : Option JobStatus) (r : Except Exception Job) : Prop where
  writes : Writes s s' job'
  same : job.Same job'
  status : job'.status = left.getD job.status
  updatedOn : job'.updatedOn = job.updatedOn
  ok : left.isSome → r = .ok job'
  error : left = none → ∃ e, r = .error e

theorem Job.storable_iff {job : Job} :
    job.storable = true ↔ '\x00' ∉ job.stdout.toList ∧ jsonStorable job.results = true := by
  simp [Job.storable]

theorem record_cases {job : Job} (parsed : Parsed) {s : State} (hjob : job ∈ s.jobs) :
    ∃ r s' job', record job parsed s = (r, s') ∧ Records s s' job job' parsed.status? r := by
  have hstay : ∀ {s'}, Quiet s s' → parsed.status? = none →
      ∀ e, Records s s' job job parsed.status? (.error e) := by
    intro s' hq hnone e
    refine ⟨(Writes.refl hjob).quiet hq, ⟨rfl, rfl, rfl, rfl⟩, by rw [hnone]; rfl, rfl, ?_, fun _ => ⟨e, rfl⟩⟩
    intro h
    rw [hnone] at h
    cases h
  unfold record
  by_cases hline : parsed.line.length ≤ 255
  · obtain ⟨s₁, hs₁, hq₁⟩ := newLog_of_le job parsed.isOk s hline
    rw [bind_of_ok hs₁]
    rcases houtcome : parsed.outcome with e | ⟨status, results⟩
    · exact ⟨.error e, s₁, job, bind_of_error rfl,
        hstay hq₁ (by simp [Parsed.status?, houtcome]) e⟩
    · let job₁ : Job := { job with status, results }
      have htext := (Job.storable_iff.mp (s.storable job hjob)).1
      have houtcome' : (lift (.ok (status, results)) : Run (JobStatus × Json)) s₁ = (.ok (status, results), s₁) := rfl
      by_cases hresults : jsonStorable results = true
      · have hyes : job₁.storable := Job.storable_iff.mpr ⟨htext, hresults⟩
        have hstatus : parsed.status? = some status := by simp [Parsed.status?, hline, houtcome, hresults]
        refine ⟨.ok job₁, s₁.withJob job₁ hyes, job₁,
          (bind_of_ok houtcome').trans (bind_of_ok (save_of_storable hyes)), ?_⟩
        refine ⟨Writes.of_quiet hq₁ (.save hyes), ⟨rfl, rfl, rfl, rfl⟩, by rw [hstatus]; rfl, rfl, fun _ => rfl, ?_⟩
        intro h
        rw [hstatus] at h
        cases h
      · have hno : ¬ job₁.storable := fun h => hresults (Job.storable_iff.mp h).2
        obtain ⟨e, he⟩ := save_of_not_storable (s := s₁) hno
        exact ⟨.error e, s₁, job, (bind_of_ok houtcome').trans (bind_of_error he),
          hstay hq₁ (by simp [Parsed.status?, houtcome, hresults]) e⟩
  · exact ⟨.error .dataError, s, job, bind_of_error (newLog_of_lt hline),
      hstay (.refl s) (by simp [Parsed.status?, hline]) _⟩

variable (lib) in
theorem parseJsonFromStdout_cases {job : Job} (type : TaskType) (stdout : Json) {s : State} (hjob : job ∈ s.jobs) :
    ∃ r s' job', parseJsonFromStdout lib job stdout type s = (r, s') ∧
      Records s s' job job' (statusFrom lib type stdout) r := by
  have hresults := (Job.storable_iff.mp (s.storable job hjob)).2
  unfold parseJsonFromStdout
  generalize hwith : ({ job with stdout := stdoutText lib stdout } : Job) = job₁
  have hsame : job.Same job₁ := by subst hwith; exact ⟨rfl, rfl, rfl, rfl⟩
  have hstatus : job₁.status = job.status := by subst hwith; rfl
  have hupdated : job₁.updatedOn = job.updatedOn := by subst hwith; rfl
  by_cases hnul : '\x00' ∈ (stdoutText lib stdout).toList
  · have hno : ¬ job₁.storable := by
      subst hwith
      intro h
      exact (Job.storable_iff.mp h).1 hnul
    have hnone : statusFrom lib type stdout = none := by rw [statusFrom, if_pos hnul]
    obtain ⟨e, he⟩ := save_of_not_storable (s := s) hno
    refine ⟨_, s, job, bind_of_error he, .refl hjob, ⟨rfl, rfl, rfl, rfl⟩, by rw [hnone]; rfl, rfl, ?_, fun _ => ⟨e, rfl⟩⟩
    intro h
    rw [hnone] at h
    cases h
  · have hyes : job₁.storable := by subst hwith; exact Job.storable_iff.mpr ⟨hnul, hresults⟩
    obtain ⟨s₂, hs₂, hq₂⟩ := newLog_of_le job₁ true (s.withJob job₁ hyes) (sourceLine_length type)
    have hw₂ : Writes s s₂ job₁ := (Writes.save hyes).quiet hq₂
    have hfrom : statusFrom lib type stdout = match parsedStdout lib type stdout with
        | .error _ => none
        | .ok parsed => parsed.status? := by rw [statusFrom, if_neg hnul]
    rw [bind_of_ok (save_of_storable hyes), bind_of_ok hs₂, hfrom]
    cases hparsed : parsedStdout lib type stdout with
    | error e =>
      refine ⟨.error e, s₂, job₁, bind_of_error rfl, hw₂, hsame, hstatus, hupdated, ?_, fun _ => ⟨e, rfl⟩⟩
      intro h
      cases h
    | ok parsed =>
      obtain ⟨r, s₃, job₃, hr, hrecords⟩ := record_cases parsed hw₂.stored
      refine ⟨r, s₃, job₃, (bind_of_ok (a := parsed) rfl).trans hr, hw₂.trans hrecords.writes hrecords.same.id,
        hsame.trans hrecords.same, ?_, hrecords.updatedOn.trans hupdated, hrecords.ok, hrecords.error⟩
      rw [hrecords.status, hstatus]

theorem requestLine_length (job : Job) : (requestLine job).length ≤ 255 := by
  have hrun := job.runId.toText_length
  have h₁ : "Requesting data from Playbook Dispatcher for run ID ".length = 52 := rfl
  unfold requestLine
  rw [String.length_append, h₁, hrun]
  omega

theorem fetchPlaybookDispatcherStdout_cases (fetch : Fetch) (job : Job) (s : State) :
    ∃ r s', fetchPlaybookDispatcherStdout fetch job s = (r, s') ∧ Quiet s s' ∧
      (r = .ok (fetchedStdout fetch job) ∨ fetchedStdout fetch job = none ∧ ∃ e, r = .error e) := by
  cases fetch with
  | unconfigured => exact ⟨_, s, rfl, .refl s, Or.inl rfl⟩
  | response statusCode body =>
    obtain ⟨s₁, hs₁, hq₁⟩ := newLog_of_le job true s (requestLine_length job)
    unfold fetchPlaybookDispatcherStdout
    simp only [fetchedStdout]
    rw [bind_of_ok hs₁]
    rcases stdoutOf job.runId.toText statusCode body with e | line | stdout
    · exact ⟨.error e, s₁, bind_of_error rfl, hq₁, Or.inr ⟨rfl, e, rfl⟩⟩
    · obtain ⟨r, s₂, hs₂, hq₂⟩ := newLog_quiet job false line s₁
      cases r with
      | error e =>
        exact ⟨.error e, s₂, (bind_of_ok rfl).trans (bind_of_error hs₂), hq₁.trans hq₂, Or.inr ⟨rfl, e, rfl⟩⟩
      | ok _ => exact ⟨.ok none, s₂, (bind_of_ok rfl).trans (bind_of_ok hs₂), hq₁.trans hq₂, Or.inl rfl⟩
    · exact ⟨.ok (some stdout), s₁, bind_of_ok rfl, hq₁, Or.inl rfl⟩

variable (lib) in
theorem processOutput_writes {job : Job} (fetch : Fetch) {s : State} (hjob : job ∈ s.jobs) :
    ∃ r s' job', processOutput lib job job.status fetch s = (r, s') ∧ Writes s s' job' ∧ job.Same job' ∧
      job'.status = (outputStatus lib fetch job).getD job.status ∧ job'.updatedOn = job.updatedOn := by
  unfold processOutput outputStatus
  by_cases hrun : job.status = .running
  · rw [if_pos hrun, if_pos hrun]
    exact ⟨_, s, job, rfl, .refl hjob, ⟨rfl, rfl, rfl, rfl⟩, rfl, rfl⟩
  · rw [if_neg hrun, if_neg hrun]
    obtain ⟨r, s₁, hs₁, hq, hr⟩ := fetchPlaybookDispatcherStdout_cases fetch job s
    have hstay : Writes s s₁ job := (Writes.refl hjob).quiet hq
    rcases hr with rfl | ⟨hnone, e, rfl⟩
    · cases hfetched : fetchedStdout fetch job with
      | none =>
        rw [hfetched] at hs₁
        exact ⟨_, s₁, job, bind_of_ok hs₁, hstay, ⟨rfl, rfl, rfl, rfl⟩, rfl, rfl⟩
      | some stdout =>
        rw [hfetched] at hs₁
        by_cases htruthy : stdout.truthy = true
        · obtain ⟨r, s₂, job₂, hs₂, hrecords⟩ :=
            parseJsonFromStdout_cases lib .ansible stdout hstay.stored
          refine ⟨r.map fun _ => (), s₂, job₂, ?_, hstay.trans hrecords.writes hrecords.same.id, hrecords.same, ?_,
            hrecords.updatedOn⟩
          · refine (bind_of_ok hs₁).trans ?_
            simp only [if_pos htruthy]
            cases r with
            | error e => exact bind_of_error hs₂
            | ok job₂ => exact bind_of_ok hs₂
          · simpa only [Option.bind_some, if_pos htruthy] using hrecords.status
        · refine ⟨.ok (), s₁, job, (bind_of_ok hs₁).trans ?_, hstay, ⟨rfl, rfl, rfl, rfl⟩, ?_, rfl⟩
          · simp only [if_neg htruthy]
            rfl
          · simp only [Option.bind_some, if_neg htruthy, Option.getD_none]
    · exact ⟨_, s₁, job, bind_of_error hs₁, hstay, ⟨rfl, rfl, rfl, rfl⟩, by rw [hnone]; rfl, rfl⟩

variable (lib) in
def State.update? (s : State) (message : Json) : Option (Job × JobStatus × Json) :=
  match readUpdate message with
  | .ok (some (runId, status, updatedOn)) =>
    match s.jobWithRunId runId with
    | .ok (some job) =>
      match namedStatus lib job status with
      | .ok status => some (job, status, updatedOn)
      | .error _ => none
    | _ => none
  | _ => none

theorem State.update?_mem {s : State} {message updatedOn : Json} {job : Job} {status : JobStatus}
    (h : s.update? lib message = some (job, status, updatedOn)) :
    job ∈ s.jobs := by
  unfold State.update? at h
  split at h
  · split at h
    · rename_i hget
      split at h
      · obtain ⟨rfl, -⟩ := Prod.mk.inj (Option.some.inj h)
        exact (State.jobWithRunId_eq_some hget).1
      · cases h
    · cases h
  · cases h

def State.upload? (s : State) (message : Json) (upload : Option Json) : Option (Job × Json) :=
  match timestampOf message, uploadOf message upload with
  | .ok _, .ok (runId, stdout) =>
    match s.jobWithRunId runId with
    | .ok (some job) => some (job, stdout)
    | _ => none
  | _, _ => none

theorem State.upload?_mem {s : State} {message stdout : Json} {upload : Option Json} {job : Job}
    (h : s.upload? message upload = some (job, stdout)) : job ∈ s.jobs := by
  unfold State.upload? at h
  split at h
  · split at h
    · rename_i hget
      obtain ⟨rfl, -⟩ := Prod.mk.inj (Option.some.inj h)
      exact (State.jobWithRunId_eq_some hget).1
    · cases h
  · cases h

variable (lib now) in
/-- What an update does once the row of its job is `job'`. -/
inductive AnsibleEffect (s : State) (fetch : Fetch) (job' : Job) : State → Prop
  | unannounced {s'} : s.room job' = false → Writes s s' job' → AnsibleEffect s fetch job' s'
  | orphan {s'} : s.executedTasks.get? job'.executedTask = none → Aggregated now s s' job' →
      AnsibleEffect s fetch job' s'
  | done {s₁ s' job''} : s.room job' = true → Aggregated now s s₁ job' → Writes s₁ s' job'' → job'.Same job'' →
      job''.status = (outputStatus lib fetch job').getD job'.status → job''.updatedOn = job'.updatedOn →
      AnsibleEffect s fetch job' s'

variable (lib now) in
inductive ScriptEffect (s : State) (job : Job) (stdout : Json) : State → Prop
  | unparsed {s' job'} : statusFrom lib .script stdout = none → Writes s s' job' → job.Same job' →
      job'.status = job.status → ScriptEffect s job stdout s'
  | unannounced {s' job'} : statusFrom lib .script stdout = some job'.status → s.room job' = false →
      Writes s s' job' → job.Same job' → ScriptEffect s job stdout s'
  | aggregated {s' job'} : statusFrom lib .script stdout = some job'.status →
      (s.room job' = true ∨ s.executedTasks.get? job'.executedTask = none) → Aggregated now s s' job' →
      job.Same job' → ScriptEffect s job stdout s'

variable (lib now) in
theorem handleAnsibleJobUpdates_cases (message : Json) (fetch : Fetch) (s : State) :
    ((handleAnsibleJobUpdates lib now message fetch s).2 = s ∧
      ∀ job status updatedOn, s.update? lib message = some (job, status, updatedOn) →
        job.status ≠ status ∧ ∃ e, parseDatetime lib.django updatedOn = .error e) ∨
      ∃ job status updatedOn t, s.update? lib message = some (job, status, updatedOn) ∧
        (job.status ≠ status → parseDatetime lib.django updatedOn = .ok t) ∧
        AnsibleEffect lib now s fetch (job.withStatus now status t)
          (handleAnsibleJobUpdates lib now message fetch s).2 := by
  unfold handleAnsibleJobUpdates State.update?
  rcases readUpdate message with e | _ | ⟨runId, name, updatedOn⟩
  · exact Or.inl ⟨rfl, by simp⟩
  · exact Or.inl ⟨rfl, by simp⟩
  simp only [lift_ok_bind, read_bind]
  cases hget : s.jobWithRunId runId with
  | error e => exact Or.inl ⟨rfl, by simp⟩
  | ok found =>
    cases found with
    | none => exact Or.inl ⟨rfl, by simp⟩
    | some job =>
      simp only [lift_ok_bind]
      cases namedStatus lib job name with
      | error e => exact Or.inl ⟨rfl, by simp⟩
      | ok status =>
        obtain ⟨hjob, hsys, -⟩ := State.jobWithRunId_eq_some hget
        simp only [lift_ok_bind]
        rcases updateJobStatus_cases now lib status updatedOn hjob hsys with
          ⟨e, he, hne, hparse⟩ | ⟨t, r, s₁, ht, hs₁, hupdated⟩
        · refine Or.inl ⟨by rw [bind_of_error he], ?_⟩
          intro job' status' updatedOn' heq
          obtain ⟨rfl, rfl, rfl⟩ : job = job' ∧ status = status' ∧ updatedOn = updatedOn' := by simpa using heq
          exact ⟨hne, e, hparse⟩
        refine Or.inr ⟨job, status, updatedOn, t, rfl, ht, ?_⟩
        have hstatus := job.withStatus_status now status t
        generalize job.withStatus now status t = job' at hupdated hstatus ⊢
        cases hupdated with
        | unannounced hroom hw =>
          rw [bind_of_error hs₁]
          exact .unannounced hroom hw
        | orphan hnone hagg =>
          rw [bind_of_error hs₁]
          exact .orphan hnone hagg
        | done hroom hagg =>
          have hstored : job' ∈ s₁.jobs := (hagg.jobs job').mpr (Or.inl rfl)
          obtain ⟨r, s₂, job'', hs₂, hw, hsame, hout, htime⟩ := processOutput_writes lib fetch hstored
          rw [bind_of_ok hs₁, ← hstatus, hs₂]
          exact .done hroom hagg hw hsame hout htime

theorem trackUpload_cases (message : Json) (s : State) :
    (∃ e, trackUpload message s = (.error e, s) ∧ timestampOf message = .error e) ∨
      ∃ s' t, trackUpload message s = (.ok (), s') ∧ Quiet s s' ∧ timestampOf message = .ok t := by
  unfold trackUpload
  cases timestampOf message with
  | error e => exact Or.inl ⟨e, rfl, rfl⟩
  | ok t => exact Or.inr ⟨_, t, rfl, ⟨rfl, rfl, rfl, rfl, fun _ => rfl⟩, rfl⟩

variable (lib now) in
theorem handleScriptJobUpdates_cases (message : Json) (upload : Option Json) (s : State) :
    Quiet s (handleScriptJobUpdates lib now message upload s).2 ∧ s.upload? message upload = none ∨
      ∃ job stdout, s.upload? message upload = some (job, stdout) ∧
        ScriptEffect lib now s job stdout (handleScriptJobUpdates lib now message upload s).2 := by
  unfold handleScriptJobUpdates State.upload?
  rcases trackUpload_cases message s with ⟨e, he, ht⟩ | ⟨s₁, t, hs₁, hq, ht⟩
  · rw [bind_of_error he, ht]
    exact Or.inl ⟨.refl s, rfl⟩
  rw [bind_of_ok hs₁, ht]
  rcases uploadOf message upload with e | ⟨runId, stdout⟩
  · exact Or.inl ⟨hq, rfl⟩
  simp only [lift_ok_bind, read_bind, State.jobWithRunId_congr hq]
  cases hget : s.jobWithRunId runId with
  | error e => exact Or.inl ⟨hq, rfl⟩
  | ok found =>
    cases found with
    | none => exact Or.inl ⟨hq, rfl⟩
    | some job =>
      obtain ⟨hjob, hsys, -⟩ := State.jobWithRunId_eq_some hget
      refine Or.inr ⟨job, stdout, rfl, ?_⟩
      have hstored : job ∈ s₁.jobs := by rwa [hq.jobs]
      simp only [lift_ok_bind]
      obtain ⟨r, s₂, job₂, hs₂, hrecords⟩ :=
        parseJsonFromStdout_cases lib .script stdout hstored
      have hw : Writes s s₂ job₂ := .of_quiet hq hrecords.writes
      cases hfrom : statusFrom lib .script stdout with
      | none =>
        obtain ⟨e, rfl⟩ := hrecords.error hfrom
        have hstatus := hrecords.status
        rw [hfrom] at hstatus
        rw [bind_of_error hs₂]
        exact .unparsed hfrom hw hrecords.same hstatus
      | some status =>
        have hstatus : job₂.status = status := by
          rw [hrecords.status, hfrom]
          rfl
        have hok := hrecords.ok (by rw [hfrom]; rfl)
        subst hok
        have hsys₂ : (s₂.systems job₂).length ≤ 1 := by
          have heq : s₂.systems job₂ = s.systems job := by
            simp only [State.systems, hw.inventory, hrecords.same.systemId]
          rwa [heq]
        rw [bind_of_ok hs₂]
        rcases updateJobStatus_cases now lib job₂.status .null
          hrecords.writes.stored hsys₂ with ⟨e, _, hne, -⟩ | ⟨t, r, s₃, _, hs₃, hupdated⟩
        · exact absurd rfl hne
        have hset : job₂.withStatus now job₂.status t = job₂ := by rw [Job.withStatus, if_pos rfl]
        rw [hset] at hupdated
        have hfrom' : statusFrom lib .script stdout = some job₂.status := by rw [hfrom, hstatus]
        cases hupdated with
        | unannounced hroom hw₃ =>
          rw [bind_of_error hs₃]
          refine .unannounced hfrom' ?_ (hw.trans hw₃ rfl) hrecords.same
          rw [← State.room_congr hw.inventory]
          exact hroom
        | orphan hnone hagg =>
          rw [bind_of_error hs₃]
          rw [hw.executedTasks] at hnone
          exact .aggregated hfrom' (Or.inr hnone) (.of_writes hw rfl hagg) hrecords.same
        | done hroom hagg =>
          rw [bind_of_ok hs₃]
          rw [State.room_congr hw.inventory] at hroom
          exact .aggregated hfrom' (Or.inl hroom) (.of_writes hw rfl hagg) hrecords.same

end Advisor.Tasks
