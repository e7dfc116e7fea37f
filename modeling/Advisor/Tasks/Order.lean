import Advisor.Tasks.Aggregate

/-! The order in which the updates of a run arrive: each replaces the status the one before left,
and the time goes with the status. -/

namespace Advisor.Tasks

open Python Procedure Django Relational

variable (lib : TaskLibrary)

/-- A playbook-dispatcher update of a run, without an output to read. -/
structure RunUpdate (runId : Uuid) where
  message : Json
  status : JobStatus
  time : Instant
  fetch : Fetch
  now : Instant
  reads : ∃ id name updatedOn, readUpdate message = .ok (some (.str id, .str name, updatedOn)) ∧
    Uuid.ofText id = some runId ∧ JobStatus.ofName? (lib.upper name) = some status ∧
    parseDatetime lib.django updatedOn = .ok (some time)
  silent : ∀ job, outputStatus lib fetch job = none

def deliver {runId : Uuid} (s : State) (updates : List (RunUpdate lib runId)) : State :=
  updates.foldl (fun s update => (handleAnsibleJobUpdates lib update.now update.message update.fetch s).2) s

variable {lib} {runId : Uuid} {s s' : State} {job : Job}

/-- The job of a run: `Job.objects.get` finds it. -/
structure State.Runs (s : State) (job : Job) : Prop where
  stored : job ∈ s.jobs
  alone : ∀ row ∈ s.jobs, row.runId = job.runId → row = job
  systems : (s.systems job).length ≤ 1

theorem State.Runs.found (h : s.Runs job) {id : String} (hid : Uuid.ofText id = some job.runId) :
    s.jobWithRunId (.str id) = .ok (some job) := by
  have hfilter : s.jobs.rows.filter (fun row => row.runId = job.runId) = [job] := by
    have hnodup : (s.jobs.rows.filter fun row => row.runId = job.runId).Nodup :=
      (List.Nodup.of_map _ s.jobs.unique).filter _
    refine List.perm_singleton.mp ((List.perm_ext_iff_of_nodup hnodup (List.nodup_singleton job)).mpr fun row => ?_)
    simp only [List.mem_filter, decide_eq_true_eq, List.mem_singleton]
    constructor
    · intro hrow
      exact h.alone row hrow.1 hrow.2
    · intro hrow
      subst hrow
      exact ⟨h.stored, rfl⟩
  have hjoined : s.joined [job] = [job] := by
    have hone : max 1 (s.systems job).length = 1 := by
      have := h.systems
      omega
    simp [State.joined, hone]
  have hu : uuidOf (.str id) = .ok job.runId := by simp [uuidOf, hid]
  change (uuidOf (.str id) >>= fun u => onlyJob (s.joined (s.jobs.rows.filter fun row => row.runId = u))) =
    .ok (some job)
  rw [hu]
  change onlyJob (s.joined (s.jobs.rows.filter fun row => row.runId = job.runId)) = .ok (some job)
  rw [hfilter, hjoined]
  rfl

theorem Replaces.runs {job' : Job} (h : Replaces s s' job') (hinv : s'.inventory = s.inventory) (hruns : s.Runs job)
    (hsame : job.Same job') : s'.Runs job' := by
  refine ⟨(h job').mpr (Or.inl rfl), ?_, ?_⟩
  · intro row hrow hrun
    rcases (h row).mp hrow with hrow | ⟨hrow, hne⟩
    · exact hrow
    · have heq := hruns.alone row hrow (hrun.trans hsame.runId)
      exact absurd (by rw [heq, hsame.id]) hne
  · have heq : s'.systems job' = s.systems job := by
      simp only [State.systems, hinv, hsame.systemId]
    rw [heq]
    exact hruns.systems

theorem handleAnsible_status (update : RunUpdate lib job.runId) (h : s.Runs job) :
    ∃ job', (handleAnsibleJobUpdates lib update.now update.message update.fetch s).2.Runs job' ∧ job.Same job' ∧
      job'.status = update.status ∧
      job'.updatedOn = if job.status = update.status then job.updatedOn else update.time := by
  obtain ⟨id, name, updatedOn, hread, hid, hname, htime⟩ := update.reads
  have hupdate : s.update? lib update.message = some (job, update.status, updatedOn) := by
    simp only [State.update?, hread, h.found hid, namedStatus, hname]
  rcases handleAnsibleJobUpdates_cases lib update.now update.message update.fetch s with
    ⟨-, hrefused⟩ | ⟨job₁, status, updatedOn₁, t, hupdate₁, ht, heffect⟩
  · obtain ⟨-, e, he⟩ := hrefused job update.status updatedOn hupdate
    rw [htime] at he
    cases he
  obtain ⟨rfl, rfl, rfl⟩ : job = job₁ ∧ update.status = status ∧ updatedOn = updatedOn₁ := by
    simpa [hupdate] using hupdate₁
  have hsame := job.withStatus_same update.now update.status t
  have hstatus := job.withStatus_status update.now update.status t
  have hset : (job.withStatus update.now update.status t).updatedOn =
      if job.status = update.status then job.updatedOn else update.time := by
    unfold Job.withStatus
    by_cases heq : job.status = update.status
    · rw [if_pos heq, if_pos heq]
    · have hread := ht heq
      rw [htime] at hread
      obtain rfl := Except.ok.inj hread
      rw [if_neg heq, if_neg heq]
      rfl
  generalize job.withStatus update.now update.status t = job' at heffect hsame hstatus hset
  cases heffect with
  | unannounced _ hw => exact ⟨job', hw.jobs.runs hw.inventory h hsame, hsame, hstatus, hset⟩
  | orphan _ hagg => exact ⟨job', hagg.jobs.runs hagg.inventory h hsame, hsame, hstatus, hset⟩
  | done hroom hagg hw hsame' hout htime' =>
    rename_i s₁ job''
    have hruns := hagg.jobs.runs hagg.inventory h hsame
    rw [update.silent job'] at hout
    exact ⟨job'', hw.jobs.runs hw.inventory hruns hsame', hsame.trans hsame', hout.trans hstatus, htime'.trans hset⟩

def followed {runId : Uuid} (start : JobStatus × Instant) (updates : List (RunUpdate lib runId)) : JobStatus × Instant :=
  updates.foldl (fun at_ update => if at_.1 = update.status then at_ else (update.status, update.time)) start

theorem deliver_followed (updates : List (RunUpdate lib job.runId)) (h : s.Runs job) :
    ∃ job', (deliver lib s updates).Runs job' ∧ job.Same job' ∧
      (job'.status, job'.updatedOn) = followed (job.status, job.updatedOn) updates := by
  have hgen : ∀ (runId : Uuid) (updates : List (RunUpdate lib runId)) (s : State) (job : Job), job.runId = runId →
      s.Runs job → ∃ job', (deliver lib s updates).Runs job' ∧ job.Same job' ∧
        (job'.status, job'.updatedOn) = followed (job.status, job.updatedOn) updates := by
    intro runId updates
    induction updates with
    | nil => exact fun s job _ h => ⟨job, h, ⟨rfl, rfl, rfl, rfl⟩, rfl⟩
    | cons update rest ih =>
      intro s job hrun h
      subst hrun
      obtain ⟨job₁, h₁, hsame₁, hstatus, htime⟩ := handleAnsible_status update h
      obtain ⟨job', h', hsame', hlast⟩ := ih _ job₁ hsame₁.runId h₁
      refine ⟨job', h', hsame₁.trans hsame', hlast.trans ?_⟩
      rw [followed, followed, List.foldl_cons, hstatus, htime]
      by_cases heq : job.status = update.status
      · simp only [heq, if_true]
      · simp only [heq, if_false]
  exact hgen job.runId updates s job rfl h

theorem followed_append (start : JobStatus × Instant) (before : List (RunUpdate lib runId))
    (update : RunUpdate lib runId) : followed start (before ++ [update]) =
      if (followed start before).1 = update.status then followed start before else (update.status, update.time) := by
  rw [followed, List.foldl_append]
  rfl

theorem followed_status (start : JobStatus × Instant) (before : List (RunUpdate lib runId))
    (update : RunUpdate lib runId) : (followed start (before ++ [update])).1 = update.status := by
  rw [followed_append]
  split_ifs with h
  · exact h
  · rfl

theorem followed_time_mem (start : JobStatus × Instant) (updates : List (RunUpdate lib runId)) :
    (followed start updates).2 = start.2 ∨ ∃ update ∈ updates, (followed start updates).2 = update.time := by
  induction updates using List.reverseRecOn with
  | nil => exact Or.inl rfl
  | append_singleton before update ih =>
    rw [followed_append]
    split_ifs
    · rcases ih with ih | ⟨u, hu, ih⟩
      · exact Or.inl ih
      · exact Or.inr ⟨u, by simp [hu], ih⟩
    · exact Or.inr ⟨update, by simp, rfl⟩

/-- In order, the time a job has is no later than that of any update still to come. -/
theorem followed_time_le {start : JobStatus × Instant} {before : List (RunUpdate lib runId)}
    {update : RunUpdate lib runId} (hstart : start.2 ≤ update.time)
    (horder : ∀ earlier ∈ before, earlier.time ≤ update.time) : (followed start before).2 ≤ update.time := by
  rcases followed_time_mem start before with h | ⟨earlier, hm, h⟩
  · rw [h]
    exact hstart
  · rw [h]
    exact horder earlier hm

theorem followed_time_mono {start : JobStatus × Instant} {before after : List (RunUpdate lib runId)}
    (hstart : ∀ update ∈ after, start.2 ≤ update.time)
    (horder : (before ++ after).Pairwise fun a b => a.time ≤ b.time) :
    (followed start before).2 ≤ (followed start (before ++ after)).2 := by
  induction after using List.reverseRecOn with
  | nil => rw [List.append_nil]
  | append_singleton rest update ih =>
    rw [← List.append_assoc] at horder ⊢
    obtain ⟨hrest, -, hlast⟩ := List.pairwise_append.mp horder
    rw [followed_append]
    split_ifs
    · exact ih (fun u hu => hstart u (by simp [hu])) hrest
    · exact followed_time_le (hstart update (by simp))
        fun earlier hm => hlast earlier (List.mem_append_left _ hm) update (by simp)

/-- The last delivered update decides; delivered in order, time never goes back. -/
theorem delivered_last (before after : List (RunUpdate lib job.runId)) (update : RunUpdate lib job.runId)
    (h : s.Runs job) :
    ∃ job₁ job₂, (deliver lib s before).Runs job₁ ∧ (deliver lib s (before ++ update :: after)).Runs job₂ ∧
      job₁.id = job.id ∧ job₂.id = job.id ∧ job₂.status = ((update :: after).getLast (List.cons_ne_nil _ _)).status ∧
      ((∀ u ∈ before ++ update :: after, job.updatedOn ≤ u.time) →
        (before ++ update :: after).Pairwise (fun a b => a.time ≤ b.time) →
          job₁.updatedOn ≤ job₂.updatedOn ∧ job₁.updatedOn ≤ update.time ∧
            ∀ u ∈ before ++ update :: after, u.time ≤ ((update :: after).getLast (List.cons_ne_nil _ _)).time) := by
  have hne : update :: after ≠ [] := List.cons_ne_nil update after
  obtain ⟨job₁, hruns₁, hsame₁, hlast₁⟩ := deliver_followed before h
  obtain ⟨job₂, hruns₂, hsame₂, hlast₂⟩ := deliver_followed (before ++ update :: after) h
  have htime₁ : job₁.updatedOn = (followed (job.status, job.updatedOn) before).2 := congrArg Prod.snd hlast₁
  have hstatus₂ : job₂.status = (followed (job.status, job.updatedOn) (before ++ update :: after)).1 :=
    congrArg Prod.fst hlast₂
  have htime₂ : job₂.updatedOn = (followed (job.status, job.updatedOn) (before ++ update :: after)).2 :=
    congrArg Prod.snd hlast₂
  have hsplit : before ++ update :: after =
      (before ++ (update :: after).dropLast) ++ [(update :: after).getLast hne] := by
    rw [List.append_assoc, List.dropLast_append_getLast]
  refine ⟨job₁, job₂, hruns₁, hruns₂, hsame₁.id, hsame₂.id, ?_, ?_⟩
  · rw [hstatus₂, hsplit, followed_status]
  · intro hstart horder
    refine ⟨?_, ?_, ?_⟩
    · rw [htime₁, htime₂]
      exact followed_time_mono (fun u hu => hstart u (List.mem_append_right _ hu)) horder
    · rw [htime₁]
      obtain ⟨-, -, hcross⟩ := List.pairwise_append.mp horder
      exact followed_time_le (hstart update (by simp)) fun earlier hm => hcross earlier hm update (by simp)
    · intro u hu
      rw [hsplit] at hu horder
      obtain ⟨-, -, hcross⟩ := List.pairwise_append.mp horder
      rcases List.mem_append.mp hu with hu | hu
      · exact hcross u hu _ (by simp)
      · rw [List.mem_singleton.mp hu]

def runningAtTen : RunUpdate sampleLibrary (sampleJob 1 .running).runId where
  message := sampleUpdate "running" "2024-05-01T10:00:00+00:00"
  status := .running
  time := 1714557600000000
  fetch := .unconfigured
  now := 0
  reads := ⟨_, _, _, rfl, by decide +kernel, by decide +kernel, by decide +kernel⟩
  silent job := by simp [outputStatus, fetchedStdout]

def successAtEleven : RunUpdate sampleLibrary (sampleJob 1 .running).runId where
  message := sampleUpdate "success" "2024-05-01T11:00:00+00:00"
  status := .success
  time := 1714561200000000
  fetch := .unconfigured
  now := 0
  reads := ⟨_, _, _, rfl, by decide +kernel, by decide +kernel, by decide +kernel⟩
  silent job := by simp [outputStatus, fetchedStdout]

theorem sampleState_runs : sampleState.Runs (sampleJob 1 .running) := by
  refine ⟨Table.mem_single.mpr rfl, ?_, by decide⟩
  intro row hrow _
  exact Table.mem_single.mp hrow

theorem delivered_last_in_order :
    ∃ job', (deliver sampleLibrary sampleState [runningAtTen, successAtEleven]).Runs job' ∧ job'.status = .success := by
  obtain ⟨_, job', -, hruns, -, -, hstatus, -⟩ :=
    delivered_last [runningAtTen] [] successAtEleven sampleState_runs
  exact ⟨job', hruns, hstatus⟩

/-- The update that the run started arrives after the one that it succeeded. -/
theorem delivered_out_of_order :
    runningAtTen.time < successAtEleven.time ∧
      (∃ job', (deliver sampleLibrary sampleState [successAtEleven]).Runs job' ∧
        job'.status = .success ∧ job'.updatedOn = successAtEleven.time) ∧
      ∃ job', (deliver sampleLibrary sampleState [successAtEleven, runningAtTen]).Runs job' ∧
        job'.status = .running ∧ job'.updatedOn = runningAtTen.time := by
  obtain ⟨job₁, hruns₁, -, hlast₁⟩ := deliver_followed [successAtEleven] sampleState_runs
  obtain ⟨job₂, hruns₂, -, hlast₂⟩ := deliver_followed [successAtEleven, runningAtTen] sampleState_runs
  exact ⟨by decide, ⟨job₁, hruns₁, congrArg Prod.fst hlast₁, congrArg Prod.snd hlast₁⟩,
    job₂, hruns₂, congrArg Prod.fst hlast₂, congrArg Prod.snd hlast₂⟩

end Advisor.Tasks
