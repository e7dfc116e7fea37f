import Advisor.Tasks.StartUp

/-! Which reports about the runs of a request are lost while it starts: those that come before the commit
find no job. -/

namespace Advisor.Tasks

open Python Procedure Django Relational

variable {lib : TaskLibrary} {execution : Execution} {s : State} {w : World}

/-- What the tasks service does with the reports, seen at the end. -/
structure NothingLost (execution : Execution) (w : World) (labels : List (Label lib)) : Prop where
  found : ∀ before report after, labels = before ++ .report report :: after →
    ∃ job ∈ (w.run execution before).visible.jobs, job.runId = report.runId
  reflected : ∀ before report after, labels = before ++ .report report :: after →
    (∀ later, .report later ∈ after → later.runId ≠ report.runId) →
      ∃ job ∈ (w.run execution labels).visible.jobs, job.runId = report.runId ∧ report.Reflected job

/-- No report comes before the commit, and a job that is not running at the end is of a host with one row. -/
structure Unhurried (execution : Execution) (w : World) (labels : List (Label lib)) : Prop where
  committed : ∀ before report after, labels = before ++ .report report :: after → ∃ now, .commit now ∈ before
  alone : ∀ before report after, labels = before ++ .report report :: after →
    (∀ later, .report later ∈ after → later.runId ≠ report.runId) →
      report.status = .running ∨ ∀ made ∈ execution.hosts.zip (w.run execution labels).runsCreated,
        made.2.id = some report.runId →
          (w.visible.inventory.rows.filter fun row => row.inventoryId = made.1.inventoryId).length ≤ 1

theorem run_concat (labels : List (Label lib)) (label : Label lib) :
    w.run execution (labels ++ [label]) = (w.run execution labels).step execution label := by
  rw [World.run, World.run, List.foldl_append]
  rfl

theorem run_append (labels more : List (Label lib)) :
    w.run execution (labels ++ more) = (w.run execution labels).run execution more := by
  rw [World.run, World.run, List.foldl_append]
  rfl

theorem World.Allowed.left {labels more : List (Label lib)} (h : w.Allowed execution (labels ++ more)) :
    w.Allowed execution labels := by
  intro before label after heq
  refine h before label (after ++ more) ?_
  rw [heq, List.append_assoc, List.cons_append]

theorem World.Allowed.last {labels : List (Label lib)} {label : Label lib} (h : w.Allowed execution (labels ++ [label])) :
    (w.run execution labels).Enabled execution label := h labels label [] rfl

theorem dispatch_phase (w : World) (answer : Answer) :
    (w.dispatch execution answer).phase = w.phase ∨ (w.dispatch execution answer).phase = .failed := by
  unfold World.dispatch
  split
  · exact Or.inl rfl
  · split
    · exact Or.inl rfl
    · exact Or.inr rfl

theorem commit_phase (w : World) (now : Instant) :
    (w.commit execution now).phase = .committed ∨ (w.commit execution now).phase = .failed := by
  unfold World.commit
  split_ifs
  · split
    · exact Or.inl rfl
    · exact Or.inr rfl
  · exact Or.inr rfl

theorem step_phase {label : Label lib} (h : (w.step execution label).phase = .dispatching) :
    w.phase = .dispatching ∧ ∀ now, label ≠ .commit now := by
  cases label with
  | dispatch answer =>
    refine ⟨?_, fun _ hne => by cases hne⟩
    rcases dispatch_phase w answer with hphase | hphase
    · exact hphase.symm.trans h
    · exact absurd (hphase.symm.trans h) (by decide)
  | commit now =>
    rcases commit_phase w now with hphase | hphase
    · exact absurd (hphase.symm.trans h) (by decide)
    · exact absurd (hphase.symm.trans h) (by decide)
  | report report => exact ⟨h, fun _ hne => by cases hne⟩

theorem phase_of_append {labels more : List (Label lib)}
    (h : (w.run execution (labels ++ more)).phase = .dispatching) : (w.run execution labels).phase = .dispatching := by
  induction more using List.reverseRecOn with
  | nil => rwa [List.append_nil] at h
  | append_singleton more label ih =>
    rw [← List.append_assoc, run_concat] at h
    exact ih (step_phase h).1

/-- Up to the commit the jobs are the old ones, and none of them is of a run of the request. -/
structure Dispatching (s : State) (w : World) : Prop where
  jobs : w.visible.jobs = s.jobs
  inventory : w.visible.inventory = s.inventory
  distinct : w.runIds.Nodup
  nonzero : 0 ∉ w.runIds
  unknown : ∀ job ∈ s.jobs, job.runId ∉ w.runIds

theorem Dispatching.dispatch (h : Dispatching s w) {answer : Answer} {w' : World}
    (hfresh : ∀ batch remaining, w.remaining = batch :: remaining → ∀ runs, execution.execute batch answer = .ok runs →
      w.Fresh runs) (hw : w.dispatch execution answer = w') : Dispatching s w' := by
  subst hw
  unfold World.dispatch
  split
  · exact h
  · rename_i batch remaining hremaining
    cases hexecute : execution.execute batch answer with
    | error e => exact ⟨h.jobs, h.inventory, h.distinct, h.nonzero, h.unknown⟩
    | ok runs =>
      obtain ⟨hnodup, hzero, hknown⟩ := hfresh batch remaining hremaining runs hexecute
      have hids : ∀ w' : World, w'.runsCreated = w.runsCreated ++ runs →
          w'.runIds = w.runIds ++ runs.filterMap (·.id) := by
        intro w' hruns
        rw [World.runIds, hruns, List.filterMap_append]
        rfl
      refine ⟨h.jobs, h.inventory, ?_, ?_, ?_⟩
      · rw [hids _ rfl]
        exact hnodup
      · rw [hids _ rfl, List.mem_append]
        exact not_or.mpr ⟨h.nonzero, hzero⟩
      · intro job hjob
        rw [hids _ rfl, List.mem_append]
        exact not_or.mpr ⟨h.unknown job hjob, hknown job (by rwa [h.jobs])⟩

theorem Dispatching.report (h : Dispatching s w) {report : Report lib} (hrun : report.runId ∈ w.runIds) :
    Dispatching s (w.step execution (.report report)) := by
  have hnone : ∀ job ∈ w.visible.jobs, job.runId = report.runId → ¬ (w.visible.systems job).length ≤ 1 := by
    intro job hjob hid
    rw [h.jobs] at hjob
    exact absurd (hid ▸ hrun) (h.unknown job hjob)
  obtain ⟨hjobs, hinventory⟩ := report.handle_unfound hnone
  exact ⟨hjobs.trans h.jobs, hinventory.trans h.inventory, h.distinct, h.nonzero, h.unknown⟩

theorem dispatching_run {labels : List (Label lib)} (hw : Dispatching s w) (hallowed : w.Allowed execution labels)
    (hphase : (w.run execution labels).phase = .dispatching) : Dispatching s (w.run execution labels) := by
  induction labels using List.reverseRecOn with
  | nil => exact hw
  | append_singleton labels label ih =>
    rw [run_concat] at hphase ⊢
    obtain ⟨hbefore, hnot⟩ := step_phase hphase
    have h := ih hallowed.left hbefore
    have henabled := hallowed.last
    cases label with
    | dispatch answer =>
      obtain ⟨-, batch, remaining, hremaining, hfresh⟩ := henabled
      refine h.dispatch (fun batch' remaining' heq => ?_) rfl
      rw [hremaining, List.cons.injEq] at heq
      obtain ⟨rfl, rfl⟩ := heq
      exact hfresh
    | commit now => exact absurd rfl (hnot now)
    | report report => exact h.report henabled

theorem commit_split {labels : List (Label lib)} (hallowed : w.Allowed execution labels)
    (hstart : w.phase = .dispatching) (hphase : (w.run execution labels).phase = .committed) :
    ∃ before now, ∃ reports : List (Report lib), labels = before ++ .commit now :: reports.map Label.report ∧
      (w.run execution before).phase = .dispatching ∧
        ((w.run execution before).commit execution now).phase = .committed := by
  induction labels using List.reverseRecOn with
  | nil =>
    rw [show w.run execution [] = w from rfl, hstart] at hphase
    cases hphase
  | append_singleton labels label ih =>
    rw [run_concat] at hphase
    have henabled := hallowed.last
    cases label with
    | dispatch answer =>
      obtain ⟨hbefore, -⟩ := henabled
      rcases dispatch_phase (w.run execution labels) answer with hsame | hfailed
      · exact absurd (hbefore.symm.trans (hsame.symm.trans hphase)) (by decide)
      · exact absurd (hfailed.symm.trans hphase) (by decide)
    | commit now => exact ⟨labels, now, [], rfl, henabled.1, hphase⟩
    | report report =>
      obtain ⟨before, now, reports, rfl, hbefore, hcommit⟩ := ih hallowed.left hphase
      refine ⟨before, now, reports ++ [report], ?_, hbefore, hcommit⟩
      rw [List.append_assoc, List.cons_append, List.map_append]
      rfl

/-- The last report about a run, if there is one, is what the status of its job says. -/
def Latest (reports : List (Report lib)) (runId : Uuid) (job : Job) : Prop :=
  match (reports.filter fun report => report.runId = runId).getLast? with
  | none => job.status = .running
  | some report => report.Reflected job

theorem Latest.concat_same {reports : List (Report lib)} {report : Report lib} {job : Job}
    (h : report.Reflected job) : Latest (reports ++ [report]) report.runId job := by
  simpa [Latest, List.filter_append] using h

theorem latest_concat_ne {reports : List (Report lib)} {report : Report lib} {runId : Uuid} {job : Job}
    (h : report.runId ≠ runId) : Latest (reports ++ [report]) runId job ↔ Latest reports runId job := by
  simp [Latest, List.filter_append, h]

theorem Latest.last {before after : List (Report lib)} {report : Report lib} {job : Job}
    (h : Latest (before ++ report :: after) report.runId job) (hlast : ∀ later ∈ after, later.runId ≠ report.runId) :
    report.Reflected job := by
  have hnone : after.filter (fun later => later.runId = report.runId) = [] :=
    List.filter_eq_nil_iff.mpr fun later hlater => by simpa using hlast later hlater
  simpa [Latest, List.filter_append, List.filter_cons, hnone] using h

/-- The one job of a run, and how its status follows the reports about the run. -/
structure Follows (s : State) (host : DispatchHost) (runId : Uuid) (reports : List (Report lib)) (job : Job) : Prop where
  stored : job ∈ s.jobs
  alone : ∀ row ∈ s.jobs, row.runId = runId → row = job
  ofRun : job.runId = runId
  systemId : job.systemId = host.inventoryId
  status : if (s.systems job).length ≤ 1 then Latest reports runId job else job.status = .running

structure Following (execution : Execution) (s : State) (w : World) (reports : List (Report lib)) : Prop where
  inventory : w.visible.inventory = s.inventory
  length : w.runsCreated.length = execution.hosts.length
  follows : ∀ made ∈ execution.hosts.zip w.runsCreated, ∀ runId, made.2.id = some runId →
    ∃ job, Follows w.visible made.1 runId reports job

theorem Report.handle_cases (report : Report lib)
    (halone : ∀ a ∈ s.jobs, ∀ b ∈ s.jobs, a.runId = report.runId → b.runId = report.runId → a = b) :
    (∃ row, s.Runs row ∧ row.runId = report.runId) ∨
      ∀ row ∈ s.jobs, row.runId = report.runId → ¬ (s.systems row).length ≤ 1 := by
  by_cases hfound : ∃ row ∈ s.jobs, row.runId = report.runId ∧ (s.systems row).length ≤ 1
  · obtain ⟨row, hrow, hrun, hsystems⟩ := hfound
    exact Or.inl ⟨row, ⟨hrow, fun a ha hid => halone a ha row hrow (hid.trans hrun) hrun, hsystems⟩, hrun⟩
  · exact Or.inr fun row hrow hrun hsystems => hfound ⟨row, hrow, hrun, hsystems⟩

theorem Report.handle_inventory (report : Report lib)
    (halone : ∀ a ∈ s.jobs, ∀ b ∈ s.jobs, a.runId = report.runId → b.runId = report.runId → a = b) :
    (report.handle s).inventory = s.inventory := by
  rcases report.handle_cases halone with ⟨row, hruns, hrun⟩ | hnone
  · obtain ⟨-, -, hinventory, -⟩ := report.handle_found hruns hrun
    exact hinventory
  · exact (report.handle_unfound hnone).2

/-- A report moves the job of its run along, and leaves those of other runs alone. -/
theorem Follows.report {host : DispatchHost} {runId : Uuid} {reports : List (Report lib)} {job : Job}
    (h : Follows s host runId reports job) (report : Report lib)
    (halone : ∀ a ∈ s.jobs, ∀ b ∈ s.jobs, a.runId = report.runId → b.runId = report.runId → a = b) :
    ∃ job', Follows (report.handle s) host runId (reports ++ [report]) job' := by
  rcases report.handle_cases halone with ⟨row, hruns, hrun⟩ | hnone
  · have hrow := hruns.stored
    have hsystems := hruns.systems
    obtain ⟨row', hreplaces, hinventory, hsame, hreflected⟩ := report.handle_found hruns hrun
    have hsys : ∀ a b : Job, a.systemId = b.systemId → (report.handle s).systems b = s.systems a := by
      intro a b hab
      simp only [State.systems, hinventory, hab]
    by_cases hid : report.runId = runId
    · obtain rfl : row = job := h.alone row hrow (hrun.trans hid)
      refine ⟨row', (hreplaces row').mpr (Or.inl rfl), ?_, hsame.runId.trans h.ofRun, hsame.systemId.trans h.systemId, ?_⟩
      · intro a ha haid
        rcases (hreplaces a).mp ha with ha | ⟨ha, hne⟩
        · exact ha
        · exact absurd (by rw [h.alone a ha haid, hsame.id]) hne
      · rw [hsys row row' hsame.systemId.symm, if_pos hsystems, ← hid]
        exact Latest.concat_same hreflected
    · have hne : job.id ≠ row'.id := by
        intro heq
        rw [hsame.id] at heq
        obtain rfl := s.jobs.key_injOn h.stored hrow heq
        exact hid (hrun.symm.trans h.ofRun)
      refine ⟨job, (hreplaces job).mpr (Or.inr ⟨h.stored, hne⟩), ?_, h.ofRun, h.systemId, ?_⟩
      · intro a ha haid
        rcases (hreplaces a).mp ha with ha | ⟨ha, -⟩
        · rw [ha, hsame.runId, hrun] at haid
          exact absurd haid hid
        · exact h.alone a ha haid
      · rw [hsys job job rfl, latest_concat_ne hid]
        exact h.status
  · obtain ⟨hjobs, hinventory⟩ := report.handle_unfound hnone
    refine ⟨job, by rw [hjobs]; exact h.stored, by rw [hjobs]; exact h.alone, h.ofRun, h.systemId, ?_⟩
    have hsys : (report.handle s).systems job = s.systems job := by
      simp only [State.systems, hinventory]
    rw [hsys]
    have hstatus := h.status
    by_cases hid : report.runId = runId
    · have hmany := hnone job h.stored (h.ofRun.trans hid.symm)
      rw [if_neg hmany] at hstatus ⊢
      exact hstatus
    · rwa [latest_concat_ne hid]

theorem exists_madeOf {pairs : List (DispatchHost × RunCreated)} {jobs : List Job} (h : pairs.Forall₂ MadeOf jobs) :
    (∀ made ∈ pairs, ∃ job ∈ jobs, MadeOf made job) ∧ ∀ job ∈ jobs, ∃ made ∈ pairs, MadeOf made job := by
  induction h with
  | nil => simp
  | cons hmade _ ih =>
    constructor
    · intro made hm
      rcases List.mem_cons.mp hm with rfl | hm
      · exact ⟨_, by simp, hmade⟩
      · obtain ⟨job, hjob, h⟩ := ih.1 made hm
        exact ⟨job, by simp [hjob], h⟩
    · intro job hm
      rcases List.mem_cons.mp hm with rfl | hm
      · exact ⟨_, by simp, hmade⟩
      · obtain ⟨made, hin, h⟩ := ih.2 job hm
        exact ⟨made, by simp [hin], h⟩

theorem MadeOf.runId_mem {pairs : List (DispatchHost × RunCreated)} {jobs : List Job} (h : pairs.Forall₂ MadeOf jobs)
    {job : Job} (hjob : job ∈ jobs) (hzero : job.runId ≠ 0) : job.runId ∈ pairs.filterMap (·.2.id) := by
  obtain ⟨made, hmade, -, hrun, -⟩ := (exists_madeOf h).2 job hjob
  cases hid : made.2.id with
  | none =>
    rw [hid] at hrun
    exact absurd hrun hzero
  | some runId =>
    rw [hid] at hrun
    exact List.mem_filterMap.mpr ⟨made, hmade, by rw [hid, hrun]; rfl⟩

theorem MadeOf.unique {pairs : List (DispatchHost × RunCreated)} {jobs : List Job} (h : pairs.Forall₂ MadeOf jobs)
    (hnodup : (pairs.filterMap (·.2.id)).Nodup) {a b : Job} (ha : a ∈ jobs) (hb : b ∈ jobs) (hzero : a.runId ≠ 0)
    (hab : a.runId = b.runId) : a = b := by
  induction h with
  | nil => exact absurd ha List.not_mem_nil
  | cons hmade hrest ih =>
    rename_i made job rest jobs
    have hother : ∀ c ∈ jobs, c.runId ≠ 0 → c.runId ≠ job.runId := by
      intro c hc hcz heq
      have hm := MadeOf.runId_mem hrest hc hcz
      obtain ⟨-, hrun, -⟩ := hmade
      cases hid : made.2.id with
      | none =>
        rw [hid] at hrun
        exact hcz (heq.trans hrun)
      | some runId =>
        rw [hid] at hrun
        simp only [List.filterMap_cons, hid, List.nodup_cons] at hnodup
        have hcr : c.runId = runId := heq.trans hrun
        exact hnodup.1 (hcr ▸ hm)
    have hnodup' : (rest.filterMap (·.2.id)).Nodup := hnodup.sublist ((List.sublist_cons_self made rest).filterMap _)
    rcases List.mem_cons.mp ha with haj | ha
    · rcases List.mem_cons.mp hb with hbj | hb
      · rw [haj, hbj]
      · exact absurd (hab.symm.trans (congrArg Job.runId haj)) (hother b hb (hab ▸ hzero))
    · rcases List.mem_cons.mp hb with hbj | hb
      · exact absurd (hab.trans (congrArg Job.runId hbj)) (hother a ha hzero)
      · exact ih hnodup' ha hb

theorem zip_runIds {w : World} (hlength : w.runsCreated.length = execution.hosts.length) :
    (execution.hosts.zip w.runsCreated).filterMap (·.2.id) = w.runIds := by
  have hruns : (execution.hosts.zip w.runsCreated).map Prod.snd = w.runsCreated := List.map_snd_zip hlength.le
  calc (execution.hosts.zip w.runsCreated).filterMap (·.2.id)
      = ((execution.hosts.zip w.runsCreated).map Prod.snd).filterMap (·.id) := List.filterMap_map.symm
    _ = w.runIds := by rw [hruns, World.runIds]

theorem following_commit (h : Dispatching s w) {now : Instant} (hphase : (w.commit execution now).phase = .committed) :
    Following execution s (w.commit execution now) ([] : List (Report lib)) := by
  unfold World.commit at hphase ⊢
  split_ifs at hphase ⊢ with hlength
  rcases hcreate : createRows now execution w.runsCreated w.visible with ⟨_ | _, s'⟩
  · rw [hcreate] at hphase
    cases hphase
  obtain ⟨jobs, hjobs, hadds⟩ := createRows_adds hcreate
  refine ⟨hadds.inventory.trans h.inventory, hlength, ?_⟩
  intro made hmade runId hid
  have hnodup : ((execution.hosts.zip w.runsCreated).filterMap (·.2.id)).Nodup := by
    rw [zip_runIds hlength]
    exact h.distinct
  have hrunId : runId ∈ w.runIds := by
    rw [← zip_runIds hlength]
    exact List.mem_filterMap.mpr ⟨made, hmade, hid⟩
  have hzero : runId ≠ 0 := fun heq => h.nonzero (heq ▸ hrunId)
  obtain ⟨job, hjob, hsystem, hrun, hstatus⟩ := (exists_madeOf hjobs).1 made hmade
  rw [hid] at hrun hstatus
  refine ⟨job, (hadds.rows job).mpr (Or.inl hjob), ?_, hrun, hsystem, ?_⟩
  · intro row hrow hrowId
    rcases (hadds.rows row).mp hrow with hrow | hrow
    · exact MadeOf.unique hjobs hnodup hrow hjob (hrowId ▸ hzero) (hrowId.trans hrun.symm)
    · rw [h.jobs] at hrow
      exact absurd (hrowId ▸ hrunId) (h.unknown row hrow)
  · split_ifs
    · exact hstatus
    · exact hstatus

theorem Following.exists_made {reports : List (Report lib)} (h : Following execution s w reports) {runId : Uuid}
    (hrun : runId ∈ w.runIds) : ∃ made ∈ execution.hosts.zip w.runsCreated, made.2.id = some runId := by
  rw [← zip_runIds h.length, List.mem_filterMap] at hrun
  exact hrun

theorem Following.report {reports : List (Report lib)} (h : Following execution s w reports) {report : Report lib}
    (hrun : report.runId ∈ w.runIds) : Following execution s (w.step execution (.report report)) (reports ++ [report]) := by
  obtain ⟨reported, hreported, hid⟩ := h.exists_made hrun
  obtain ⟨job, hjob⟩ := h.follows reported hreported report.runId hid
  have halone : ∀ a ∈ w.visible.jobs, ∀ b ∈ w.visible.jobs, a.runId = report.runId → b.runId = report.runId → a = b :=
    fun a ha b hb hae hbe => (hjob.alone a ha hae).trans (hjob.alone b hb hbe).symm
  refine ⟨(report.handle_inventory halone).trans h.inventory, h.length, ?_⟩
  intro made hmade runId hrunId
  obtain ⟨job', hjob'⟩ := h.follows made hmade runId hrunId
  exact hjob'.report report halone

theorem Following.run {reports : List (Report lib)} (h : Following execution s w ([] : List (Report lib)))
    (hallowed : w.Allowed execution (reports.map Label.report)) :
    Following execution s (w.run execution (reports.map Label.report)) reports := by
  induction reports using List.reverseRecOn with
  | nil => exact h
  | append_singleton reports report ih =>
    rw [List.map_append, List.map_singleton] at hallowed ⊢
    rw [run_concat]
    exact (ih hallowed.left).report hallowed.last

def Parsed.Ended (parsed : Parsed) : Prop := ∀ status results, parsed.outcome = .ok (status, results) → status ≠ .running

theorem Parsed.failed_ended (line : String) : (Parsed.failed line).Ended := by
  intro status results h
  obtain ⟨rfl, -⟩ := Prod.mk.inj (Except.ok.inj h)
  decide

theorem parsedJson_ended (text : String) : (parsedJson lib text).Ended := by
  unfold parsedJson
  intro status results h
  split at h
  · exact Parsed.failed_ended _ status results h
  · split at h
    · obtain ⟨rfl, -⟩ := Prod.mk.inj (Except.ok.inj h)
      decide
    · split at h
      · obtain ⟨rfl, -⟩ := Prod.mk.inj (Except.ok.inj h)
        decide
      · cases h
    · cases h

theorem parsedText_ended (type : TaskType) (stdout : List Char) : (parsedText lib type stdout).Ended := by
  unfold parsedText
  split
  · exact Parsed.failed_ended _
  · cases type with
    | ansible =>
      dsimp only
      split
      · exact Parsed.failed_ended _
      · exact parsedJson_ended _
    | script =>
      dsimp only
      split
      · exact Parsed.failed_ended _
      · exact parsedJson_ended _

theorem parsedStdout_ended {type : TaskType} {stdout : Json} {parsed : Parsed}
    (h : parsedStdout lib type stdout = .ok parsed) : parsed.Ended := by
  unfold parsedStdout at h
  split at h
  · obtain rfl := Except.ok.inj h
    exact parsedText_ended _ _
  · obtain ⟨found, -, h⟩ := bind_eq_ok.mp h
    split_ifs at h
    · obtain rfl := Except.ok.inj h
      exact Parsed.failed_ended _
    · split at h
      · dsimp only at h
        split_ifs at h
        · obtain rfl := Except.ok.inj h
          exact Parsed.failed_ended _
        · obtain rfl := Except.ok.inj h
          exact Parsed.failed_ended _
      · cases h
      · cases h

theorem statusFrom_ne_running {type : TaskType} {stdout : Json} : statusFrom lib type stdout ≠ some .running := by
  unfold statusFrom
  split_ifs
  · exact (Option.some_ne_none _).symm
  · cases hparsed : parsedStdout lib type stdout with
    | error e => exact (Option.some_ne_none _).symm
    | ok parsed =>
      intro hstatus
      dsimp only [Parsed.status?] at hstatus
      split_ifs at hstatus
      rcases houtcome : parsed.outcome with e | ⟨status, results⟩
      · rw [houtcome] at hstatus
        cases hstatus
      · rw [houtcome] at hstatus
        dsimp only at hstatus
        split_ifs at hstatus
        exact parsedStdout_ended hparsed status results houtcome (Option.some.inj hstatus)

theorem outputStatus_ne_running {fetch : Fetch} {job : Job} : outputStatus lib fetch job ≠ some .running := by
  unfold outputStatus
  split_ifs
  · exact (Option.some_ne_none _).symm
  · intro h
    obtain ⟨stdout, -, h⟩ := Option.bind_eq_some_iff.mp h
    split_ifs at h
    exact statusFrom_ne_running h

theorem Report.status_of_running {report : Report lib} {job : Job} (h : report.Reflected job)
    (hrunning : job.status = .running) : report.status = .running := by
  unfold Report.Reflected at h
  rcases h with h | h
  · exact h.symm.trans hrunning
  · split at h
    · obtain ⟨ended, -, -, houtput⟩ := h
      rw [hrunning] at houtput
      exact absurd houtput outputStatus_ne_running
    · exact absurd h id

theorem dispatching_start (execution : Execution) (s : State) : Dispatching s (World.start execution s) :=
  ⟨rfl, rfl, List.nodup_nil, List.not_mem_nil, fun _ _ => List.not_mem_nil⟩

theorem report_place {before after pre : List (Label lib)} {report : Report lib} {now : Instant}
    {reports : List (Report lib)}
    (h : pre ++ .commit now :: reports.map Label.report = before ++ .report report :: after) :
    (∃ rest, pre = before ++ .report report :: rest) ∨
      ∃ earlier later, reports = earlier ++ report :: later ∧
        before = pre ++ .commit now :: earlier.map Label.report ∧ after = later.map Label.report := by
  rcases List.append_eq_append_iff.mp h with ⟨between, hbefore, hrest⟩ | ⟨between, hpre, hrest⟩
  · cases between with
    | nil => cases hrest
    | cons first between =>
      rw [List.cons_append, List.cons.injEq] at hrest
      obtain ⟨rfl, hrest⟩ := hrest
      obtain ⟨earlier, others, hreports, hearlier, hothers⟩ := List.map_eq_append_iff.mp hrest
      obtain ⟨found, later, hcons, hfound, hlater⟩ := List.map_eq_cons_iff.mp hothers
      obtain rfl := Label.report.inj hfound
      exact Or.inr ⟨earlier, later, by rw [hreports, hcons], by rw [hbefore, hearlier], hlater.symm⟩
  · cases between with
    | nil => cases hrest
    | cons first between =>
      rw [List.cons_append, List.cons.injEq] at hrest
      obtain ⟨rfl, -⟩ := hrest
      exact Or.inl ⟨between, hpre⟩

theorem run_reports (w : World) (reports : List (Report lib)) :
    (w.run execution (reports.map Label.report)).runIds = w.runIds := by
  induction reports using List.reverseRecOn with
  | nil => rfl
  | append_singleton reports report ih =>
    rw [List.map_append, List.map_singleton, run_concat]
    exact ih

/-- A request that has committed, between what came before and the reports after it. -/
structure Finished (execution : Execution) (s : State) (start w : World) (pre : List (Label lib)) (now : Instant)
    (reports : List (Report lib)) : Prop where
  run : ∀ labels : List (Label lib), start.run execution (pre ++ .commit now :: labels) = w.run execution labels
  inventory : start.visible.inventory = s.inventory
  none : ∀ now', .commit now' ∉ pre
  enabled : ∀ before report after, pre ++ .commit now :: reports.map .report = before ++ .report report :: after →
    report.runId ∈ (start.run execution before).runIds
  unknown : ∀ before report rest, pre = before ++ .report report :: rest →
    ∀ job ∈ (start.run execution before).visible.jobs, job.runId ≠ report.runId
  following : ∀ earlier later, reports = earlier ++ later →
    Following execution s (w.run execution (earlier.map .report)) earlier

namespace Finished

variable {start : World} {pre before after : List (Label lib)} {now : Instant} {reports : List (Report lib)}
  {report : Report lib}

theorem of_allowed (hstart : Dispatching s start)
    (hallowed : start.Allowed execution (pre ++ .commit now :: reports.map .report))
    (hpre : (start.run execution pre).phase = .dispatching)
    (hcommit : ((start.run execution pre).commit execution now).phase = .committed) :
    Finished execution s start ((start.run execution pre).commit execution now) pre now reports := by
  have hrun : ∀ labels : List (Label lib), start.run execution (pre ++ .commit now :: labels) =
      ((start.run execution pre).commit execution now).run execution labels := fun labels => run_append pre _
  refine ⟨hrun, hstart.inventory, ?_, fun before report after heq => hallowed before (.report report) after heq, ?_, ?_⟩
  · intro now' hmem
    obtain ⟨a, b, rfl⟩ := List.append_of_mem hmem
    rw [← List.singleton_append, ← List.append_assoc] at hpre
    have hphase := phase_of_append hpre
    rw [run_concat] at hphase
    exact (step_phase hphase).2 now' rfl
  · intro before report rest hrest job hjob hid
    subst hrest
    have hdispatching := dispatching_run hstart hallowed.left.left (phase_of_append hpre)
    have henabled : report.runId ∈ (start.run execution before).runIds :=
      hallowed before (.report report) (rest ++ .commit now :: reports.map .report)
        (by rw [List.append_assoc, List.cons_append])
    rw [hdispatching.jobs] at hjob
    exact hdispatching.unknown job hjob (hid ▸ henabled)
  · intro earlier later heq
    have hat : Dispatching s (start.run execution pre) := dispatching_run hstart hallowed.left hpre
    refine (following_commit hat hcommit).run fun before label after hbefore => ?_
    have h := hallowed (pre ++ .commit now :: before) label (after ++ later.map .report)
      (by rw [heq, List.map_append, hbefore]; simp)
    rwa [hrun] at h

variable (h : Finished execution s start w pre now reports)
include h

theorem systems {made : DispatchHost × RunCreated} {runId : Uuid} {job : Job}
    (hjob : Follows (w.run execution (reports.map Label.report)).visible made.1 runId reports job) :
    (w.run execution (reports.map Label.report)).visible.systems job =
      start.visible.inventory.rows.filter fun row => row.inventoryId = made.1.inventoryId := by
  have hend := (h.following reports [] (List.append_nil reports).symm).inventory
  simp only [State.systems, hend, h.inventory, hjob.systemId]

theorem unhurried (hnothing : NothingLost execution start (pre ++ .commit now :: reports.map .report)) :
    Unhurried execution start (pre ++ .commit now :: reports.map .report) := by
  have hend := h.following reports [] (List.append_nil reports).symm
  refine ⟨?_, ?_⟩
  · intro before report after heq
    rcases report_place heq with ⟨rest, hrest⟩ | ⟨earlier, later, -, hbefore, -⟩
    · obtain ⟨job, hjob, hid⟩ := hnothing.found before report after heq
      exact absurd hid (h.unknown before report rest hrest job hjob)
    · exact ⟨now, by simp [hbefore]⟩
  · intro before report after heq hlast
    obtain ⟨job, hjob, hid, hreflected⟩ := hnothing.reflected before report after heq hlast
    by_cases hstatus : report.status = .running
    · exact Or.inl hstatus
    refine Or.inr fun made hmade hmadeId => ?_
    rw [h.run] at hmade hjob
    obtain ⟨job', hfollows⟩ := hend.follows made hmade report.runId hmadeId
    obtain rfl := hfollows.alone job hjob hid
    by_contra hmany
    have hrunning := hfollows.status
    rw [h.systems hfollows, if_neg hmany] at hrunning
    exact hstatus (Report.status_of_running hreflected hrunning)

theorem place (hcommitted : ∃ now, .commit now ∈ before)
    (heq : pre ++ .commit now :: reports.map .report = before ++ .report report :: after) :
    ∃ earlier later, reports = earlier ++ report :: later ∧ before = pre ++ .commit now :: earlier.map .report ∧
      after = later.map .report := by
  rcases report_place heq with ⟨rest, hrest⟩ | hplace
  · obtain ⟨now', hmem⟩ := hcommitted
    exact absurd (by rw [hrest]; exact List.mem_append_left _ hmem) (h.none now')
  · exact hplace

theorem nothingLost (hunhurried : Unhurried execution start (pre ++ .commit now :: reports.map .report)) :
    NothingLost execution start (pre ++ .commit now :: reports.map .report) := by
  refine ⟨?_, ?_⟩
  · intro before report after heq
    obtain ⟨earlier, later, hreports, hbefore, -⟩ := h.place (hunhurried.committed before report after heq) heq
    have henabled := h.enabled before report after heq
    rw [hbefore, h.run] at henabled ⊢
    have hearlier := h.following earlier (report :: later) hreports
    obtain ⟨made, hmade, hid⟩ := hearlier.exists_made henabled
    obtain ⟨job, hfollows⟩ := hearlier.follows made hmade report.runId hid
    exact ⟨job, hfollows.stored, hfollows.ofRun⟩
  · intro before report after heq hlast
    obtain ⟨earlier, later, hreports, hbefore, hlater⟩ := h.place (hunhurried.committed before report after heq) heq
    have hend := h.following reports [] (List.append_nil reports).symm
    have henabled := h.enabled before report after heq
    rw [hbefore, h.run, run_reports, ← run_reports w reports] at henabled
    obtain ⟨made, hmade, hid⟩ := hend.exists_made henabled
    obtain ⟨job, hfollows⟩ := hend.follows made hmade report.runId hid
    rw [h.run]
    refine ⟨job, hfollows.stored, hfollows.ofRun, ?_⟩
    have hstatus := hfollows.status
    rw [h.systems hfollows] at hstatus
    split_ifs at hstatus with hfew
    · rw [hreports] at hstatus
      exact hstatus.last fun other hother => hlast other (by rw [hlater]; exact List.mem_map_of_mem hother)
    · rcases hunhurried.alone before report after heq hlast with hrunning | hone
      · exact Or.inl (hstatus.trans hrunning.symm)
      · rw [h.run] at hone
        exact absurd (hone made hmade hid) hfew

end Finished

theorem World.Allowed.concat {labels : List (Label lib)} (h : w.Allowed execution labels) (label : Label lib)
    (henabled : (w.run execution labels).Enabled execution label) : w.Allowed execution (labels ++ [label]) := by
  intro before other after heq
  rcases List.eq_nil_or_concat after with rfl | ⟨rest, last, rfl⟩
  · obtain ⟨rfl, hlast⟩ := List.append_inj' heq rfl
    obtain rfl := List.singleton_inj.mp hlast
    exact henabled
  · rw [List.concat_eq_append, ← List.cons_append, ← List.append_assoc] at heq
    obtain ⟨rfl, -⟩ := List.append_inj' heq rfl
    exact h before other rest rfl

/-- Nothing is lost if and only if the reports leave the request the time to commit, and their jobs can be found. -/
theorem nothingLost_iff {labels : List (Label lib)} (hallowed : (World.start execution s).Allowed execution labels)
    (hcommitted : ((World.start execution s).run execution labels).phase = .committed) :
    NothingLost execution (World.start execution s) labels ↔ Unhurried execution (World.start execution s) labels := by
  obtain ⟨pre, now, reports, rfl, hpre, hcommit⟩ := commit_split hallowed rfl hcommitted
  have hfinished := Finished.of_allowed (dispatching_start execution s) hallowed hpre hcommit
  exact ⟨hfinished.unhurried, hfinished.nothingLost⟩

def sampleExecution : Execution where
  task := sampleTask
  title := "Log4Shell detection"
  name := "Detection"
  orgId := "1234"
  user := "admin"
  url := "https://cloud.example.com/api/tasks/v1/task/log4shell/playbook"
  hosts := [{ inventoryId := 7, effectiveRhcClientId := some 8 }]
  batchSize := 50

def idleState : State where
  inventory := .empty
  tasks := .single sampleTask
  executedTasks := .empty
  jobs := .empty
  storable _ hjob := absurd hjob List.not_mem_nil

def sampleAnswer : Answer := .dispatcher 207 [⟨201, some 1⟩]

theorem sampleUpdate_reads : ∃ id name updatedOn t,
    readUpdate (sampleUpdate "success" "2024-05-01T11:00:00+00:00") = .ok (some (.str id, .str name, updatedOn)) ∧
      Uuid.ofText id = some 1 ∧ JobStatus.ofName? (sampleLibrary.upper name) = some .success ∧
      parseDatetime sampleLibrary.django updatedOn = .ok t :=
  ⟨_, _, _, _, rfl, by decide +kernel, by decide +kernel, rfl⟩

def sampleReport : Report sampleLibrary where
  runId := 1
  status := .success
  now := 0
  source := .ansible (sampleUpdate "success" "2024-05-01T11:00:00+00:00") .unconfigured sampleUpdate_reads

theorem sampleAnswer_allowed :
    (World.start sampleExecution idleState).Allowed sampleExecution
      [(.dispatch sampleAnswer : Label sampleLibrary)] := by
  have hnone : (World.start sampleExecution idleState).Allowed sampleExecution ([] : List (Label sampleLibrary)) :=
    fun _ _ _ heq => by simp at heq
  refine hnone.concat _ ⟨rfl, sampleExecution.hosts, [], rfl, ?_⟩
  intro runs hruns
  obtain rfl := Except.ok.inj hruns
  refine ⟨by decide, by decide, fun job hjob => absurd hjob List.not_mem_nil⟩

theorem nothingLost_patient :
    NothingLost sampleExecution (World.start sampleExecution idleState)
      ([.dispatch sampleAnswer, .commit 0, .report sampleReport] : List (Label sampleLibrary)) := by
  have hallowed : (World.start sampleExecution idleState).Allowed sampleExecution
      ([.dispatch sampleAnswer, .commit 0, .report sampleReport] : List (Label sampleLibrary)) := by
    have hcommit := sampleAnswer_allowed.concat (.commit 0) ⟨rfl, rfl⟩
    refine hcommit.concat (.report sampleReport) ?_
    change (1 : Uuid) ∈ World.runIds _
    decide +kernel
  refine (nothingLost_iff hallowed (by decide +kernel)).mpr ⟨?_, fun _ _ _ _ _ => Or.inr fun _ _ _ => Nat.zero_le 1⟩
  intro before report after heq
  rcases before with _ | ⟨first, _ | ⟨second, rest⟩⟩
  · cases heq
  · cases heq
  · obtain ⟨-, hrest⟩ := List.cons.inj heq
    obtain ⟨rfl, -⟩ := List.cons.inj hrest
    exact ⟨0, by simp⟩

/-- The run succeeds before the transaction of its request has committed: its job stays running. -/
theorem nothingLost_early_report :
    ((World.start sampleExecution idleState).run sampleExecution
        [.dispatch sampleAnswer, .report sampleReport, .commit 0]).phase = .committed ∧
      ((World.start sampleExecution idleState).run sampleExecution
        [.dispatch sampleAnswer, .report sampleReport, .commit 0]).visible.jobs.rows.map
          (fun job => (job.runId, job.status)) = [(1, .running)] ∧
      ¬ NothingLost sampleExecution (World.start sampleExecution idleState)
        [.dispatch sampleAnswer, .report sampleReport, .commit 0] := by
  refine ⟨by decide +kernel, by decide +kernel, fun h => ?_⟩
  obtain ⟨job, hjob, -⟩ := h.found [.dispatch sampleAnswer] sampleReport [.commit 0] rfl
  exact absurd hjob List.not_mem_nil

end Advisor.Tasks
