import Advisor.Tasks.OneJobEach

/-! Runs and the transaction: what a dispatcher has started stays started when the rows are taken back. -/

namespace Advisor.Tasks

open Python Procedure Django Relational

/-- A request that fails has started nothing, and one that succeeds has a new job for each run it has started. -/
structure NoUntracked (s : State) (outcome : Outcome) : Prop where
  failed : ∀ reason, outcome.result = .error reason → outcome.started = []
  tracked : ∀ extask, outcome.result = .ok extask → ∀ runId ∈ outcome.started,
    ∃ job ∈ outcome.db.jobs, job ∉ s.jobs ∧ job.executedTask = extask.id ∧ job.runId = runId

/-- Nothing has been started up to the first request that is refused, that one included; nothing has been started if
the entries cannot be used; and otherwise the entries name what has been started. -/
structure Traceable (services : Services) (execution : Execution) : Prop where
  refused : ∀ before exchange after, execution.exchanges services = before ++ exchange :: after →
    (∀ earlier ∈ before, earlier.Accepted) → ¬exchange.Accepted →
      (∀ earlier ∈ before, earlier.started = []) ∧ (exchange.Reachable → exchange.started = [])
  unusable : (∀ exchange ∈ execution.exchanges services, exchange.Accepted) → ¬execution.Usable services →
    ∀ exchange ∈ execution.exchanges services, exchange.started = []
  answered : (∀ exchange ∈ execution.exchanges services, exchange.Accepted) → execution.Usable services →
    ∀ exchange ∈ execution.exchanges services, ∀ runId ∈ exchange.started,
      ∃ created ∈ execution.entries services, created.id.getD 0 = runId

theorem refused_unique {before before' after after' : List Exchange} {exchange exchange' : Exchange}
    (h : before ++ exchange :: after = before' ++ exchange' :: after') (hbefore : ∀ earlier ∈ before, earlier.Accepted)
    (hexchange : ¬exchange.Accepted) (hbefore' : ∀ earlier ∈ before', earlier.Accepted)
    (hexchange' : ¬exchange'.Accepted) : before = before' ∧ exchange = exchange' := by
  induction before generalizing before' with
  | nil =>
    cases before' with
    | nil => exact ⟨rfl, (List.cons.inj h).1⟩
    | cons first rest =>
      obtain ⟨rfl, -⟩ := List.cons.inj h
      exact absurd (hbefore' exchange (by simp)) hexchange
  | cons first rest ih =>
    cases before' with
    | nil =>
      obtain ⟨rfl, -⟩ := List.cons.inj h
      exact absurd (hbefore first (by simp)) hexchange'
    | cons first' rest' =>
      obtain ⟨rfl, htail⟩ := List.cons.inj h
      obtain ⟨rfl, rfl⟩ := ih htail (fun earlier hmem => hbefore earlier (by simp [hmem]))
        fun earlier hmem => hbefore' earlier (by simp [hmem])
      exact ⟨rfl, rfl⟩

section

variable {lib : TaskLibrary} {details : TaskDetails} {postgres : Postgres} {satellites : SatelliteRhcs}
  {settings : ExecuteSettings} {now : Instant} {services : Services} {request : ExecuteRequest} {token : Uuid}
  {s : State} {execution : Execution} {extask : ExecutedTask} {outcome : Outcome}

theorem runId_iff {s'' : State} {jobs : List Job} (husable : execution.Usable services)
    (hmakes : (execution.hosts.zip (execution.entries services)).Forall₂ (Makes extask s) jobs)
    (hadds : Adds s s'' jobs) (runId : Uuid) :
    (∃ job ∈ s''.jobs, job ∉ s.jobs ∧ job.executedTask = extask.id ∧ job.runId = runId) ↔
      ∃ created ∈ execution.entries services, created.id.getD 0 = runId := by
  have hsnd : (execution.hosts.zip (execution.entries services)).map Prod.snd = execution.entries services :=
    List.map_snd_zip husable.1.le
  constructor
  · rintro ⟨job, hjob, hnew, -, rfl⟩
    have hmem : job ∈ jobs := ((hadds.rows job).mp hjob).resolve_right hnew
    obtain ⟨pair, hpair, hmake⟩ := forall₂_exists hmakes hmem
    exact ⟨pair.2, hsnd ▸ List.mem_map_of_mem hpair, hmake.made.2.1.symm⟩
  · rintro ⟨created, hcreated, rfl⟩
    rw [← hsnd] at hcreated
    obtain ⟨pair, hpair, rfl⟩ := List.mem_map.mp hcreated
    obtain ⟨job, hjob, hmake⟩ := forall₂_exists hmakes.flip hpair
    exact ⟨job, (hadds.rows job).mpr (Or.inl hjob), hmake.new, hmake.executedTask, hmake.made.2.1⟩

theorem noUntracked_of_ends (h : CreateEnds services execution extask s outcome) :
    NoUntracked s outcome ↔ Traceable services execution := by
  cases h with
  | made s'' jobs hall husable hmakes hadds =>
    constructor
    · intro h
      refine ⟨fun before exchange after heq _ hno => ?_, fun _ hno => absurd husable hno, ?_⟩
      · exact absurd (hall exchange (by rw [heq]; simp)) hno
      · intro _ _ exchange hexchange runId hrun
        exact (runId_iff husable hmakes hadds runId).mp
          (h.tracked extask rfl runId (List.mem_flatMap.mpr ⟨exchange, hexchange, hrun⟩))
    · intro h
      refine ⟨(fun reason herror => nomatch herror), fun extask' hok runId hrun => ?_⟩
      obtain rfl := Except.ok.inj hok
      obtain ⟨exchange, hexchange, hmem⟩ := List.mem_flatMap.mp hrun
      exact (runId_iff husable hmakes hadds runId).mpr (h.answered hall husable exchange hexchange runId hmem)
  | unusable reason hall hno =>
    constructor
    · intro h
      refine ⟨fun before exchange after heq _ hrefused => ?_, fun _ _ => ?_, fun _ husable => absurd husable hno⟩
      · exact absurd (hall exchange (by rw [heq]; simp)) hrefused
      · exact List.flatMap_eq_nil_iff.mp (h.failed reason rfl)
    · intro h
      exact ⟨fun _ _ => List.flatMap_eq_nil_iff.mpr (h.unusable hall hno), fun extask' hok => nomatch hok⟩
  | refused reason before after exchange started heq hbefore hno hreachable hunreachable =>
    constructor
    · intro h
      obtain ⟨hearlier, hstarted⟩ := List.append_eq_nil_iff.mp (h.failed reason rfl)
      refine ⟨fun before' exchange' after' heq' hbefore' hno' => ?_, fun hall _ => ?_, fun hall _ => ?_⟩
      · obtain ⟨rfl, rfl⟩ := refused_unique (heq.symm.trans heq') hbefore hno hbefore' hno'
        exact ⟨List.flatMap_eq_nil_iff.mp hearlier, fun hreach => (hreachable hreach).symm.trans hstarted⟩
      · exact absurd (hall exchange (by rw [heq]; simp)) hno
      · exact absurd (hall exchange (by rw [heq]; simp)) hno
    · intro h
      obtain ⟨hearlier, hstarted⟩ := h.refused before exchange after heq hbefore hno
      refine ⟨fun _ _ => List.append_eq_nil_iff.mpr ⟨List.flatMap_eq_nil_iff.mpr hearlier, ?_⟩,
        fun extask' hok => nomatch hok⟩
      by_cases hreach : exchange.Reachable
      · exact (hreachable hreach).trans (hstarted hreach)
      · exact hunreachable hreach

/-- No run is left without a job exactly if what the dispatcher does for the prepared request is traceable. -/
theorem noUntracked_iff :
    NoUntracked s (create lib details postgres satellites settings now services request token s) ↔
      ∀ execution extask s', prepare lib details postgres satellites settings request token s =
        .ok (execution, extask, s') → Traceable services execution := by
  cases hprepare : prepare lib details postgres satellites settings request token s with
  | error e =>
    have hcreate : create lib details postgres satellites settings now services request token s = ⟨.error e, s, []⟩ := by
      simp only [create, hprepare]
    rw [hcreate]
    constructor
    · intro _ _ _ _ h
      cases h
    · intro _
      refine ⟨fun _ _ => rfl, ?_⟩
      intro extask' hok
      cases hok
  | ok prepared =>
    obtain ⟨execution, extask, s'⟩ := prepared
    rw [noUntracked_of_ends (create_ends now services hprepare)]
    constructor
    · rintro h _ _ _ ⟨⟩
      exact h
    · intro h
      exact h execution extask s' rfl

end

def failingServices : Services where
  dispatcher batch :=
    if batch.any (·.inventoryId = 7) then ⟨[1], 207, some [⟨201, some 1⟩]⟩ else ⟨[], 500, none⟩
  connector := sampleServices.connector

/-- The run of the first batch has been started, and everything about it is taken back. -/
theorem secondBatch_fails :
    let outcome := create sampleLibrary sampleDetails samplePostgres sampleSatellites sampleSettings 0 failingServices
      twoRequested 5 twoSystems
    isOk outcome.result = false ∧ outcome.started = [1] ∧ outcome.db.jobs.rows = [] ∧ ¬NoUntracked twoSystems outcome := by
  intro outcome
  have hresult : isOk outcome.result = false := by decide +kernel
  have hstarted : outcome.started = [1] := by decide +kernel
  refine ⟨hresult, hstarted, by decide +kernel, fun h => ?_⟩
  cases hreason : outcome.result with
  | ok extask =>
    rw [hreason] at hresult
    cases hresult
  | error reason =>
    rw [h.failed reason hreason] at hstarted
    cases hstarted

end Advisor.Tasks
