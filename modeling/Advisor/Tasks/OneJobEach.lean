import Advisor.Tasks.Execute
import Advisor.Tasks.LogLines

/-! One job for each host: the answers of a dispatcher are put together in the order of the hosts. -/

namespace Advisor.Tasks

open Python Procedure Django Relational

section Jobs

variable (now : Instant) {execution : Execution} (extask : ExecutedTask)

def Execution.Fits (execution : Execution) (created : RunCreated) : Prop :=
  created.id = none → (execution.failedLine created.code).length ≤ 255

structure Makes (extask : ExecutedTask) (s : State) (made : DispatchHost × RunCreated) (job : Job) : Prop where
  made : MadeOf made job
  executedTask : job.executedTask = extask.id
  new : job ∉ s.jobs

theorem createJob_eq (host : DispatchHost) (created : RunCreated) (s : State) :
    let job := newJob now extask (nextId (s.jobs.rows.map (·.id))) host created
    createJob now execution extask host created s =
      (match created.id with
        | some runId => job.newLog true (execution.dispatchedLine runId)
        | none => job.newLog false (execution.failedLine created.code)) (s.withJob job rfl) := by
  intro job
  have hsave : job.save s = (.ok (), s.withJob job rfl) := save_of_storable rfl
  exact (read_bind _ _ s).trans (bind_of_ok hsave)

theorem createJob_makes (host : DispatchHost) {created : RunCreated} (h : execution.Fits created) (s : State) :
    ∃ s' job, createJob now execution extask host created s = (.ok (), s') ∧ Makes extask s (host, created) job ∧
      Adds s s' [job] := by
  rw [createJob_eq]
  let job := newJob now extask (nextId (s.jobs.rows.map (·.id))) host created
  have hadds : Adds s (s.withJob job rfl) [job] := withJob_adds rfl _
  have hmakes : Makes extask s (host, created) job := by
    refine ⟨⟨rfl, rfl, rfl⟩, rfl, fun hmem => ?_⟩
    have hlt : job.id < nextId (s.jobs.rows.map (·.id)) := lt_nextId (List.mem_map_of_mem hmem)
    exact lt_irrefl _ hlt
  have hlog : ∀ isOk line, line.length ≤ 255 →
      ∃ s', job.newLog isOk line (s.withJob job rfl) = (.ok (), s') ∧ Adds s s' [job] := by
    intro isOk line hline
    obtain ⟨s', hs', hquiet⟩ := newLog_of_le job isOk (s.withJob job rfl) hline
    exact ⟨s', hs', hadds.trans (Adds.quiet hquiet.inventory hquiet.jobs)⟩
  cases hid : created.id with
  | some runId =>
    obtain ⟨s', hs', h'⟩ := hlog true _ (dispatchedLine_length execution runId)
    exact ⟨s', job, hs', hmakes, h'⟩
  | none =>
    obtain ⟨s', hs', h'⟩ := hlog false _ (h hid)
    exact ⟨s', job, hs', hmakes, h'⟩

theorem createJob_fails (host : DispatchHost) {created : RunCreated} (h : ¬execution.Fits created) (s : State) :
    ∃ e s', createJob now execution extask host created s = (.error e, s') := by
  obtain ⟨hid, hlong⟩ := Classical.not_imp.mp h
  rw [createJob_eq, hid]
  exact ⟨_, _, newLog_of_lt hlong⟩

theorem createJobs_makes {pairs : List (DispatchHost × RunCreated)} (h : ∀ pair ∈ pairs, execution.Fits pair.2)
    (s : State) :
    ∃ s' jobs, each pairs (fun (host, created) => createJob now execution extask host created) s = (.ok (), s') ∧
      pairs.Forall₂ (Makes extask s) jobs ∧ Adds s s' jobs := by
  induction pairs generalizing s with
  | nil => exact ⟨s, [], rfl, .nil, Adds.quiet rfl rfl⟩
  | cons pair rest ih =>
    obtain ⟨s₁, job, hjob, hmakes, hadds⟩ := createJob_makes now extask pair.1 (h pair (by simp)) s
    obtain ⟨s', jobs, hjobs, hrest, hadds'⟩ := ih (fun made hmade => h made (by simp [hmade])) s₁
    refine ⟨s', job :: jobs, ?_, .cons hmakes (hrest.imp fun made later hlater => ?_), hadds.trans hadds'⟩
    · rw [each_cons, bind_of_ok hjob]
      exact hjobs
    · exact ⟨hlater.made, hlater.executedTask, fun hold => hlater.new ((hadds.rows later).mpr (Or.inr hold))⟩

theorem createJobs_fails {pairs : List (DispatchHost × RunCreated)} (h : ∃ pair ∈ pairs, ¬execution.Fits pair.2)
    (s : State) :
    ∃ e s', each pairs (fun (host, created) => createJob now execution extask host created) s = (.error e, s') := by
  induction pairs generalizing s with
  | nil => obtain ⟨pair, hpair, -⟩ := h; cases hpair
  | cons pair rest ih =>
    rw [each_cons]
    by_cases hfits : execution.Fits pair.2
    · obtain ⟨s₁, job, hjob, -⟩ := createJob_makes now extask pair.1 hfits s
      have hlater : ∃ later ∈ rest, ¬execution.Fits later.2 := by
        obtain ⟨other, hother, hlong⟩ := h
        rcases List.mem_cons.mp hother with rfl | hmem
        · exact absurd hfits hlong
        · exact ⟨other, hmem, hlong⟩
      obtain ⟨e, s', hrest⟩ := ih hlater s₁
      exact ⟨e, s', by rw [bind_of_ok hjob]; exact hrest⟩
    · obtain ⟨e, s', hjob⟩ := createJob_fails now extask pair.1 hfits s
      exact ⟨e, s', bind_of_error hjob⟩

theorem createJobsForExecutedTask_makes {runsCreated : List RunCreated}
    (h : ∀ pair ∈ execution.hosts.zip runsCreated, execution.Fits pair.2) (s : State) :
    ∃ s' jobs, createJobsForExecutedTask now execution extask runsCreated s = (.ok (), s') ∧
      (execution.hosts.zip runsCreated).Forall₂ (Makes extask s) jobs ∧ Adds s s' jobs := by
  obtain ⟨s₁, jobs, hjobs, hmakes, hadds⟩ := createJobs_makes now extask h s
  unfold createJobsForExecutedTask
  by_cases hempty : s₁.jobStatuses extask.id = []
  · refine ⟨s₁, jobs, ?_, hmakes, hadds⟩
    rw [bind_of_ok hjobs, updateExecutedTaskStatus_empty none hempty]
  · obtain ⟨s₂, hs₂, hset⟩ := updateExecutedTaskStatus_settles now none hempty
    refine ⟨s₂, jobs, ?_, hmakes, ?_⟩
    · rw [bind_of_ok hjobs, hs₂]
    · simpa using hadds.trans (Adds.quiet hset.inventory hset.jobs)

theorem createJobsForExecutedTask_fails {runsCreated : List RunCreated}
    (h : ∃ pair ∈ execution.hosts.zip runsCreated, ¬execution.Fits pair.2) (s : State) :
    ∃ e s', createJobsForExecutedTask now execution extask runsCreated s = (.error e, s') := by
  obtain ⟨e, s', hjobs⟩ := createJobs_fails now extask h s
  exact ⟨e, s', bind_of_error hjobs⟩

end Jobs

section Ending

variable {lib : TaskLibrary} {details : TaskDetails} {postgres : Postgres} {satellites : SatelliteRhcs}
  {settings : ExecuteSettings} {now : Instant} {services : Services} {request : ExecuteRequest} {token : Uuid}
  {s s' : State} {execution : Execution} {extask : ExecutedTask}

def Execution.entries (execution : Execution) (services : Services) : List RunCreated :=
  (execution.exchanges services).flatMap fun exchange => exchange.answers.getD []

def Execution.allStarted (execution : Execution) (services : Services) : List Uuid :=
  (execution.exchanges services).flatMap (·.started)

def Execution.Usable (execution : Execution) (services : Services) : Prop :=
  (execution.entries services).length = execution.hosts.length ∧
    ∀ created ∈ execution.entries services, execution.Fits created

/-- How a request ends that has got as far as its dispatcher. -/
inductive CreateEnds (services : Services) (execution : Execution) (extask : ExecutedTask) (s : State) : Outcome → Prop where
  | made (s'' : State) (jobs : List Job) :
      (∀ exchange ∈ execution.exchanges services, exchange.Accepted) → execution.Usable services →
      (execution.hosts.zip (execution.entries services)).Forall₂ (Makes extask s) jobs → Adds s s'' jobs →
      CreateEnds services execution extask s ⟨.ok extask, s'', execution.allStarted services⟩
  | unusable (reason : Failure) :
      (∀ exchange ∈ execution.exchanges services, exchange.Accepted) → ¬execution.Usable services →
      CreateEnds services execution extask s ⟨.error reason, s, execution.allStarted services⟩
  | refused (reason : Failure) (before after : List Exchange) (exchange : Exchange) (started : List Uuid) :
      execution.exchanges services = before ++ exchange :: after → (∀ earlier ∈ before, earlier.Accepted) →
      ¬exchange.Accepted → (exchange.Reachable → started = exchange.started) →
      (¬exchange.Reachable → started = []) →
      CreateEnds services execution extask s ⟨.error reason, s, before.flatMap (·.started) ++ started⟩

theorem accepted_or_refused (exchanges : List Exchange) :
    (∀ exchange ∈ exchanges, exchange.Accepted) ∨
      ∃ before exchange after, exchanges = before ++ exchange :: after ∧ (∀ earlier ∈ before, earlier.Accepted) ∧
        ¬exchange.Accepted := by
  induction exchanges with
  | nil => exact Or.inl fun exchange h => nomatch h
  | cons first rest ih =>
    by_cases hfirst : first.Accepted
    · rcases ih with hall | ⟨before, exchange, after, rfl, hbefore, hrefused⟩
      · refine Or.inl fun exchange hexchange => ?_
        rcases List.mem_cons.mp hexchange with rfl | hmem
        · exact hfirst
        · exact hall exchange hmem
      · refine Or.inr ⟨first :: before, exchange, after, rfl, fun earlier hearlier => ?_, hrefused⟩
        rcases List.mem_cons.mp hearlier with rfl | hmem
        · exact hfirst
        · exact hbefore earlier hmem
    · exact Or.inr ⟨[], first, rest, rfl, (fun earlier h => nomatch h), hfirst⟩

theorem createExecutedTask_same (h : createExecutedTask execution s = (.ok extask, s')) :
    s'.jobs = s.jobs ∧ s'.inventory = s.inventory := by
  unfold createExecutedTask at h
  rw [read_bind] at h
  split at h
  · simp only [ExecutedTask.save, write_bind, pure_apply, Prod.mk.injEq, Except.ok.injEq] at h
    obtain ⟨-, rfl⟩ := h
    exact ⟨rfl, rfl⟩
  · cases h

theorem queryHosts_congr (h : s'.inventory = s.inventory) :
    request.queryHosts postgres satellites s' = request.queryHosts postgres satellites s := by
  rw [ExecuteRequest.queryHosts, ExecuteRequest.rows, h]
  rfl

theorem prepare_eq_ok :
    prepare lib details postgres satellites settings request token s = .ok (execution, extask, s') ↔
      ∃ task stored hosts, validate lib details request s = .ok task ∧
        createExecutedTask (request.execution details settings task) s = (.ok extask, s') ∧
        request.storedParameters details task = .ok stored ∧ request.queryHosts postgres satellites s = .ok hosts ∧
        execution =
          { (request.execution details settings task).addressed settings.site token stored with hosts } := by
  unfold prepare
  rw [bind_eq_ok]
  constructor
  · rintro ⟨task, htask, h⟩
    rcases hcreate : createExecutedTask (request.execution details settings task) s with ⟨_ | extask', s₁⟩
    · simp only [hcreate] at h
      cases h
    · simp only [hcreate, bind_eq_ok, mapError_eq_ok] at h
      obtain ⟨stored, hstored, hosts, hhosts, h⟩ := h
      cases h
      rw [queryHosts_congr (createExecutedTask_same hcreate).2] at hhosts
      exact ⟨task, stored, hosts, htask, hcreate, hstored, hhosts, rfl⟩
  · rintro ⟨task, stored, hosts, htask, hcreate, hstored, hhosts, rfl⟩
    refine ⟨task, htask, ?_⟩
    rw [← queryHosts_congr (createExecutedTask_same hcreate).2] at hhosts
    simp only [hcreate, hstored, hhosts]
    rfl

theorem zip_fits (h : (execution.entries services).length = execution.hosts.length) :
    (∀ pair ∈ execution.hosts.zip (execution.entries services), execution.Fits pair.2) ↔
      ∀ created ∈ execution.entries services, execution.Fits created := by
  have hsnd : (execution.hosts.zip (execution.entries services)).map Prod.snd = execution.entries services :=
    List.map_snd_zip h.le
  constructor
  · intro hpairs created hcreated
    rw [← hsnd] at hcreated
    obtain ⟨pair, hpair, rfl⟩ := List.mem_map.mp hcreated
    exact hpairs pair hpair
  · intro hentries pair hpair
    exact hentries pair.2 (hsnd ▸ List.mem_map_of_mem hpair)

theorem create_ends (now : Instant) (services : Services)
    (h : prepare lib details postgres satellites settings request token s = .ok (execution, extask, s')) :
    CreateEnds services execution extask s (create lib details postgres satellites settings now services request token s) := by
  obtain ⟨parts, hparts, hyields⟩ := executeBatches_yields execution services
  have hjobs : s'.jobs = s.jobs ∧ s'.inventory = s.inventory := by
    obtain ⟨task, _, _, -, hcreate, -⟩ := prepare_eq_ok.mp h
    exact createExecutedTask_same hcreate
  unfold create
  simp only [h, hparts]
  rcases accepted_or_refused (execution.exchanges services) with hall | ⟨before, exchange, after, heq, hbefore, hrefused⟩
  · have hturn : Sent.inTurn parts = ⟨.ok (execution.entries services), execution.allStarted services⟩ :=
      inTurn_accepted hyields hall
    simp only [hturn]
    by_cases hlength : (execution.entries services).length = execution.hosts.length
    · rw [if_pos hlength]
      by_cases hfits : ∀ created ∈ execution.entries services, execution.Fits created
      · obtain ⟨s'', jobs, hmade, hmakes, hadds⟩ :=
          createJobsForExecutedTask_makes now extask ((zip_fits hlength).mpr hfits) s'
        simp only [hmade]
        refine .made s'' jobs hall ⟨hlength, hfits⟩ (hmakes.imp fun pair job hjob => ?_) ?_
        · exact ⟨hjob.made, hjob.executedTask, hjobs.1 ▸ hjob.new⟩
        · exact ⟨hadds.inventory.trans hjobs.2, fun row => hjobs.1 ▸ hadds.rows row⟩
      · rw [← zip_fits hlength] at hfits
        push Not at hfits
        obtain ⟨e, s'', hfailed⟩ := createJobsForExecutedTask_fails now extask hfits s'
        simp only [hfailed]
        refine .unusable _ hall fun husable => ?_
        obtain ⟨pair, hpair, hno⟩ := hfits
        exact hno ((zip_fits hlength).mpr husable.2 pair hpair)
    · rw [if_neg hlength]
      exact .unusable _ hall fun husable => hlength husable.1
  · rw [heq] at hyields
    obtain ⟨reason, started, hturn, hreachable, hunreachable⟩ := inTurn_refused hyields hbefore hrefused
    rw [hturn]
    exact .refused reason before after exchange started heq hbefore hrefused hreachable hunreachable

end Ending

section Each

variable {lib : TaskLibrary} {details : TaskDetails} {postgres : Postgres} {satellites : SatelliteRhcs}
  {settings : ExecuteSettings} {now : Instant} {services : Services} {request : ExecuteRequest} {token : Uuid}
  {s : State} {execution : Execution} {answer : Uuid → RunCreated}

/-- A requested host that the user sees. -/
def ExecuteRequest.Reaches (request : ExecuteRequest) (s : State) (id : Uuid) : Prop :=
  id ∈ request.hosts ∧ ∃ row ∈ s.inventory, row.key = (request.orgId, id) ∧ request.visible row = true

/-- There is one entry for each requested run in the order of the requests; codes are small numbers. -/
structure Answers (services : Services) (execution : Execution) (answer : Uuid → RunCreated) : Prop where
  codes : ∀ id, (answer id).code < 2 ^ 31
  dispatcher : execution.task.type = .ansible → ∀ batch ∈ execution.batches,
    (services.dispatcher batch).statusCode = 207 ∧
      (services.dispatcher batch).body = some (batch.map fun host => answer host.inventoryId)
  connector : execution.task.type = .script → ∀ host ∈ execution.hosts,
    (services.connector host).created = answer host.inventoryId

theorem mem_rows {row : AdvisorInventoryHost} :
    row ∈ request.rows s ↔
      row ∈ s.inventory ∧ request.visible row = true ∧ row.orgId = request.orgId ∧ row.inventoryId ∈ request.hosts := by
  rw [ExecuteRequest.rows, List.mem_insertionSort, List.mem_filter, Table.mem_def]
  simp [and_assoc]

theorem dispatchHost_id {row : AdvisorInventoryHost} {host : DispatchHost}
    (h : dispatchHost postgres satellites row = .ok host) : host.inventoryId = row.inventoryId := by
  simp only [dispatchHost, bind_eq_ok, pure, Except.pure, Except.ok.injEq] at h
  obtain ⟨_, -, _, -, _, -, rfl⟩ := h
  rfl

theorem queryHosts_ids {hosts : List DispatchHost} (h : request.queryHosts postgres satellites s = .ok hosts) :
    hosts.map (·.inventoryId) = (request.rows s).map (·.inventoryId) := by
  have hall := mapM_forall₂ h
  clear h
  generalize request.rows s = rows at hall
  induction hall with
  | nil => rfl
  | cons hrow _ ih => rw [List.map_cons, List.map_cons, dispatchHost_id hrow, ih]

theorem reaches_iff {hosts : List DispatchHost} (h : request.queryHosts postgres satellites s = .ok hosts) (id : Uuid) :
    request.Reaches s id ↔ id ∈ hosts.map (·.inventoryId) := by
  rw [queryHosts_ids h, List.mem_map]
  constructor
  · rintro ⟨hid, row, hrow, hkey, hvisible⟩
    obtain ⟨horg, hinventory⟩ := Prod.mk.inj hkey
    exact ⟨row, mem_rows.mpr ⟨hrow, hvisible, horg, hinventory ▸ hid⟩, hinventory⟩
  · rintro ⟨row, hrow, rfl⟩
    obtain ⟨hmem, hvisible, horg, hid⟩ := mem_rows.mp hrow
    exact ⟨hid, row, hmem, Prod.ext horg rfl, hvisible⟩

theorem exchanges_hosts (execution : Execution) (services : Services) :
    (execution.exchanges services).flatMap (·.hosts) = execution.hosts := by
  unfold Execution.exchanges
  cases execution.task.type with
  | script => simp [List.flatMap_map]
  | ansible =>
    simp only [List.flatMap_map]
    exact List.flatMap_id.trans (toChunks_flatten execution.batchSize execution.hosts)

/-- Where each host has a client the answers are all accepted, and come together in the order of the hosts. -/
theorem answered (h : Answers services execution answer)
    (hclients : ∀ host ∈ execution.hosts, host.effectiveRhcClientId ≠ none) :
    (∀ exchange ∈ execution.exchanges services, exchange.Accepted) ∧
      execution.entries services = execution.hosts.map fun host => answer host.inventoryId := by
  have hreachable : ∀ exchange ∈ execution.exchanges services, exchange.Reachable := by
    intro exchange hexchange host hhost
    refine hclients host ?_
    rw [← exchanges_hosts execution services]
    exact List.mem_flatMap.mpr ⟨exchange, hexchange, hhost⟩
  suffices hanswers : (∀ exchange ∈ execution.exchanges services, exchange.answers ≠ none) ∧
      execution.entries services = execution.hosts.map fun host => answer host.inventoryId by
    exact ⟨fun exchange hexchange => ⟨hreachable exchange hexchange, hanswers.1 exchange hexchange⟩, hanswers.2⟩
  unfold Execution.entries Execution.exchanges
  cases htype : execution.task.type with
  | script =>
    have hconnector := h.connector htype
    refine ⟨by simp, ?_⟩
    simp only [List.flatMap_map, Option.getD_some]
    rw [← List.map_eq_flatMap, List.map_congr_left hconnector]
  | ansible =>
    have hdispatcher := h.dispatcher htype
    refine ⟨?_, ?_⟩
    · intro exchange hexchange
      obtain ⟨batch, hbatch, rfl⟩ := List.mem_map.mp hexchange
      obtain ⟨hcode, hbody⟩ := hdispatcher batch hbatch
      simp [hcode, hbody]
    · have hentries : ∀ batch ∈ execution.batches,
          ((if (services.dispatcher batch).statusCode = 207 then (services.dispatcher batch).body else none).getD []) =
            batch.map fun host => answer host.inventoryId := by
        intro batch hbatch
        obtain ⟨hcode, hbody⟩ := hdispatcher batch hbatch
        rw [if_pos hcode, hbody, Option.getD_some]
      simp only [List.flatMap_map]
      calc execution.batches.flatMap _
          = execution.batches.flatMap (List.map fun host => answer host.inventoryId) := List.flatMap_congr hentries
        _ = (execution.batches.flatten).map fun host => answer host.inventoryId := by
            rw [List.map_flatten, List.flatMap_def]
        _ = execution.hosts.map fun host => answer host.inventoryId := by
            rw [Execution.batches, toChunks_flatten]

end Each

def connectedRow (id : Uuid) (client : Option Uuid) (tags : List Json) : AdvisorInventoryHost where
  orgId := "1234"
  inventoryId := id
  updated := 0
  columns := [("display_name", some (.text "web")), ("rhc_client_id", client.map .uuid), ("tags", some (.json (.list tags)))]

def satelliteTag (key value : String) : Json :=
  .dict [("namespace", .str "satellite"), ("key", .str key), ("value", .str value)]

def twoRows : List AdvisorInventoryHost :=
  [connectedRow 7 (some 8) [],
    connectedRow 9 none [satelliteTag "satellite_instance_id" "357b7360-c0d6-11ec-a1f5-abea1b2200b3"]]

theorem twoRows_unique : (twoRows.map AdvisorInventoryHost.key).Nodup := by decide

def twoSystems : State where
  inventory := ⟨twoRows, twoRows_unique⟩
  tasks := .single sampleTask
  executedTasks := .empty
  jobs := .empty
  storable := storable_empty

def sampleDetails : TaskDetails where
  title _ := "Log4Shell detection"
  parameters _ := []

def samplePostgres : Postgres where
  text := fun
    | .str s => some s
    | _ => none
  uuid text := Uuid.ofText text

def sampleSatellites : SatelliteRhcs where
  rows := .single ⟨((Uuid.ofText "357b7360-c0d6-11ec-a1f5-abea1b2200b3").getD 0), 147, some 10, by decide⟩
  source_unique a ha b hb _ := (Table.mem_single.mp ha).trans (Table.mem_single.mp hb).symm

def sampleSettings : ExecuteSettings where
  site := sampleSite
  batchSize := 1
  batchSize_pos := Nat.one_pos

def twoRequested : ExecuteRequest where
  slug := "log4shell"
  hosts := [9, 7, 9]
  parameters := none
  name := none
  orgId := "1234"
  user := "admin"
  visible _ := true

def sampleCreated (id : Uuid) : RunCreated := if id = 7 then ⟨201, some 1⟩ else ⟨404, none⟩

def sampleServices : Services where
  dispatcher batch := ⟨batch.filterMap fun host => (sampleCreated host.inventoryId).id, 207,
    some (batch.map fun host => sampleCreated host.inventoryId)⟩
  connector host := ⟨1, host.inventoryId = 7, (sampleCreated host.inventoryId).code⟩

end Advisor.Tasks
