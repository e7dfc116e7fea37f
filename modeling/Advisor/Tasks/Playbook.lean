import Mathlib.Data.List.Sort
import Advisor.Python.Url
import Advisor.Tasks.Aggregate
import Advisor.Tasks.Create

/-! The URL a host gets its playbook from, and the endpoint it leads to: which executed task and
which Satellite host the playbook is filled in for. -/

namespace Advisor.Tasks

open Python Procedure Django Relational

/-- The host name in the settings and the paths that `reverse` gives. -/
structure Site where
  hostname : String
  reverse : String → String
  plain : ∀ slug, ∀ c ∈ ("https://" ++ hostname ++ reverse slug).toList, c ≠ '?' ∧ c ≠ '#'

def Site.playbookUrl (site : Site) (slug : String) : String := "https://" ++ site.hostname ++ site.reverse slug

/-- The token is only added if the executed task has set parameters. -/
def Site.playbookScriptUrl (site : Site) (slug : String) (token : Uuid) (hasParameters : Bool) : String :=
  if hasParameters then site.playbookUrl slug ++ "?token=" ++ token.toText else site.playbookUrl slug

def Execution.addressed (execution : Execution) (site : Site) (token : Uuid)
    (parameters : List ExecutedTaskParameter) : Execution :=
  { execution with url := site.playbookScriptUrl execution.task.slug token (!parameters.isEmpty) }

/-- The columns of an executed task that only its playbook needs, with the parameters stored for it. -/
structure TokenRow where
  token : Uuid
  executedTask : Nat
  parameters : List ExecutedTaskParameter
  deriving DecidableEq

/-- What the playbook endpoint reads besides the jobs; `playbook` is the first play of a task's playbook. -/
structure Catalogue where
  playbook : Nat → Json
  taskParameters : Table TaskParameter.id
  tokens : Table TokenRow.token
  known : ∀ row ∈ tokens, ∀ stored ∈ row.parameters, (taskParameters.get? stored.parameter).isSome

def Catalogue.key? (catalogue : Catalogue) (stored : ExecutedTaskParameter) : Option String :=
  (catalogue.taskParameters.get? stored.parameter).map (·.key)

def Catalogue.parametersOf (catalogue : Catalogue) (row : TokenRow) : List (String × String) :=
  let joined := row.parameters.filterMap fun stored =>
    (catalogue.taskParameters.get? stored.parameter).map fun parameter => (parameter, stored.value)
  (joined.insertionSort fun a b => a.1.index ≤ b.1.index).map fun (parameter, value) => (parameter.key, value)

inductive PlaybookResponse where
  | notFound
  | nothing
  | content (play : Json) (changed : Bool)

def hostnameOf (host : Json) : Except Exception Json := do
  let ansibleHost ← host.item "ansible_host"
  if ansibleHost.truthy then return ansibleHost else host.item "fqdn"

def setContentVar (play : Json) (parameter : String × String) : Except Exception Json := do
  let vars ← play.item "vars"
  let contentVars ← vars.item "content_vars"
  let contentVars ← contentVars.setItem parameter.1 (.str parameter.2)
  play.setItem "vars" (← vars.setItem "content_vars" contentVars)

def fillContentVars (play : Json) (parameters : List (String × String)) : Except Exception (Json × Bool) := do
  let vars ← play.item "vars"
  let present ← vars.hasKey "content_vars"
  let start ← if present then .ok play else do play.setItem "vars" (← vars.setItem "content_vars" (.dict []))
  let filled ← parameters.foldlM setContentVar start
  return (filled, !present || !parameters.isEmpty)

section Endpoint

variable (quoting : Quoting) (catalogue : Catalogue) (inventory : String → Nat × Json)

def State.runningJobs (s : State) (task : Task) (system : Uuid) : List Job :=
  s.joined (s.jobs.rows.filter fun job =>
    (s.executedTasks.get? job.executedTask).any (fun extask => extask.task = task.id) &&
      job.status = .running && job.systemId = system)

/-- Only a single running job is the one the playbook is requested for. -/
def logInventoryId (inventoryId : String) : List Job → Run Unit
  | [job] => job.newLog true ("Playbook requested (identified by inventory ID " ++ inventoryId ++ ")")
  | _ => pure ()

/-- The part of the endpoint for an inventory id: the play is for the host that the inventory has under it. -/
def playForHost (task : Task) (play : Json) (hasRunId : Bool) (inventoryId : String) : Run (Option Json) :=
  match inventory inventoryId with
  | (200, body) => do
    let results ← lift (body.item "results")
    let host ← lift results.first
    let hostname ← lift (hostnameOf host)
    let forHost ← lift (play.setItem "hosts" (.list [hostname]))
    if !hasRunId then
      let system ← lift (uuidOf (.str inventoryId))
      let jobs ← read fun s => s.runningJobs task system
      logInventoryId inventoryId jobs
    return some forHost
  | _ => return none

def playForToken (task : Task) (play : Json) (token : String) : Run (Json × Bool) := do
  let u ← lift (uuidOf (.str token))
  let found ← read fun s => (catalogue.tokens.get? u).filter fun row =>
    (s.executedTasks.get? row.executedTask).any fun extask => extask.task = task.id
  match found with
  | some row => lift (fillContentVars play (catalogue.parametersOf row))
  | none => return (play, false)

def logRunId (runId : String) : Run Unit := do
  let found ← fun s => (s.jobWithRunId (.str runId), s)
  match found with
  | some job => job.newLog true ("Playbook requested (run ID " ++ runId ++ ")")
  | none => return ()

def given (params : List (String × String)) (name : String) : Option String :=
  (param params name).filter (· ≠ "")

def locatedPlay (task : Task) (params : List (String × String)) : Run (Option Json) :=
  match given params "inventory_id" with
  | some inventoryId =>
    playForHost inventory task (catalogue.playbook task.id) (given params "run_id").isSome inventoryId
  | none => pure (some (catalogue.playbook task.id))

def filledPlay (task : Task) (params : List (String × String)) (play : Json) : Run (Json × Bool) :=
  match given params "token" with
  | some token => playForToken catalogue task play token
  | none => pure (play, false)

def logAccess (params : List (String × String)) : Run Unit :=
  match given params "run_id" with
  | some runId => logRunId runId
  | none => pure ()

def playbook (slug : String) (params : List (String × String)) : Run PlaybookResponse := do
  let found ← read fun s => s.tasks.rows.find? fun task => task.slug = slug
  match found with
  | none => return .notFound
  | some task => do
    let located ← locatedPlay catalogue inventory task params
    match located with
    | none => return .nothing
    | some play => do
      let (filled, changed) ← filledPlay catalogue task params play
      logAccess params
      return .content filled ((given params "inventory_id").isSome || changed)

end Endpoint

def contentVar? (play : Json) (key : String) : Option Json := do
  let vars ← play.field? "vars"
  let contentVars ← vars.field? "content_vars"
  contentVars.field? key

def Signed (play : Json) : Prop :=
  ∃ items vars, play = .dict items ∧ items.lookup "vars" = some (.dict vars) ∧
    ∀ contentVars, vars.lookup "content_vars" = some contentVars → ∃ c, contentVars = .dict c

def Fillable (play : Json) : Prop :=
  ∃ items vars contentVars, play = .dict items ∧ items.lookup "vars" = some (.dict vars) ∧
    vars.lookup "content_vars" = some (.dict contentVars)

theorem param_cons (p : String × String) (params : List (String × String)) (key : String) :
    param (p :: params) key = (param params key).or (if key = p.1 then some p.2 else none) := by
  obtain ⟨k, v⟩ := p
  rw [param, List.reverse_cons, List.lookup_append]
  by_cases hk : key = k
  · simp [param, hk]
  · simp [param, List.lookup_cons, beq_false_of_ne hk, hk]

theorem setContentVar_fillable {play : Json} (h : Fillable play) (parameter : String × String) :
    ∃ play', setContentVar play parameter = .ok play' ∧ Fillable play' ∧
      (∀ key, contentVar? play' key = if key = parameter.1 then some (.str parameter.2) else contentVar? play key) ∧
      play'.field? "hosts" = play.field? "hosts" := by
  obtain ⟨items, vars, contentVars, rfl, hvars, hcontent⟩ := h
  let contentVars' := Json.setKey parameter.1 (.str parameter.2) contentVars
  let vars' := Json.setKey "content_vars" (.dict contentVars') vars
  refine ⟨.dict (Json.setKey "vars" (.dict vars') items), ?_, ⟨_, vars', contentVars', rfl, ?_, ?_⟩, ?_, ?_⟩
  · simp only [setContentVar, Json.item, hvars, hcontent, Json.setItem, bind, Except.bind]
    rfl
  · rw [Json.lookup_setKey, if_pos rfl]
  · rw [Json.lookup_setKey, if_pos rfl]
  · intro key
    simp [contentVar?, Json.field?, Json.lookup_setKey, vars', contentVars', hvars, hcontent]
  · simp [Json.field?, Json.lookup_setKey]

theorem foldlM_setContentVar {play : Json} (h : Fillable play) (parameters : List (String × String)) :
    ∃ play', parameters.foldlM setContentVar play = .ok play' ∧
      (∀ key, contentVar? play' key = ((param parameters key).map Json.str).or (contentVar? play key)) ∧
      play'.field? "hosts" = play.field? "hosts" := by
  induction parameters generalizing play with
  | nil => exact ⟨play, rfl, fun key => rfl, rfl⟩
  | cons p rest ih =>
    obtain ⟨next, hnext, hfillable, hvar, hhosts⟩ := setContentVar_fillable h p
    obtain ⟨play', hplay', hvar', hhosts'⟩ := ih hfillable
    refine ⟨play', ?_, ?_, hhosts'.trans hhosts⟩
    · rw [List.foldlM_cons, hnext]
      exact hplay'
    · intro key
      rw [hvar', hvar, param_cons]
      by_cases hk : key = p.1
      · cases hrest : param rest key <;> simp [hk]
      · cases hrest : param rest key <;> simp [hk]

theorem fillContentVars_signed {play : Json} (h : Signed play) (parameters : List (String × String)) :
    ∃ play' changed, fillContentVars play parameters = .ok (play', changed) ∧
      (∀ key, contentVar? play' key = ((param parameters key).map Json.str).or (contentVar? play key)) ∧
      play'.field? "hosts" = play.field? "hosts" := by
  obtain ⟨items, vars, rfl, hvars, hcontent⟩ := h
  have hitem : (Json.dict items).item "vars" = .ok (.dict vars) := by simp [Json.item, hvars]
  cases hfound : vars.lookup "content_vars" with
  | some contentVars =>
    obtain ⟨c, rfl⟩ := hcontent contentVars hfound
    obtain ⟨play', hplay', hvar, hhosts⟩ := foldlM_setContentVar ⟨items, vars, c, rfl, hvars, hfound⟩ parameters
    refine ⟨play', !parameters.isEmpty, ?_, hvar, hhosts⟩
    simp only [fillContentVars, hitem, Json.hasKey, hfound, Option.isSome_some, if_true, bind, Except.bind,
      hplay', Bool.not_true, Bool.false_or]
    rfl
  | none =>
    let vars' := Json.setKey "content_vars" (.dict []) vars
    let start := Json.dict (Json.setKey "vars" (.dict vars') items)
    have hfillable : Fillable start :=
      ⟨_, vars', [], rfl, by rw [Json.lookup_setKey, if_pos rfl], by rw [Json.lookup_setKey, if_pos rfl]⟩
    obtain ⟨play', hplay', hvar, hhosts⟩ := foldlM_setContentVar hfillable parameters
    refine ⟨play', true, ?_, ?_, ?_⟩
    · simp only [fillContentVars, hitem, Json.hasKey, hfound, Option.isSome_none, Json.setItem, bind, Except.bind,
        Bool.false_eq_true, if_false]
      rw [show Json.dict (Json.setKey "vars" (.dict (Json.setKey "content_vars" (.dict []) vars)) items) = start
        from rfl, hplay']
      rfl
    · intro key
      rw [hvar]
      simp [contentVar?, Json.field?, Json.lookup_setKey, start, vars', hvars, hfound]
    · rw [hhosts]
      simp [Json.field?, Json.lookup_setKey, start]

def Knows (inventory : String → Nat × Json) (id : Uuid) (hostname : Json) : Prop :=
  ∃ body results host, inventory id.toText = (200, body) ∧ body.item "results" = .ok results ∧
    results.first = .ok host ∧ hostnameOf host = .ok hostname

theorem logInventoryId_quiet (id : Uuid) (jobs : List Job) (s : State) :
    ∃ s', logInventoryId id.toText jobs s = (.ok (), s') ∧ Quiet s s' := by
  rcases jobs with _ | ⟨job, _ | ⟨other, rest⟩⟩
  · exact ⟨s, rfl, .refl s⟩
  · refine newLog_of_le job true s ?_
    rw [String.length_append, String.length_append, Uuid.toText_length]
    decide
  · exact ⟨s, rfl, .refl s⟩

theorem playForHost_known {inventory : String → Nat × Json} {id : Uuid} {hostname : Json}
    (h : Knows inventory id hostname) (task : Task) (items : List (String × Json)) (s : State) :
    ∃ s', playForHost inventory task (.dict items) false id.toText s =
        (.ok (some (.dict (Json.setKey "hosts" (.list [hostname]) items))), s') ∧ Quiet s s' := by
  obtain ⟨body, results, host, hanswer, hresults, hfirst, hhostname⟩ := h
  have hsystem : uuidOf (.str id.toText) = .ok id := by simp only [uuidOf, Uuid.ofText_toText]
  obtain ⟨s', hlog, hquiet⟩ := logInventoryId_quiet id (s.runningJobs task id) s
  refine ⟨s', ?_, hquiet⟩
  simp only [playForHost, hanswer, hresults, hfirst, hhostname, hsystem, Json.setItem, lift_ok_bind,
    Bool.not_false, if_true, read_bind]
  exact bind_of_ok hlog

theorem playForToken_found {catalogue : Catalogue} {row : TokenRow} (hrow : row ∈ catalogue.tokens)
    {task : Task} {s : State} {extask : ExecutedTask} (hextask : s.executedTasks.get? row.executedTask = some extask)
    (htask : extask.task = task.id) (play : Json) :
    playForToken catalogue task play row.token.toText s =
      (fillContentVars play (catalogue.parametersOf row), s) := by
  have htoken : uuidOf (.str row.token.toText) = .ok row.token := by simp only [uuidOf, Uuid.ofText_toText]
  have hget : catalogue.tokens.get? row.token = some row := Table.get?_eq_some.mpr ⟨hrow, rfl⟩
  simp only [playForToken, htoken, lift_ok_bind, read_bind, hget, Option.filter, hextask, Option.any_some, htask,
    decide_true, if_true]
  rfl

/-- The playbook a host gets has the stored parameters as content variables, besides those the template
sets, and is for the Satellite host if there is one. -/
structure Fits (catalogue : Catalogue) (row : TokenRow) (template play : Json) (hostname : Option Json) : Prop where
  stored : ∀ p ∈ row.parameters, ∃ key, catalogue.key? p = some key ∧ contentVar? play key = some (.str p.value)
  others : ∀ key, (∀ p ∈ row.parameters, catalogue.key? p ≠ some key) → contentVar? play key = contentVar? template key
  hosts : play.field? "hosts" = hostname.elim (template.field? "hosts") fun h => some (.list [h])

/-- A URL that says of a host, and of the executed task it runs, what the playbook endpoint needs to know. -/
structure RightUrl (quoting : Quoting) (catalogue : Catalogue) (inventory : String → Nat × Json) (s : State)
    (task : Task) (row : TokenRow) (host : DispatchHost) (hostname : Json) (url : String) : Prop where
  token : param (queryParams quoting url) "token" = if row.parameters = [] then none else some row.token.toText
  inventoryId : param (queryParams quoting url) "inventory_id" =
    if Execution.behindSatellite host then some host.inventoryId.toText else none
  served : ∃ play changed s',
    playbook catalogue inventory task.slug (queryParams quoting url) s = (.ok (.content play changed), s') ∧
      Fits catalogue row (catalogue.playbook task.id) play
        (if Execution.behindSatellite host then some hostname else none)

def Catalogue.OneValue (catalogue : Catalogue) (row : TokenRow) : Prop :=
  ∀ p ∈ row.parameters, ∀ q ∈ row.parameters, catalogue.key? p = catalogue.key? q → p.value = q.value

theorem mem_parametersOf {catalogue : Catalogue} {row : TokenRow} {key value : String} :
    (key, value) ∈ catalogue.parametersOf row ↔
      ∃ p ∈ row.parameters, catalogue.key? p = some key ∧ p.value = value := by
  simp only [Catalogue.parametersOf, List.mem_map, List.mem_insertionSort, List.mem_filterMap, Option.map_eq_some_iff,
    Catalogue.key?]
  constructor
  · rintro ⟨_, ⟨stored, hs, parameter, hget, rfl⟩, heq⟩
    obtain ⟨rfl, rfl⟩ := Prod.mk.inj heq
    exact ⟨stored, hs, ⟨parameter, hget, rfl⟩, rfl⟩
  · rintro ⟨stored, hs, ⟨parameter, hget, rfl⟩, rfl⟩
    exact ⟨_, ⟨stored, hs, parameter, hget, rfl⟩, rfl⟩

theorem mem_of_param {params : List (String × String)} {key value : String} (h : param params key = some value) :
    (key, value) ∈ params := by
  induction params with
  | nil => cases h
  | cons p rest ih =>
    rw [param_cons] at h
    cases hrest : param rest key with
    | some v =>
      rw [hrest] at h
      obtain rfl := Option.some.inj h
      exact List.mem_cons_of_mem _ (ih hrest)
    | none =>
      rw [hrest] at h
      by_cases hk : key = p.1
      · simp only [hk, if_true, Option.none_or, Option.some.injEq] at h
        simp [hk, ← h]
      · simp [hk] at h

theorem param_isSome {params : List (String × String)} {key value : String} (h : (key, value) ∈ params) :
    ∃ v, param params key = some v := by
  induction params with
  | nil => cases h
  | cons p rest ih =>
    rw [param_cons]
    rcases List.mem_cons.mp h with rfl | hr
    · cases hrest : param rest key with
      | some v => exact ⟨v, rfl⟩
      | none => exact ⟨value, by simp⟩
    · obtain ⟨v, hv⟩ := ih hr
      exact ⟨v, by rw [hv]; rfl⟩

/-- A play filled parameter by parameter fits exactly if it need not hold two values under one key. -/
theorem fits_iff {catalogue : Catalogue} {row : TokenRow} (hrow : row ∈ catalogue.tokens) {template play : Json}
    {hostname : Option Json}
    (hvar : ∀ key, contentVar? play key =
      ((param (catalogue.parametersOf row) key).map Json.str).or (contentVar? template key))
    (hhosts : play.field? "hosts" = hostname.elim (template.field? "hosts") fun h => some (.list [h])) :
    Fits catalogue row template play hostname ↔ catalogue.OneValue row := by
  constructor
  · intro hfits p hp q hq hkeys
    obtain ⟨key, hkey, hval⟩ := hfits.stored p hp
    obtain ⟨key', hkey', hval'⟩ := hfits.stored q hq
    obtain rfl : key = key' := by
      rw [hkeys, hkey'] at hkey
      exact (Option.some.inj hkey).symm
    rw [hval] at hval'
    simpa using hval'
  · intro hone
    refine ⟨?_, ?_, hhosts⟩
    · intro p hp
      obtain ⟨parameter, hparameter⟩ := Option.isSome_iff_exists.mp (catalogue.known row hrow p hp)
      have hkey : catalogue.key? p = some parameter.key := by rw [Catalogue.key?, hparameter]; rfl
      refine ⟨parameter.key, hkey, ?_⟩
      obtain ⟨v, hv⟩ := param_isSome (mem_parametersOf.mpr ⟨p, hp, hkey, rfl⟩)
      obtain ⟨q, hq, hqkey, rfl⟩ := mem_parametersOf.mp (mem_of_param hv)
      rw [hvar, hv, hone p hp q hq (hkey.trans hqkey.symm)]
      rfl
    · intro key hkey
      have hnone : param (catalogue.parametersOf row) key = none := by
        cases hv : param (catalogue.parametersOf row) key with
        | none => rfl
        | some v =>
          obtain ⟨p, hp, hpkey, -⟩ := mem_parametersOf.mp (mem_of_param hv)
          exact absurd hpkey (hkey p hp)
      rw [hvar, hnone]
      rfl

theorem literal_toText (u : Uuid) : Literal u.toText.toList := by
  have hall : Literal Uuid.hexDigits := literal_of_all (by decide)
  intro c hc
  rcases Uuid.mem_toText hc with h | rfl
  · exact hall c h
  · decide

section Urls

variable (quoting : Quoting) (site : Site) (slug : String)

theorem queryParams_playbookUrl : queryParams quoting (site.playbookUrl slug) = [] := by
  rw [queryParams, Site.playbookUrl, queryPart_base (site.plain slug)]
  rfl

theorem queryParams_named (name : String) {value : String} (hname : Literal name.toList)
    (heq : '=' ∉ name.toList) (hvalue : Literal value.toList) :
    queryParams quoting (site.playbookUrl slug ++ "?" ++ name ++ "=" ++ value) = [(name, value)] := by
  have hquery : Literal (name.toList ++ '=' :: value.toList) := by
    refine hname.append ?_
    intro c hc
    rcases List.mem_cons.mp hc with rfl | h
    · decide
    · exact hvalue c h
  have htext : (site.playbookUrl slug ++ "?" ++ name ++ "=" ++ value).toList =
      ("https://" ++ site.hostname ++ site.reverse slug).toList ++ '?' :: (name.toList ++ '=' :: value.toList) := by
    simp [Site.playbookUrl, String.toList_append]
  rw [queryParams, htext, queryPart_append (site.plain slug) hquery, queryDict_single quoting hname hvalue heq]
  simp

end Urls

theorem given_toText {params : List (String × String)} {name : String} {u : Uuid}
    (h : param params name = some u.toText) : given params name = some u.toText := by
  have hne : u.toText ≠ "" := by
    intro hempty
    have hlen := u.toText_length
    rw [hempty] at hlen
    exact absurd hlen (by decide)
  simp [given, h, Option.filter, hne]

theorem given_none {params : List (String × String)} {name : String} (h : param params name = none) :
    given params name = none := by
  rw [given, h]
  rfl

section Served

variable {catalogue : Catalogue} {inventory : String → Nat × Json} {s : State} {task : Task} {row : TokenRow}
  {extask : ExecutedTask} {host : DispatchHost} {hostname : Json} {params : List (String × String)}

theorem locatedPlay_eq (hsigned : Signed (catalogue.playbook task.id))
    (hknows : Knows inventory host.inventoryId hostname)
    (hinventory : param params "inventory_id" =
      if Execution.behindSatellite host then some host.inventoryId.toText else none)
    (hrun : param params "run_id" = none) :
    ∃ play s', locatedPlay catalogue inventory task params s = (.ok (some play), s') ∧ Quiet s s' ∧ Signed play ∧
      (∀ key, contentVar? play key = contentVar? (catalogue.playbook task.id) key) ∧
      play.field? "hosts" = (if Execution.behindSatellite host then some hostname else none).elim
        ((catalogue.playbook task.id).field? "hosts") fun h => some (.list [h]) := by
  cases hsat : Execution.behindSatellite host with
  | false =>
    rw [hsat] at hinventory
    refine ⟨catalogue.playbook task.id, s, ?_, .refl s, hsigned, fun _ => rfl, rfl⟩
    rw [locatedPlay, given_none hinventory]
    rfl
  | true =>
    rw [hsat, if_pos rfl] at hinventory
    obtain ⟨items, vars, hitems, hvars, hcontent⟩ := hsigned
    obtain ⟨s', hs', hquiet⟩ := playForHost_known hknows task items s
    refine ⟨.dict (Json.setKey "hosts" (.list [hostname]) items), s', ?_, hquiet, ⟨_, vars, rfl, ?_, hcontent⟩, ?_, ?_⟩
    · rw [locatedPlay, given_toText hinventory, given_none hrun, hitems]
      exact hs'
    · rw [Json.lookup_setKey, if_neg (by decide), hvars]
    · intro key
      simp [contentVar?, Json.field?, Json.lookup_setKey, hitems]
    · simp [Json.field?, Json.lookup_setKey]

theorem filledPlay_eq (hrow : row ∈ catalogue.tokens) (hextask : s.executedTasks.get? row.executedTask = some extask)
    (htask : extask.task = task.id)
    (htoken : param params "token" = if row.parameters = [] then none else some row.token.toText)
    {play : Json} (hsigned : Signed play) :
    ∃ filled changed, filledPlay catalogue task params play s = (.ok (filled, changed), s) ∧
      (∀ key, contentVar? filled key =
        ((param (catalogue.parametersOf row) key).map Json.str).or (contentVar? play key)) ∧
      filled.field? "hosts" = play.field? "hosts" := by
  by_cases hempty : row.parameters = []
  · rw [if_pos hempty] at htoken
    refine ⟨play, false, ?_, ?_, rfl⟩
    · rw [filledPlay, given_none htoken]
      rfl
    · intro key
      have hnone : catalogue.parametersOf row = [] := by simp [Catalogue.parametersOf, hempty]
      rw [hnone]
      rfl
  · rw [if_neg hempty] at htoken
    obtain ⟨filled, changed, hfilled, hvar, hhosts⟩ := fillContentVars_signed hsigned (catalogue.parametersOf row)
    refine ⟨filled, changed, ?_, hvar, hhosts⟩
    rw [filledPlay, given_toText htoken]
    dsimp only
    rw [playForToken_found hrow hextask htask, hfilled]

theorem playbook_served (hslug : s.tasks.rows.find? (fun t => t.slug = task.slug) = some task)
    (hrow : row ∈ catalogue.tokens) (hextask : s.executedTasks.get? row.executedTask = some extask)
    (htask : extask.task = task.id) (hsigned : Signed (catalogue.playbook task.id))
    (hknows : Knows inventory host.inventoryId hostname)
    (htoken : param params "token" = if row.parameters = [] then none else some row.token.toText)
    (hinventory : param params "inventory_id" =
      if Execution.behindSatellite host then some host.inventoryId.toText else none)
    (hrun : param params "run_id" = none) :
    ∃ play changed s', playbook catalogue inventory task.slug params s = (.ok (.content play changed), s') ∧
      (Fits catalogue row (catalogue.playbook task.id) play
        (if Execution.behindSatellite host then some hostname else none) ↔ catalogue.OneValue row) := by
  obtain ⟨play, s', hlocated, hquiet, hplay, hvar, hhosts⟩ :=
    locatedPlay_eq (s := s) hsigned hknows hinventory hrun
  obtain ⟨filled, changed, hfilled, hvar', hhosts'⟩ :=
    filledPlay_eq hrow (by rw [hquiet.executedTasks, hextask]) htask htoken hplay
  refine ⟨filled, (given params "inventory_id").isSome || changed, s', ?_, ?_⟩
  · rw [playbook, read_bind, hslug]
    dsimp only
    rw [bind_of_ok hlocated]
    dsimp only
    rw [bind_of_ok hfilled]
    dsimp only
    rw [logAccess, given_none hrun]
    rfl
  · exact fits_iff hrow (fun key => by rw [hvar', hvar]) (hhosts'.trans hhosts)

end Served

/-- Only the dispatcher of playbooks appends the id of a host, and only for one behind a Satellite. -/
def Execution.named (execution : Execution) (host : DispatchHost) : Prop :=
  execution.task.type = .ansible ∧ Execution.behindSatellite host = true

theorem dispatchedUrl_cases {execution : Execution} {host : DispatchHost} {url : String}
    (h : execution.dispatchedUrl host = .ok url) :
    (execution.named host ∧ url = execution.url ++ "?inventory_id=" ++ host.inventoryId.toText) ∨
      (¬ execution.named host ∧ url = execution.url) := by
  unfold Execution.named
  cases hclient : host.effectiveRhcClientId with
  | none =>
    cases htype : execution.task.type <;>
      simp [Execution.dispatchedUrl, htype, Execution.connectorMessage, Execution.dispatchRun, hclient,
        Except.map] at h
  | some recipient =>
    cases htype : execution.task.type with
    | script =>
      simp only [Execution.dispatchedUrl, htype, Execution.connectorMessage, hclient, Except.map,
        Except.ok.injEq] at h
      simp [← h]
    | ansible =>
      cases hsat : Execution.behindSatellite host <;>
        simp only [Execution.dispatchedUrl, htype, Execution.dispatchRun, hclient, hsat, Except.map, if_true,
          Bool.false_eq_true, if_false, Except.ok.injEq] at h <;>
        simp [← h]

/-- The query part that the request and the dispatch of a host have appended. -/
inductive Appended (execution : Execution) (row : TokenRow) (host : DispatchHost) :
    List (String × String) → Prop where
  | nothing (h : row.parameters = []) (hid : ¬ execution.named host) : Appended execution row host []
  | token (h : row.parameters ≠ []) (hid : ¬ execution.named host) :
      Appended execution row host [("token", row.token.toText)]
  | inventoryId (h : row.parameters = []) (hid : execution.named host) :
      Appended execution row host [("inventory_id", host.inventoryId.toText)]
  | both (h : row.parameters ≠ []) (hid : execution.named host) :
      Appended execution row host [("token", row.token.toText ++ "?inventory_id=" ++ host.inventoryId.toText)]

theorem queryParams_appended (quoting : Quoting) {site : Site} {execution : Execution} {row : TokenRow}
    {host : DispatchHost} {url : String}
    (hurl : (execution.addressed site row.token row.parameters).dispatchedUrl host = .ok url) :
    Appended execution row host (queryParams quoting url) := by
  let base := site.playbookUrl execution.task.slug
  have htoken : Literal "token".toList ∧ '=' ∉ "token".toList := ⟨literal_of_all (by decide), by decide⟩
  have hid : Literal "inventory_id".toList ∧ '=' ∉ "inventory_id".toList :=
    ⟨literal_of_all (by decide), by decide⟩
  have hnoToken (h : row.parameters = []) :
      (execution.addressed site row.token row.parameters).url = base := by
    simp [Execution.addressed, Site.playbookScriptUrl, h, base]
  have hwithToken (h : row.parameters ≠ []) :
      (execution.addressed site row.token row.parameters).url = base ++ "?token=" ++ row.token.toText := by
    simp [Execution.addressed, Site.playbookScriptUrl, h, base]
  rcases dispatchedUrl_cases hurl with ⟨hnamed, rfl⟩ | ⟨hnamed, rfl⟩
  · by_cases hempty : row.parameters = []
    · rw [hnoToken hempty, show base ++ "?inventory_id=" ++ host.inventoryId.toText =
          base ++ "?" ++ "inventory_id" ++ "=" ++ host.inventoryId.toText by simp [String.append_assoc],
        queryParams_named quoting site _ "inventory_id" hid.1 hid.2 (literal_toText host.inventoryId)]
      exact .inventoryId hempty hnamed
    · have hvalue : Literal (row.token.toText ++ "?inventory_id=" ++ host.inventoryId.toText).toList := by
        rw [String.toList_append, String.toList_append]
        exact ((literal_toText _).append (literal_of_all (by decide))).append (literal_toText _)
      rw [hwithToken hempty, show base ++ "?token=" ++ row.token.toText ++ "?inventory_id=" ++ host.inventoryId.toText =
          base ++ "?" ++ "token" ++ "=" ++ (row.token.toText ++ "?inventory_id=" ++ host.inventoryId.toText) by
          simp [String.append_assoc],
        queryParams_named quoting site _ "token" htoken.1 htoken.2 hvalue]
      exact .both hempty hnamed
  · by_cases hempty : row.parameters = []
    · rw [hnoToken hempty, queryParams_playbookUrl]
      exact .nothing hempty hnamed
    · rw [hwithToken hempty, show base ++ "?token=" ++ row.token.toText =
          base ++ "?" ++ "token" ++ "=" ++ row.token.toText by simp [String.append_assoc],
        queryParams_named quoting site _ "token" htoken.1 htoken.2 (literal_toText row.token)]
      exact .token hempty hnamed

/-- A Satellite host is left to the playbook dispatcher to name, in a URL that has no query yet. -/
def Unambiguous (execution : Execution) (row : TokenRow) (host : DispatchHost) : Prop :=
  Execution.behindSatellite host = true → execution.task.type = .ansible ∧ row.parameters = []

/-- A URL with the parameters a host is to have is right if what is stored has one value for each of them. -/
theorem rightUrl_of_params {quoting : Quoting} {catalogue : Catalogue} {inventory : String → Nat × Json} {s : State}
    {task : Task} {row : TokenRow} {extask : ExecutedTask} {host : DispatchHost} {hostname : Json} {url : String}
    (hfind : s.tasks.rows.find? (fun t => t.slug = task.slug) = some task) (hrow : row ∈ catalogue.tokens)
    (hextask : s.executedTasks.get? row.executedTask = some extask) (htask : extask.task = task.id)
    (hsigned : Signed (catalogue.playbook task.id)) (hknows : Knows inventory host.inventoryId hostname)
    (htoken : param (queryParams quoting url) "token" = if row.parameters = [] then none else some row.token.toText)
    (hinventory : param (queryParams quoting url) "inventory_id" =
      if Execution.behindSatellite host then some host.inventoryId.toText else none)
    (hrun : param (queryParams quoting url) "run_id" = none) :
    RightUrl quoting catalogue inventory s task row host hostname url ↔ catalogue.OneValue row := by
  obtain ⟨play, changed, s', hserved, hfits⟩ :=
    playbook_served hfind hrow hextask htask hsigned hknows htoken hinventory hrun
  rw [← hfits]
  constructor
  · rintro ⟨-, -, play', changed', s'', hserved', hfits'⟩
    rw [hserved] at hserved'
    obtain rfl : play = play' := by
      have hresult := congrArg Prod.fst hserved'
      simp only [Except.ok.injEq, PlaybookResponse.content.injEq] at hresult
      exact hresult.1
    exact hfits'
  · intro hfits'
    exact ⟨htoken, hinventory, play, changed, s', hserved, hfits'⟩

/-- A host gets a URL with the right parameters exactly if they are not appended twice or, for a Satellite
host of a script, not at all. -/
theorem rightUrl_iff {quoting : Quoting} {site : Site} {catalogue : Catalogue} {inventory : String → Nat × Json}
    {s : State} {execution : Execution} {row : TokenRow} {extask : ExecutedTask} {host : DispatchHost}
    {hostname : Json} {url : String}
    (hslug : ∀ task ∈ s.tasks, task.slug = execution.task.slug → task = execution.task)
    (hknown : execution.task ∈ s.tasks) (hrow : row ∈ catalogue.tokens)
    (hextask : s.executedTasks.get? row.executedTask = some extask) (htask : extask.task = execution.task.id)
    (hsigned : Signed (catalogue.playbook execution.task.id))
    (hknows : Knows inventory host.inventoryId hostname)
    (hurl : (execution.addressed site row.token row.parameters).dispatchedUrl host = .ok url) :
    RightUrl quoting catalogue inventory s execution.task row host hostname url ↔
      Unambiguous execution row host ∧ catalogue.OneValue row := by
  have hfind : s.tasks.rows.find? (fun t => t.slug = execution.task.slug) = some execution.task := by
    cases hf : s.tasks.rows.find? fun t => t.slug = execution.task.slug with
    | none => exact absurd (List.find?_eq_none.mp hf _ hknown) (by simp)
    | some found =>
      have hm := List.mem_of_find?_eq_some hf
      have hs := List.find?_some hf
      rw [hslug found hm (by simpa using hs)]
  have hgood (ham : Unambiguous execution row host) (htoken : param (queryParams quoting url) "token" =
        if row.parameters = [] then none else some row.token.toText)
      (hinventory : param (queryParams quoting url) "inventory_id" =
        if Execution.behindSatellite host then some host.inventoryId.toText else none)
      (hrun : param (queryParams quoting url) "run_id" = none) :
      RightUrl quoting catalogue inventory s execution.task row host hostname url ↔
        Unambiguous execution row host ∧ catalogue.OneValue row := by
    rw [rightUrl_of_params hfind hrow hextask htask hsigned hknows htoken hinventory hrun]
    exact (and_iff_right ham).symm
  have hbad (ham : ¬ Unambiguous execution row host)
      (hwrong : ¬ RightUrl quoting catalogue inventory s execution.task row host hostname url) :
      RightUrl quoting catalogue inventory s execution.task row host hostname url ↔
        Unambiguous execution row host ∧ catalogue.OneValue row :=
    ⟨fun h => absurd h hwrong, fun h => absurd h.1 ham⟩
  -- a script's Satellite host is not named at all
  have hunnamed (hid : ¬ execution.named host) (hmissing : param (queryParams quoting url) "inventory_id" = none)
      (hsat : Execution.behindSatellite host = true) :
      RightUrl quoting catalogue inventory s execution.task row host hostname url ↔
        Unambiguous execution row host ∧ catalogue.OneValue row := by
    refine hbad (fun h => hid ⟨(h hsat).1, hsat⟩) fun h => ?_
    have hid := h.inventoryId
    rw [hmissing, if_pos hsat] at hid
    cases hid
  have happended := queryParams_appended quoting hurl
  generalize hparams : queryParams quoting url = params at happended hgood hunnamed
  cases happended with
  | nothing hempty hid =>
    by_cases hsat : Execution.behindSatellite host = true
    · exact hunnamed hid rfl hsat
    · exact hgood (fun h => absurd h hsat) (by rw [if_pos hempty]; rfl) (by rw [if_neg hsat]; rfl) rfl
  | token hne hid =>
    by_cases hsat : Execution.behindSatellite host = true
    · exact hunnamed hid rfl hsat
    · exact hgood (fun h => absurd h hsat) (by rw [if_neg hne]; rfl) (by rw [if_neg hsat]; rfl) rfl
  | inventoryId hempty hid =>
    exact hgood (fun _ => ⟨hid.1, hempty⟩) (by rw [if_pos hempty]; rfl) (by rw [if_pos hid.2]; rfl) rfl
  | both hne hid =>
    refine hbad (fun h => hne (h hid.2).2) fun h => ?_
    have htoken := h.token
    rw [hparams, if_neg hne] at htoken
    have hlength := congrArg String.length (Option.some.inj htoken)
    rw [String.length_append, String.length_append, Uuid.toText_length, Uuid.toText_length] at hlength
    omega

def sampleSite : Site where
  hostname := "cloud.example.com"
  reverse _ := "/api/tasks/v1/task/log4shell/playbook"
  plain _ := fun c hc => of_decide_eq_true (List.all_eq_true.mp
    (show ("https://" ++ "cloud.example.com" ++ "/api/tasks/v1/task/log4shell/playbook").toList.all
      (fun c => c ≠ '?' ∧ c ≠ '#') = true by decide +kernel) c hc)

def samplePlay : Json := .dict [("name", .str "Detection"), ("hosts", .str "localhost"), ("vars", .dict [])]

/-- The executed task with the parameters given, of a task that has one parameter. -/
def sampleCatalogue (parameters : List ExecutedTaskParameter) (h : ∀ stored ∈ parameters, stored.parameter = 1) :
    Catalogue where
  playbook _ := samplePlay
  taskParameters := .single { id := 1, key := "config", index := 1 }
  tokens := .single ⟨5, 1, parameters⟩
  known row hrow stored hstored := by
    rw [Table.mem_single.mp hrow] at hstored
    rw [h stored hstored]
    rfl

def sampleInventory (_ : String) : Nat × Json :=
  (200, .dict [("results", .list [.dict [("ansible_host", .null), ("fqdn", .str "web.example.com")]])])

def satelliteHost : DispatchHost where
  inventoryId := 7
  satelliteInstanceId := some "00000000-0000-0000-0000-000000000009"
  satelliteOrgId := some "1"
  effectiveRhcClientId := some 8

def sampleRequest : Execution where
  task := sampleTask
  title := "Log4Shell detection"
  name := "Detection"
  orgId := "1234"
  user := "admin"
  url := ""
  hosts := [satelliteHost]
  batchSize := 50

theorem rightUrl_satellite :
    RightUrl ⟨id, fun _ _ _ => rfl⟩ (sampleCatalogue [] (by simp)) sampleInventory sampleState sampleTask ⟨5, 1, []⟩
        satelliteHost (.str "web.example.com")
        "https://cloud.example.com/api/tasks/v1/task/log4shell/playbook?inventory_id=00000000-0000-0000-0000-000000000007" ↔
      Unambiguous sampleRequest ⟨5, 1, []⟩ satelliteHost ∧
        (sampleCatalogue [] (by simp)).OneValue ⟨5, 1, []⟩ := by
  have hslug : ∀ task ∈ sampleState.tasks, task.slug = sampleRequest.task.slug → task = sampleRequest.task :=
    fun task htask _ => Table.mem_single.mp htask
  have hextask : sampleState.executedTasks.get? 1 = some sampleExtask := rfl
  have hurl : (sampleRequest.addressed sampleSite 5 []).dispatchedUrl satelliteHost = .ok
      "https://cloud.example.com/api/tasks/v1/task/log4shell/playbook?inventory_id=00000000-0000-0000-0000-000000000007" := by
    decide +kernel
  refine rightUrl_iff hslug (Table.mem_single.mpr rfl) (Table.mem_single.mpr rfl) hextask rfl ?_ ?_ hurl
  · exact ⟨_, [], rfl, rfl, fun _ h => by cases h⟩
  · exact ⟨_, _, _, rfl, rfl, rfl, rfl⟩

/-- The URL of a Satellite host with a stored parameter has two question marks: the id of the host belongs to
the token, and the host is not named. -/
theorem rightUrl_both :
    (sampleRequest.addressed sampleSite 5 [⟨1, "x"⟩]).dispatchedUrl satelliteHost =
        .ok ("https://cloud.example.com/api/tasks/v1/task/log4shell/playbook?token=00000000-0000-0000-0000-000000000005" ++
          "?inventory_id=00000000-0000-0000-0000-000000000007") ∧
      ¬ RightUrl ⟨id, fun _ _ _ => rfl⟩ (sampleCatalogue [⟨1, "x"⟩] (by simp)) sampleInventory sampleState sampleTask
        ⟨5, 1, [⟨1, "x"⟩]⟩ satelliteHost (.str "web.example.com")
        ("https://cloud.example.com/api/tasks/v1/task/log4shell/playbook?token=00000000-0000-0000-0000-000000000005" ++
          "?inventory_id=00000000-0000-0000-0000-000000000007") := by
  refine ⟨by decide +kernel, fun h => ?_⟩
  have hid := h.inventoryId
  revert hid
  decide +kernel

end Advisor.Tasks
