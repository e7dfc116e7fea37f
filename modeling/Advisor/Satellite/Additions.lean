import Advisor.Satellite.Maintenance

/-! What the requests do to the actions. `add_actions` adds the rules and hosts some entry asks for, but for the hosts
whose Insights id the plan already lists for the rule. -/

namespace Advisor.Satellite

open Python Django Relational

section Actions

variable {w : World} {request : Request} {plan : Int} {edit : EditData} {action : SatMaintenanceAction}
  {rows : List (Nat × Uuid)}

theorem mem_newActions {row : Nat × Uuid} :
    (∃ action ∈ w.newActions plan rows, (action.rule, action.host) = row) ↔ row ∈ rows := by
  have hmap : (w.newActions plan rows).map (fun action => (action.rule, action.host)) = rows := by
    rw [World.newActions, List.map_map]
    exact List.zipIdx_map_fst _ _
  rw [← List.mem_map, hmap]

@[simp] theorem newActions_nil : w.newActions plan [] = [] := rfl

theorem mem_bulkCreate {hplan : plan < w.nextPlan} :
    action ∈ (w.bulkCreate plan hplan rows).actions ↔ action ∈ w.actions ∨ action ∈ w.newActions plan rows :=
  List.mem_append

/-- The action is not listed for deletion and is in the list of those to stay, if there is one. -/
def EditData.keeps (edit : EditData) (action : SatMaintenanceAction) : Bool :=
  !edit.delete.any (·.contains action.id) && edit.actions.all (·.contains action.id)

def removed (request : Request) (tables : Reports.Tables) (plan : Int) (edit : EditData)
    (action : SatMaintenanceAction) : Bool :=
  shown request tables plan action && !edit.keeps action

theorem mem_edited {plan : SatMaintenance} :
    action ∈ (edited request w plan edit).actions ↔
      action ∈ w.actions ∧ removed request w.tables plan.id edit action = false := by
  unfold edited removed EditData.keeps
  cases edit.delete with
  | none => cases edit.actions <;> simp [World.deleteActions, World.savePlan]
  | some ids =>
    cases edit.actions with
    | none => simp [World.deleteActions, World.savePlan]
    | some keep =>
      simp only [World.deleteActions, World.savePlan, Table.mem_deleteWhere, and_assoc, Option.any_some]
      grind

theorem edited_plans {plan : SatMaintenance} :
    (edited request w plan edit).plans = w.plans.updateWhere (fun other => other.id = plan.id) (edit.apply request) := by
  unfold edited
  cases edit.delete <;> cases edit.actions <;> rfl

end Actions

section Selection

variable {tables : Reports.Tables} {account : Option String} {ids : List (Option Uuid)} {listed : List Uuid}
  {host : Host}

def idOf (tables : Reports.Tables) (host : Host) : Option Uuid := (inventoryRow tables host).bind insightsId

theorem selects_iff :
    selects tables account ids listed host = true ↔
      ∃ row id, inventoryRow tables host = some row ∧ insightsId row = some id ∧ some id ∈ ids ∧
        (accountIs account row).holds = true ∧ id ∉ listed := by
  unfold selects
  cases hrow : inventoryRow tables host with
  | none => simp
  | some row =>
    simp only [Truth.holds_and, Bool.and_eq_true, Truth.holds_isIn, Option.some.injEq, and_assoc]
    constructor
    · rintro ⟨⟨id, hid, hmem⟩, haccount, hfree⟩
      exact ⟨row, id, rfl, hid, hmem, haccount, by simpa [hid] using hfree⟩
    · rintro ⟨_, id, rfl, hid, hmem, haccount, hfree⟩
      exact ⟨⟨id, hid, hmem⟩, haccount, by simpa [hid] using hfree⟩

theorem selects_unlisted :
    selects tables account ids listed host = true ↔
      selects tables account ids [] host = true ∧ ∀ id, idOf tables host = some id → id ∉ listed := by
  simp only [selects_iff, idOf]
  constructor
  · rintro ⟨row, id, hrow, hid, hmem, haccount, hfree⟩
    refine ⟨⟨row, id, hrow, hid, hmem, haccount, List.not_mem_nil⟩, ?_⟩
    intro id' hid'
    rw [hrow, Option.bind_some, hid] at hid'
    exact Option.some.inj hid' ▸ hfree
  · rintro ⟨⟨row, id, hrow, hid, hmem, haccount, -⟩, hfree⟩
    exact ⟨row, id, hrow, hid, hmem, haccount, hfree id (by rw [hrow, Option.bind_some, hid])⟩

theorem idOf_of_selects (h : selects tables account ids listed host = true) : ∃ id, idOf tables host = some id := by
  obtain ⟨row, id, hrow, hid, -⟩ := selects_iff.mp h
  exact ⟨id, by rw [idOf, hrow, Option.bind_some, hid]⟩

theorem selects_of_idOf {host' : Host} {ids' : List (Option Uuid)} {id : Uuid}
    (h : selects tables account ids [] host = true) (hid : idOf tables host = some id)
    (h' : selects tables account ids' [] host' = true) (hid' : idOf tables host' = some id) :
    selects tables account ids' [] host = true := by
  obtain ⟨row, known, hrow, hknown, -, haccount, -⟩ := selects_iff.mp h
  obtain ⟨row', known', hrow', hknown', hmem', -, -⟩ := selects_iff.mp h'
  rw [idOf, hrow, Option.bind_some] at hid
  rw [idOf, hrow', Option.bind_some, hknown'] at hid'
  exact selects_iff.mpr ⟨row, id, hrow, hid, hid' ▸ hmem', haccount, List.not_mem_nil⟩

end Selection

section Names

variable {w : Surroundings} {name : String} {rule rule' : Rule}

theorem ruleNamed_mem (h : ruleNamed w.tables name = some rule) : rule ∈ w.tables.rules ∧ rule.ruleId = name :=
  ⟨List.mem_of_find?_eq_some h, by simpa using List.find?_some h⟩

theorem rule_of_name (h : rule ∈ w.tables.rules) (h' : rule' ∈ w.tables.rules) (hname : rule.ruleId = rule'.ruleId) :
    rule = rule' :=
  List.inj_on_of_nodup_map w.ruleIds h h' hname

end Names

theorem HostsForRule.mem_hosts {table : HostsForRule} {ruleId : String} {id : Uuid} :
    id ∈ table.hosts ruleId ↔ (ruleId, id) ∈ table := by
  simp [hosts]

section Additions

variable (castTime : Reports.CastTime) (w : Surroundings) (request : Request)

def Requested (branchId : Uuid) (entries : List AddAction) (rule : Rule) (host : Host) : Prop :=
  ∃ entry ∈ entries, ruleNamed w.tables entry.ruleId = some rule ∧ rule.active = true ∧ host ∈ w.tables.hosts ∧
    ∃ ids, insightsIds castTime w request branchId entry rule = .ok ids ∧
      selects w.tables request.account ids [] host = true

def Unlisted (tables : Reports.Tables) (table : HostsForRule) (rule : Rule) (host : Host) : Prop :=
  ∀ id, idOf tables host = some id → (rule.ruleId, id) ∉ table

variable {castTime w request} {branchId : Uuid} {table : HostsForRule} {rule : Rule} {host : Host}

theorem Requested.rule_mem {entries : List AddAction} (h : Requested castTime w request branchId entries rule host) :
    rule ∈ w.tables.rules := by
  obtain ⟨entry, -, hnamed, -⟩ := h
  exact (ruleNamed_mem hnamed).1

theorem Requested.host_mem {entries : List AddAction} (h : Requested castTime w request branchId entries rule host) :
    host ∈ w.tables.hosts := by
  obtain ⟨_, _, _, _, hhost, _⟩ := h
  exact hhost

theorem requested_append {done : List AddAction} {entry : AddAction} :
    Requested castTime w request branchId (done ++ [entry]) rule host ↔
      Requested castTime w request branchId done rule host ∨ Requested castTime w request branchId [entry] rule host := by
  simp only [Requested, List.mem_append, or_and_right, exists_or]

/-- How far `add_actions` has come: the entries done, what is listed by now and the rows so far. -/
structure Progress (castTime : Reports.CastTime) (w : Surroundings) (request : Request) (branchId : Uuid)
    (table : HostsForRule) (done : List AddAction) (acc : HostsForRule × List (Nat × Uuid)) : Prop where
  rows : ∀ rule ∈ w.tables.rules, ∀ host ∈ w.tables.hosts, (rule.id, host.inventoryId) ∈ acc.2 ↔
    Requested castTime w request branchId done rule host ∧ Unlisted w.tables table rule host
  stored : ∀ row ∈ acc.2, ∃ rule ∈ w.tables.rules, ∃ host ∈ w.tables.hosts, row = (rule.id, host.inventoryId)
  listed : ∀ rule ∈ w.tables.rules, ∀ id, (rule.ruleId, id) ∈ acc.1 ↔
    (rule.ruleId, id) ∈ table ∨
      ∃ host ∈ w.tables.hosts, (rule.id, host.inventoryId) ∈ acc.2 ∧ idOf w.tables host = some id
  nodup : acc.2.Nodup

theorem progress_start : Progress castTime w request branchId table [] (table, []) where
  rows := by simp [Requested]
  stored := by simp
  listed := by simp
  nodup := List.nodup_nil

variable {done : List AddAction} {acc acc' : HostsForRule × List (Nat × Uuid)} {entry : AddAction}
  {plan : SatMaintenance}

theorem Progress.skip (h : Progress castTime w request branchId table done acc)
    (hentry : ∀ rule host, ¬ Requested castTime w request branchId [entry] rule host) :
    Progress castTime w request branchId table (done ++ [entry]) acc where
  rows := by
    intro rule hrule host hhost
    rw [requested_append, or_iff_left (hentry rule host)]
    exact h.rows rule hrule host hhost
  stored := h.stored
  listed := h.listed
  nodup := h.nodup

/-- An entry that finds a host with a listed id asks for nothing new: whoever had it listed selected this host too. -/
theorem Progress.requested_of_listed (h : Progress castTime w request branchId table done acc)
    (hasked : Requested castTime w request branchId [entry] rule host) (hfree : Unlisted w.tables table rule host)
    {id : Uuid} (hid : idOf w.tables host = some id) (hlisted : (rule.ruleId, id) ∈ acc.1) :
    Requested castTime w request branchId done rule host := by
  obtain ⟨_, _, hnamed, hactive, hhost, ids, -, hselects⟩ := hasked
  obtain ⟨hrule, -⟩ := ruleNamed_mem hnamed
  rcases (h.listed rule hrule id).mp hlisted with htable | ⟨host', hhost', hrow, hid'⟩
  · exact absurd htable (hfree id hid)
  · obtain ⟨⟨earlier, hearlier, hnamed', -, -, ids', hids', hselects'⟩, -⟩ :=
      (h.rows rule hrule host' hhost').mp hrow
    exact ⟨earlier, hearlier, hnamed', hactive, hhost, ids', hids', selects_of_idOf hselects hid hselects' hid'⟩

/-- The hosts that the turn of an entry about an active rule adds. -/
structure Adds (castTime : Reports.CastTime) (w : Surroundings) (request : Request) (branchId : Uuid)
    (acc : HostsForRule × List (Nat × Uuid)) (entry : AddAction) (rule : Rule) (added : List Host) : Prop where
  named : ruleNamed w.tables entry.ruleId = some rule
  active : rule.active = true
  hosts : ∃ ids, insightsIds castTime w request branchId entry rule = .ok ids ∧
    added = w.tables.hosts.rows.filter (selects w.tables request.account ids (acc.1.hosts rule.ruleId))

section

variable {added : List Host}

theorem Adds.mem (h : Adds castTime w request branchId acc entry rule added) (host : Host) :
    host ∈ added ↔ Requested castTime w request branchId [entry] rule host ∧
      ∀ id, idOf w.tables host = some id → (rule.ruleId, id) ∉ acc.1 := by
  obtain ⟨ids, hids, rfl⟩ := h.hosts
  rw [List.mem_filter, selects_unlisted]
  simp only [HostsForRule.mem_hosts, Requested, List.mem_singleton, exists_eq_left, h.named, h.active, hids,
    Except.ok.injEq, exists_eq_left', true_and, and_assoc, Table.mem_def]

theorem Adds.rule_eq (h : Adds castTime w request branchId acc entry rule added) {other : Rule} {host : Host}
    (hasked : Requested castTime w request branchId [entry] other host) : other = rule := by
  obtain ⟨found, hfound, hnamed, -⟩ := hasked
  rw [List.mem_singleton.mp hfound, h.named] at hnamed
  exact (Option.some.inj hnamed).symm

theorem Adds.mem_rows (h : Adds castTime w request branchId acc entry rule added) {other : Rule} {host : Host}
    (hother : other ∈ w.tables.rules) (hhost : host ∈ w.tables.hosts) :
    (other.id, host.inventoryId) ∈ added.map (fun host => (rule.id, host.inventoryId)) ↔ other = rule ∧ host ∈ added := by
  obtain ⟨hrule, -⟩ := ruleNamed_mem h.named
  rw [List.mem_map]
  constructor
  · rintro ⟨found, hfound, hpair⟩
    obtain ⟨hid, hinventory⟩ := Prod.mk.inj hpair
    have hsame := w.tables.hosts.key_injOn ((h.mem found).mp hfound).1.host_mem hhost hinventory
    exact ⟨w.tables.rules.key_injOn hother hrule hid.symm, hsame ▸ hfound⟩
  · rintro ⟨rfl, hhost'⟩
    exact ⟨host, hhost', rfl⟩

theorem Adds.mem_listed (h : Adds castTime w request branchId acc entry rule added) {other : Rule} {id : Uuid}
    (hother : other ∈ w.tables.rules) :
    (other.ruleId, id) ∈ added.filterMap (fun host => (idOf w.tables host).map fun id => (rule.ruleId, id)) ↔
      other = rule ∧ ∃ host ∈ added, idOf w.tables host = some id := by
  obtain ⟨hrule, -⟩ := ruleNamed_mem h.named
  simp only [List.mem_filterMap, Option.map_eq_some_iff, Prod.mk.injEq]
  constructor
  · rintro ⟨host, hhost, _, hid, hname, rfl⟩
    exact ⟨rule_of_name hother hrule hname.symm, host, hhost, hid⟩
  · rintro ⟨rfl, host, hhost, hid⟩
    exact ⟨host, hhost, id, hid, rfl, rfl⟩

theorem Adds.nodup (h : Adds castTime w request branchId acc entry rule added)
    (hprogress : Progress castTime w request branchId table done acc) :
    (acc.2 ++ added.map fun host => (rule.id, host.inventoryId)).Nodup := by
  have hkeys : (added.map Host.inventoryId).Nodup := by
    obtain ⟨ids, -, rfl⟩ := h.hosts
    exact w.tables.hosts.unique.sublist (List.filter_sublist.map _)
  have hpairs : (added.map fun host => (rule.id, host.inventoryId)).Nodup := by
    refine List.Nodup.of_map Prod.snd ?_
    rw [List.map_map]
    exact hkeys
  refine hprogress.nodup.append hpairs ?_
  intro row hold hnew
  obtain ⟨host, hhost, rfl⟩ := List.mem_map.mp hnew
  obtain ⟨⟨_, _, _, _, hstored, ids, _, hselects⟩, hfree⟩ := (h.mem host).mp hhost
  obtain ⟨id, hid⟩ := idOf_of_selects hselects
  exact hfree id hid ((hprogress.listed rule (ruleNamed_mem h.named).1 id).mpr (.inr ⟨host, hstored, hold, hid⟩))

theorem Progress.add (h : Progress castTime w request branchId table done acc)
    (hadds : Adds castTime w request branchId acc entry rule added) :
    Progress castTime w request branchId table (done ++ [entry])
      (acc.1 ++ added.filterMap fun host => (idOf w.tables host).map fun id => (rule.ruleId, id),
        acc.2 ++ added.map fun host => (rule.id, host.inventoryId)) where
  rows := by
    intro other hother host hhost
    rw [List.mem_append, h.rows other hother host hhost, hadds.mem_rows hother hhost, requested_append, hadds.mem]
    constructor
    · rintro (⟨hbefore, hfree⟩ | ⟨rfl, hasked, hfree⟩)
      · exact ⟨.inl hbefore, hfree⟩
      · refine ⟨.inr hasked, ?_⟩
        intro id hid htable
        exact hfree id hid ((h.listed other hother id).mpr (.inl htable))
    · rintro ⟨hbefore | hasked, hfree⟩
      · exact .inl ⟨hbefore, hfree⟩
      · obtain rfl := hadds.rule_eq hasked
        by_cases hlisted : ∃ id, idOf w.tables host = some id ∧ (other.ruleId, id) ∈ acc.1
        · obtain ⟨id, hid, hin⟩ := hlisted
          exact .inl ⟨h.requested_of_listed hasked hfree hid hin, hfree⟩
        · push Not at hlisted
          exact .inr ⟨rfl, hasked, hlisted⟩
  stored := by
    intro row hrow
    rcases List.mem_append.mp hrow with hold | hnew
    · exact h.stored row hold
    · obtain ⟨host, hhost, rfl⟩ := List.mem_map.mp hnew
      exact ⟨rule, (ruleNamed_mem hadds.named).1, host, ((hadds.mem host).mp hhost).1.host_mem, rfl⟩
  listed := by
    intro other hother id
    rw [List.mem_append, h.listed other hother id, hadds.mem_listed hother]
    constructor
    · rintro ((htable | ⟨host, hhost, hrow, hid⟩) | ⟨rfl, host, hhost, hid⟩)
      · exact .inl htable
      · exact .inr ⟨host, hhost, List.mem_append_left _ hrow, hid⟩
      · have hstored := ((hadds.mem host).mp hhost).1.host_mem
        exact .inr ⟨host, hstored, List.mem_append_right _ ((hadds.mem_rows hother hstored).mpr ⟨rfl, hhost⟩), hid⟩
    · rintro (htable | ⟨host, hhost, hrow, hid⟩)
      · exact .inl (.inl htable)
      · rcases List.mem_append.mp hrow with hold | hnew
        · exact .inl (.inr ⟨host, hhost, hold, hid⟩)
        · obtain ⟨rfl, hin⟩ := (hadds.mem_rows hother hhost).mp hnew
          exact .inr ⟨rfl, host, hin, hid⟩
  nodup := hadds.nodup h

end

theorem Progress.turn (h : Progress castTime w request plan.branchId table done acc)
    (hturn : addEntry castTime w request plan acc entry = .ok acc') :
    Progress castTime w request plan.branchId table (done ++ [entry]) acc' := by
  unfold addEntry at hturn
  cases hnamed : ruleNamed w.tables entry.ruleId with
  | none => simp [hnamed] at hturn
  | some rule =>
    simp only [hnamed] at hturn
    cases hactive : rule.active with
    | false =>
      simp only [hactive, Bool.not_false, if_true, Except.ok.injEq] at hturn
      subst hturn
      refine h.skip ?_
      rintro other host ⟨found, hfound, hnamed', hactive', -⟩
      rw [List.mem_singleton.mp hfound, hnamed, Option.some.injEq] at hnamed'
      rw [← hnamed', hactive] at hactive'
      cases hactive'
    | true =>
      simp only [hactive, Bool.not_true, Bool.false_eq_true, if_false, bind_eq_ok, pure, Except.pure,
        Except.ok.injEq] at hturn
      obtain ⟨ids, hids, rfl⟩ := hturn
      exact h.add ⟨hnamed, hactive, ids, hids, rfl⟩

end Additions

section Listing

variable {tables : Reports.Tables} {existing : List SatMaintenanceAction} {table : HostsForRule}

def lookupOf (tables : Reports.Tables) (act : SatMaintenanceAction) : Option (String × Uuid) :=
  (tables.rules.get? act.rule).bind fun rule =>
    ((tables.hosts.get? act.host).bind (idOf tables)).map fun id => (rule.ruleId, id)

theorem hostsForRulesInPlan_eq : hostsForRulesInPlan tables existing = existing.mapM fun act =>
    match lookupOf tables act with
    | some pair => .ok pair
    | none => .error .doesNotExist := by
  unfold hostsForRulesInPlan
  congr 1
  funext act
  unfold lookupOf
  cases tables.rules.get? act.rule with
  | none => rfl
  | some rule =>
    cases tables.hosts.get? act.host with
    | none => rfl
    | some host =>
      simp only [Option.bind_some, idOf]
      cases inventoryRow tables host with
      | none => rfl
      | some row =>
        simp only [Option.bind_some]
        cases insightsId row <;> rfl

theorem hostsForRulesInPlan_isOk :
    (∃ table, hostsForRulesInPlan tables existing = .ok table) ↔
      ∀ act ∈ existing, (lookupOf tables act).isSome = true := by
  rw [hostsForRulesInPlan_eq]
  constructor
  · intro h act hact
    obtain ⟨pair, hpair⟩ := mapM_isOk h act hact
    cases hlookup : lookupOf tables act with
    | none => simp [hlookup] at hpair
    | some pair => rfl
  · intro h
    refine mapM_of_isOk ?_
    intro act hact
    obtain ⟨pair, hpair⟩ := Option.isSome_iff_exists.mp (h act hact)
    exact ⟨pair, by rw [hpair]⟩

theorem mem_hostsForRulesInPlan (h : hostsForRulesInPlan tables existing = .ok table) {pair : String × Uuid} :
    pair ∈ table ↔ ∃ act ∈ existing, lookupOf tables act = some pair := by
  rw [hostsForRulesInPlan_eq] at h
  rw [mapM_mem h]
  refine exists_congr fun act => and_congr_right fun _ => ?_
  cases lookupOf tables act <;> simp

def Listed (tables : Reports.Tables) (existing : List SatMaintenanceAction) (rule : Rule) (host : Host) : Prop :=
  ∃ act ∈ existing, ∃ id, idOf tables host = some id ∧ lookupOf tables act = some (rule.ruleId, id)

theorem unlisted_iff (h : hostsForRulesInPlan tables existing = .ok table) {rule : Rule} {host : Host} :
    Unlisted tables table rule host ↔ ¬ Listed tables existing rule host := by
  simp only [Unlisted, Listed, mem_hostsForRulesInPlan h]
  constructor
  · rintro hfree ⟨act, hact, id, hid, hlookup⟩
    exact hfree id hid ⟨act, hact, hlookup⟩
  · rintro hfree id hid ⟨act, hact, hlookup⟩
    exact hfree ⟨act, hact, id, hid, hlookup⟩

end Listing

section Result

variable {castTime : Reports.CastTime} {w : Surroundings} {request : Request} {plan : SatMaintenance}
  {existing : List SatMaintenanceAction} {entries : List AddAction} {rows : List (Nat × Uuid)}

/-- `add_actions` adds what is requested and not listed, each rule and host once. -/
theorem addActions_rows (h : addActions castTime w request plan existing entries = .ok rows) :
    rows.Nodup ∧
      (∀ row ∈ rows, ∃ rule ∈ w.tables.rules, ∃ host ∈ w.tables.hosts, row = (rule.id, host.inventoryId)) ∧
      ∀ rule ∈ w.tables.rules, ∀ host ∈ w.tables.hosts, (rule.id, host.inventoryId) ∈ rows ↔
        Requested castTime w request plan.branchId entries rule host ∧ ¬ Listed w.tables existing rule host := by
  simp only [addActions, bind_eq_ok, pure, Except.pure, Except.ok.injEq] at h
  obtain ⟨table, htable, acc, hfold, rfl⟩ := h
  have hall := foldlM_invariant hfold (I := Progress castTime w request plan.branchId table) progress_start
    fun done entry acc acc' hdone hturn => hdone.turn hturn
  refine ⟨hall.nodup, hall.stored, ?_⟩
  intro rule hrule host hhost
  rw [hall.rows rule hrule host hhost, unlisted_iff htable]

/-- The Insights ids of an entry can be had: it names a system, or the reports on its rule need no reading of the
request, or the request can be read. -/
def Readable (w : Surroundings) (request : Request) (entry : AddAction) : Prop :=
  ∃ rule, ruleNamed w.tables entry.ruleId = some rule ∧
    (rule.active = true → entry.systemId = none → w.deletedAt rule.id = none →
      Reports.acked w.tables request.orgId rule.id = false → ∃ reading, request.reading = .ok reading)

theorem insightsIds_isOk (castTime : Reports.CastTime) (branchId : Uuid) {entry : AddAction} {rule : Rule} (hactive : rule.active = true) :
    (∃ ids, insightsIds castTime w request branchId entry rule = .ok ids) ↔
      (entry.systemId = none → w.deletedAt rule.id = none → Reports.acked w.tables request.orgId rule.id = false →
        ∃ reading, request.reading = .ok reading) := by
  unfold insightsIds
  cases entry.systemId with
  | some id => simp
  | none =>
    simp only [bind_eq_ok, pure, Except.pure, Except.ok.injEq, reportsForAccount, hactive, Bool.not_true, Bool.false_or,
      forall_const]
    cases hdeleted : w.deletedAt rule.id with
    | some t => simp
    | none =>
      cases Reports.acked w.tables request.orgId rule.id with
      | true => simp
      | false =>
        simp only [Option.isSome_none, Bool.or_self, Bool.false_eq_true, if_false, bind_eq_ok, Except.ok.injEq,
          forall_const]
        constructor
        · rintro ⟨_, _, ⟨reading, hreading, -⟩, -⟩
          exact ⟨reading, hreading⟩
        · rintro ⟨reading, hreading⟩
          exact ⟨_, _, ⟨reading, hreading, rfl⟩, rfl⟩

theorem addEntry_isOk {acc : HostsForRule × List (Nat × Uuid)} {entry : AddAction} :
    (∃ acc', addEntry castTime w request plan acc entry = .ok acc') ↔ Readable w request entry := by
  unfold addEntry Readable
  cases ruleNamed w.tables entry.ruleId with
  | none => simp
  | some rule =>
    simp only [Option.some.injEq, exists_eq_left']
    cases hactive : rule.active with
    | false => simp
    | true =>
      simp only [Bool.not_true, Bool.false_eq_true, if_false, bind_eq_ok, pure, Except.pure, Except.ok.injEq,
        forall_const, ← insightsIds_isOk castTime plan.branchId hactive]
      constructor
      · rintro ⟨_, ids, hids, -⟩
        exact ⟨ids, hids⟩
      · rintro ⟨ids, hids⟩
        exact ⟨_, ids, hids, rfl⟩

theorem addActions_isOk (castTime : Reports.CastTime) (plan : SatMaintenance) :
    (∃ rows, addActions castTime w request plan existing entries = .ok rows) ↔
      (∀ act ∈ existing, (lookupOf w.tables act).isSome = true) ∧ ∀ entry ∈ entries, Readable w request entry := by
  rw [← hostsForRulesInPlan_isOk]
  simp only [addActions, bind_eq_ok, pure, Except.pure, Except.ok.injEq]
  have hloop : ∀ table, (∃ acc, entries.foldlM (addEntry castTime w request plan) (table, []) = .ok acc) ↔
      ∀ entry ∈ entries, Readable w request entry :=
    fun table => foldlM_isOk fun entry _ acc => addEntry_isOk
  constructor
  · rintro ⟨_, table, htable, acc, hfold, -⟩
    exact ⟨⟨table, htable⟩, (hloop table).mp ⟨acc, hfold⟩⟩
  · rintro ⟨⟨table, htable⟩, hall⟩
    obtain ⟨acc, hfold⟩ := (hloop table).mpr hall
    exact ⟨_, table, htable, acc, hfold, rfl⟩

end Result

section Update

variable {castTime : Reports.CastTime} {request : Request} {w : World} {pk : Int} {data : Except Failure EditData}
  {plan : { plan : SatMaintenance // plan ∈ w.plans }} {edit : EditData}

theorem checkUpdate_org (h : checkUpdate request w pk data = .ok (plan, edit)) :
    plan.1.id = pk ∧ request.orgId ≠ "" ∧ plan.1.orgId = request.orgId := by
  simp only [checkUpdate, bind_eq_ok] at h
  obtain ⟨_, -, branchId, -, h⟩ := h
  split at h
  · cases h
  · rename_i found hfound
    simp only [bind_eq_ok, pure, Except.pure, Except.ok.injEq, Prod.mk.injEq] at h
    obtain ⟨_, -, _, -, rfl, -⟩ := h
    obtain ⟨-, hid, horg, hsame, -⟩ := findPlan_eq_some request hfound
    exact ⟨hid, horg, hsame⟩

theorem update_refused {e : Failure} (h : checkUpdate request w pk data = .error e) :
    update castTime request w pk data = (.error e, w) := by
  rw [update, h]

theorem update_failed {e : Failure} (h : checkUpdate request w pk data = .ok (plan, edit))
    (hrows : additions castTime request (edited request w plan edit) plan edit = .error e) :
    update castTime request w pk data = (.error e, edited request w plan edit) := by
  rw [update, h]
  simp only [hrows]

theorem edited_lt (plan : { plan : SatMaintenance // plan ∈ w.plans }) (edit : EditData) :
    plan.1.id < (edited request w plan edit).nextPlan := by
  rw [edited_nextPlan]
  exact w.planIds plan plan.2

def updated (request : Request) (w : World) (plan : { plan : SatMaintenance // plan ∈ w.plans }) (edit : EditData)
    (rows : List (Nat × Uuid)) : World :=
  (edited request w plan edit).bulkCreate plan.1.id (edited_lt plan edit) rows

theorem mem_updated {rows : List (Nat × Uuid)} {action : SatMaintenanceAction} :
    action ∈ (updated request w plan edit rows).actions ↔
      action ∈ (edited request w plan edit).actions ∨ action ∈ (edited request w plan edit).newActions plan.1.id rows :=
  List.mem_append

theorem update_done {rows : List (Nat × Uuid)} (h : checkUpdate request w pk data = .ok (plan, edit))
    (hrows : additions castTime request (edited request w plan edit) plan edit = .ok rows) :
    update castTime request w pk data =
      (render request (updated request w plan edit rows) plan.1.id, updated request w plan edit rows) := by
  rw [update, h]
  simp only [hrows]
  rfl

end Update

end Advisor.Satellite
