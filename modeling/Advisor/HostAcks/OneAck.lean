import Advisor.HostAcks.Views
import Advisor.Satellite.Tenants

/-! When a request that acks a rule on hosts leaves one ack for each of them, and when it fails half way. -/

namespace Advisor.HostAcks

open Python Procedure Django Relational Acks

/-- One ack of the rule on the host in the organisation, with the justification and the user of the request. -/
def OneAck (request : Request) (rule : Rule) (justification : String) (s : State) (host : Uuid) : Prop :=
  ∃ ack ∈ s.hostAcks, (ack.rule = rule.id ∧ ack.orgId = request.orgId ∧ ack.host = host) ∧
    (∀ other ∈ s.hostAcks, other.rule = rule.id → other.orgId = request.orgId → other.host = host → other = ack) ∧
    ack.justification = justification ∧ some ack.createdBy = request.username

/-- A request ends with one ack for each host, or fails, not on the unique key, with no ack changed or saved again. -/
def EndsWithOneAck (castTime : Reports.CastTime) (request : Request) (action : Action) (s : State) : Prop :=
  Triple (action.run castTime request) s
    (fun _ s' => ∃ rule ∈ s.rules, rule.ruleId = action.ruleId ∧
      ∀ host ∈ action.systems, OneAck request rule (action.justification.getD "") s' host)
    fun e s' => e ≠ .uniqueViolation ∧ s'.hostAcks.Same s.hostAcks ∧ s'.updatedAt = s.updatedAt

def requested (request : Request) (rule : Rule) (justification createdBy : String) (host : Uuid) : HostAck :=
  ⟨rule.id, host, request.account, request.orgId, justification, createdBy⟩

/-- `ack_hosts` can save the ack of a host that is there, if it has none yet of another account. -/
def Accepts (request : Request) (rule : Rule) (s : State) (host : Uuid) : Prop :=
  (s.hosts.get? host).isSome ∧
    ∀ old, s.hostAcks.get? (rule.id, request.orgId, host) = some old → old.account = request.account

/-- A stored ack is not hidden from `create`, which also finds the inventory row of the host it shows. `ack_hosts`
can save all the acks, or does not find the very first host. Neither matters where no save is tried. -/
def SavesOrRefuses (castTime : Reports.CastTime) (request : Request) (s : State) : Action → Prop
  | .create ruleId host justification => ∀ rule text createdBy,
      HostAckViewSet.inputData ruleId justification s = .ok (rule, text) →
      requestToUsername request = .ok createdBy → storable (requested request rule text createdBy host) →
      (∀ old, s.hostAcks.get? (rule.id, request.orgId, host) = some old →
        HostAckViewSet.getQueryset castTime request s old) ∧
      ∀ row, s.hosts.get? host = some row → (s.inventory.get? (row.orgId, row.inventoryId)).isSome
  | .ackHosts ruleId systems justification => ∀ rule text createdBy,
      RuleViewSet.inputData request ruleId systems justification s = .ok (rule, text) →
      requestToUsername request = .ok createdBy →
      (∀ host ∈ systems, storable (requested request rule text createdBy host)) →
      (∀ host ∈ systems, Accepts request rule s host) ∨ ∃ host rest, systems = host :: rest ∧ s.hosts.get? host = none

/-- The acks have been saved, one after the other. -/
structure Saved (acks : List HostAck) (s s' : State) : Prop where
  stored : ∀ ack ∈ acks, s'.hostAcks.get? ack.key = some ack
  others : ∀ key, (∀ ack ∈ acks, ack.key ≠ key) → s'.hostAcks.get? key = s.hostAcks.get? key
  later : ∀ ack ∈ acks, s.now ≤ s'.updatedAt ack.key
  notEarlier : ∀ key, s.updatedAt key ≤ s'.updatedAt key
  now : s.now ≤ s'.now
  hosts : s'.hosts = s.hosts
  inventory : s'.inventory = s.inventory

section Saved

variable {s s' s'' : State} {ack : HostAck} {acks : List HostAck} {change : Update HostAck.key}

theorem Saved.nil (s : State) : Saved [] s s where
  stored _ h := nomatch h
  others _ _ := rfl
  later _ h := nomatch h
  notEarlier _ := le_rfl
  now := le_rfl
  hosts := rfl
  inventory := rfl

theorem Saved.cons (h : Saved [ack] s s') (hrest : Saved acks s' s'')
    (hsame : ∀ other ∈ acks, other.key = ack.key → other = ack) : Saved (ack :: acks) s s'' where
  stored other hother := by
    rcases List.mem_cons.mp hother with rfl | hmem
    · by_cases hagain : ∃ other' ∈ acks, other'.key = other.key
      · obtain ⟨other', hmem, hkey⟩ := hagain
        obtain rfl := hsame other' hmem hkey
        exact hrest.stored _ hmem
      · rw [hrest.others _ fun other' hmem hkey => hagain ⟨other', hmem, hkey⟩]
        exact h.stored _ (by simp)
    · exact hrest.stored other hmem
  others key hkey := by
    rw [hrest.others key fun other hmem => hkey other (by simp [hmem])]
    exact h.others key fun other hmem => hkey other (by simp [List.mem_singleton.mp hmem])
  later other hother := by
    rcases List.mem_cons.mp hother with rfl | hmem
    · exact (h.later _ (by simp)).trans (hrest.notEarlier _)
    · exact h.now.trans (hrest.later other hmem)
  notEarlier key := (h.notEarlier key).trans (hrest.notEarlier key)
  now := h.now.trans hrest.now
  hosts := hrest.hosts.trans h.hosts
  inventory := hrest.inventory.trans h.inventory

theorem Saved.updatedAt_ne (h : Saved acks s s') (hacks : acks ≠ []) : s'.updatedAt ≠ s.updatedAt := by
  obtain ⟨ack, hmem⟩ := List.exists_mem_of_ne_nil acks hacks
  intro heq
  have hlater := h.later ack hmem
  rw [heq] at hlater
  exact absurd (s.past ack.key) (not_lt.mpr hlater)

theorem saved_save {hostAcks : Table HostAck.key} (hhosts : ∀ ack ∈ hostAcks, (s.hosts.get? ack.host).isSome)
    (hacks : ∀ key, hostAcks.get? key = if ack.key = key then some ack else s.hostAcks.get? key) :
    Saved [ack] s (s.save ack.key hostAcks hhosts) where
  stored other hother := by
    rw [List.mem_singleton.mp hother]
    exact (hacks _).trans (if_pos rfl)
  others key hkey := (hacks key).trans (if_neg (hkey ack (by simp)))
  later other hother := by
    rw [List.mem_singleton.mp hother]
    exact (Function.update_self ack.key s.now s.updatedAt).ge
  notEarlier key := by
    show s.updatedAt key ≤ Function.update s.updatedAt ack.key s.now key
    by_cases hkey : key = ack.key
    · rw [hkey, Function.update_self]
      exact (s.past _).le
    · rw [Function.update_of_ne hkey]
  now := (lt_add_one s.now).le
  hosts := rfl
  inventory := rfl

theorem saved_update {old : HostAck} (hold : s.hostAcks.get? ack.key = some old) (hchange : change.1 old = ack) :
    Saved [ack] s (s.update ack.key change) := by
  refine saved_save _ fun key => ?_
  rw [Table.get?_updateWhere]
  by_cases hkey : ack.key = key
  · subst hkey
    simp [hold, Table.get?_key hold, hchange]
  · rw [if_neg hkey]
    cases hrow : s.hostAcks.get? key with
    | none => rfl
    | some row =>
      have hne : row.key ≠ ack.key := fun h => hkey (h.symm.trans (Table.get?_key hrow))
      simp [hne]

theorem insert_taken {old : HostAck} (hold : s.hostAcks.get? ack.key = some old) :
    s.insert ack = .error .uniqueViolation := by
  have hnone : s.hostAcks.insert? ack = none := Table.insert?_eq_none.mpr (by rw [hold]; rfl)
  unfold State.insert
  split
  · rfl
  · rename_i hsome
    rw [hnone] at hsome
    cases hsome

theorem insert_free (hfree : s.hostAcks.get? ack.key = none) (hhost : (s.hosts.get? ack.host).isSome) :
    ∃ s', s.insert ack = .ok s' ∧ Saved [ack] s s' := by
  unfold State.insert
  split
  · rename_i hnone
    rw [Table.insert?_eq_none, hfree] at hnone
    cases hnone
  · rename_i hostAcks hsome
    rw [dif_pos hhost]
    exact ⟨_, rfl, saved_save _ (Table.get?_insert? hsome)⟩

theorem insert_dangling (hfree : s.hostAcks.get? ack.key = none) (hhost : s.hosts.get? ack.host = none) :
    s.insert ack = .error .foreignKeyViolation := by
  unfold State.insert
  split
  · rename_i hnone
    rw [Table.insert?_eq_none, hfree] at hnone
    cases hnone
  · rw [dif_neg (by simp [hhost])]

/-- What `update_or_create` comes to when the ack fits and the change makes the stored one the same. -/
inductive Outcome (chosen : State → HostAck → Bool) (ack : HostAck) (s : State) : Except Failure Unit × State → Prop
  | saved {s' : State} (host : (s.hosts.get? ack.host).isSome)
      (found : ∀ old, s.hostAcks.get? ack.key = some old → chosen s old = true) (saved : Saved [ack] s s') :
      Outcome chosen ack s (.ok (), s')
  | hidden {old : HostAck} (stored : s.hostAcks.get? ack.key = some old) (missed : chosen s old = false) :
      Outcome chosen ack s (.error .uniqueViolation, s)
  | dangling (free : s.hostAcks.get? ack.key = none) (host : s.hosts.get? ack.host = none) :
      Outcome chosen ack s (.error .foreignKeyViolation, s)

theorem updateOrCreate_outcome {chosen : State → HostAck → Bool} (hfits : storable ack = true)
    (hchange : ∀ old : HostAck, old.key = ack.key → chosen s old = true → change.1 old = ack) :
    Outcome chosen ack s (updateOrCreate chosen change ack s) := by
  have hfind : s.hostAcks.rows.find? (fun old => old.key = ack.key && chosen s old) =
      (s.hostAcks.get? ack.key).filter (chosen s) := find?_key_and s.hostAcks.unique _ _
  simp only [updateOrCreate, hfits, Bool.not_true, Bool.false_eq_true, if_false, hfind]
  cases hold : s.hostAcks.get? ack.key with
  | none =>
    cases hhost : s.hosts.get? ack.host with
    | none =>
      simp only [Option.filter_none, insert_dangling hold hhost]
      exact .dangling hold hhost
    | some row =>
      obtain ⟨s', hinsert, hsaved⟩ := insert_free hold (by rw [hhost]; rfl)
      simp only [Option.filter_none, hinsert]
      exact .saved (by rw [hhost]; rfl) (by simp [hold]) hsaved
  | some old =>
    have hkey := Table.get?_key hold
    cases hchosen : chosen s old with
    | true =>
      rw [Option.filter_some, hchosen]
      have hhost := s.ackHosts old (Table.get?_eq_some.mp hold).1
      rw [State.host_eq hkey] at hhost
      refine .saved hhost ?_ ?_
      · intro other hother
        rwa [← Option.some.inj (hold.symm.trans hother)]
      · show Saved [ack] s (s.update old.key change)
        rw [hkey]
        exact saved_update hold (hchange old hkey hchosen)
    | false =>
      rw [Option.filter_some, hchosen]
      simp only [Bool.false_eq_true, if_false, insert_taken hold]
      exact .hidden hold hchosen

end Saved

section Create

variable {castTime : Reports.CastTime} {request : Request} {action : Action} {s s' : State} {rule : Rule}
  {ruleId text createdBy : String} {justification : Option String} {host : Uuid}

theorem requested_of_key {old : HostAck} (h : old.key = (requested request rule text createdBy host).key)
    (haccount : old.account = request.account) :
    { old with justification := text, createdBy } = requested request rule text createdBy host := by
  obtain ⟨oldRule, oldHost, account, orgId, _, _⟩ := old
  simp only [HostAck.key, requested, Prod.mk.injEq] at h haccount ⊢
  obtain ⟨rfl, rfl, rfl⟩ := h
  rw [haccount]

theorem oneAck_of_stored (hstored : s.hostAcks.get? (requested request rule text createdBy host).key =
      some (requested request rule text createdBy host)) (huser : requestToUsername request = .ok createdBy) :
    OneAck request rule text s host := by
  obtain ⟨hmem, hkey⟩ := Table.get?_eq_some.mp hstored
  refine ⟨_, hmem, ⟨rfl, rfl, rfl⟩, fun other hother hrule horg hhost => ?_, rfl, ?_⟩
  · apply s.hostAcks.key_injOn hother hmem
    show (other.rule, other.orgId, other.host) = _
    rw [hrule, horg, hhost]
    rfl
  · unfold requestToUsername at huser
    cases hname : request.username with
    | none => simp [hname] at huser
    | some username =>
      simp only [hname, Except.ok.injEq] at huser
      rw [← huser]
      rfl

theorem endsWithOneAck_of_error (action : Action) {e : Failure} (h : action.run castTime request s = (.error e, s')) :
    EndsWithOneAck castTime request action s ↔
      e ≠ .uniqueViolation ∧ s'.hostAcks.Same s.hostAcks ∧ s'.updatedAt = s.updatedAt := by
  unfold EndsWithOneAck Triple
  rw [h]

theorem endsWithOneAck_of_refused {e : Failure} (h : action.run castTime request s = (.error e, s))
    (he : e ≠ .uniqueViolation) : EndsWithOneAck castTime request action s :=
  (endsWithOneAck_of_error action h).mpr ⟨he, .refl _, rfl⟩

theorem activeRule_eq (h : activeRule s ruleId = some rule) : rule ∈ s.rules ∧ rule.ruleId = ruleId := by
  have hfound := List.find?_some h
  simp only [Bool.and_eq_true, decide_eq_true_eq] at hfound
  exact ⟨List.mem_of_find?_eq_some h, hfound.1⟩

theorem HostAckViewSet.inputData_ok (h : HostAckViewSet.inputData ruleId justification s = .ok (rule, text)) :
    (rule ∈ s.rules ∧ rule.ruleId = ruleId) ∧ text = justification.getD "" := by
  unfold HostAckViewSet.inputData at h
  split at h
  · cases h
  · rename_i found hfound
    split at h
    · cases h
      exact ⟨activeRule_eq hfound, rfl⟩
    · cases h

theorem HostAckViewSet.inputData_error {e : Failure}
    (h : HostAckViewSet.inputData ruleId justification s = .error e) : e = .badRequest := by
  unfold HostAckViewSet.inputData at h
  split at h
  · exact (Except.error.inj h).symm
  · split at h
    · cases h
    · exact (Except.error.inj h).symm

theorem requestToUsername_error {e : Failure} (h : requestToUsername request = .error e) : e = .denied := by
  unfold requestToUsername at h
  split at h
  · cases h
  · exact (Except.error.inj h).symm

theorem create_eq (castTime : Reports.CastTime) (host : Uuid)
    (hinput : HostAckViewSet.inputData ruleId justification s = .ok (rule, text))
    (huser : requestToUsername request = .ok createdBy) :
    HostAckViewSet.create castTime request ruleId host justification s =
      (updateOrCreate (HostAckViewSet.getQueryset castTime request)
        (HostAckViewSet.defaults request.account text createdBy) (requested request rule text createdBy host) >>=
        fun _ => read (HostAckViewSet.getDisplayName host) >>= lift) s := by
  simp only [HostAckViewSet.create, read_bind, hinput, lift_ok_bind, huser]
  rfl

theorem savesOrRefuses_create (hinput : HostAckViewSet.inputData ruleId justification s = .ok (rule, text))
    (huser : requestToUsername request = .ok createdBy)
    (hfits : storable (requested request rule text createdBy host) = true) :
    SavesOrRefuses castTime request s (.create ruleId host justification) ↔
      (∀ old, s.hostAcks.get? (rule.id, request.orgId, host) = some old →
        HostAckViewSet.getQueryset castTime request s old) ∧
      ∀ row, s.hosts.get? host = some row → (s.inventory.get? (row.orgId, row.inventoryId)).isSome := by
  constructor
  · intro h
    exact h rule text createdBy hinput huser hfits
  · intro h rule' text' createdBy' hin hus _
    obtain ⟨rfl, rfl⟩ : rule = rule' ∧ text = text' := by simpa using hinput.symm.trans hin
    exact h

theorem create_saved (hrun : HostAckViewSet.create castTime request ruleId host justification s =
      (read (HostAckViewSet.getDisplayName host) >>= lift) s')
    (hinput : HostAckViewSet.inputData ruleId justification s = .ok (rule, text))
    (huser : requestToUsername request = .ok createdBy) (hhost : (s.hosts.get? host).isSome)
    (hsaved : Saved [requested request rule text createdBy host] s s') :
    EndsWithOneAck castTime request (.create ruleId host justification) s ↔
      ∀ row, s.hosts.get? host = some row → (s.inventory.get? (row.orgId, row.inventoryId)).isSome := by
  obtain ⟨row, hrow⟩ := Option.isSome_iff_exists.mp hhost
  obtain ⟨hrule, htext⟩ := HostAckViewSet.inputData_ok hinput
  have hname : HostAckViewSet.getDisplayName host s' =
      if (s.inventory.get? (row.orgId, row.inventoryId)).isSome then .ok () else .error .doesNotExist := by
    simp only [HostAckViewSet.getDisplayName, hsaved.hosts, hsaved.inventory, hrow]
  rw [read_bind, hname] at hrun
  by_cases hinventory : (s.inventory.get? (row.orgId, row.inventoryId)).isSome = true
  · refine iff_of_true ?_ fun other hother => by rwa [← Option.some.inj (hrow.symm.trans hother)]
    rw [if_pos hinventory] at hrun
    refine Triple.of_eq hrun (fun _ _ => ⟨rule, hrule.1, hrule.2, fun h hmem => ?_⟩) fun _ he => nomatch he
    rw [List.mem_singleton.mp hmem]
    exact htext ▸ oneAck_of_stored (hsaved.stored _ (by simp)) huser
  · refine iff_of_false ?_ fun hall => hinventory (hall row hrow)
    rw [if_neg hinventory] at hrun
    rw [endsWithOneAck_of_error (.create ruleId host justification) hrun]
    exact fun h => hsaved.updatedAt_ne (by simp) h.2.2

theorem create_iff : EndsWithOneAck castTime request (.create ruleId host justification) s ↔
    SavesOrRefuses castTime request s (.create ruleId host justification) := by
  cases hinput : HostAckViewSet.inputData ruleId justification s with
  | error e =>
    have hrun : HostAckViewSet.create castTime request ruleId host justification s = (.error e, s) := by
      simp only [HostAckViewSet.create, read_bind, hinput, lift_error_bind]
    refine iff_of_true (endsWithOneAck_of_refused hrun ?_) ?_
    · rw [HostAckViewSet.inputData_error hinput]
      decide
    · intro _ _ _ hok
      rw [hinput] at hok
      cases hok
  | ok input =>
    obtain ⟨rule, text⟩ := input
    cases huser : requestToUsername request with
    | error e =>
      have hrun : HostAckViewSet.create castTime request ruleId host justification s = (.error e, s) := by
        simp only [HostAckViewSet.create, read_bind, hinput, lift_ok_bind, huser, lift_error_bind]
      refine iff_of_true (endsWithOneAck_of_refused hrun ?_) ?_
      · rw [requestToUsername_error huser]
        decide
      · intro _ _ _ _ hok
        rw [huser] at hok
        cases hok
    | ok createdBy =>
      have hrun := create_eq castTime host hinput huser
      cases hfits : storable (requested request rule text createdBy host) with
      | false =>
        have hrefused : updateOrCreate (HostAckViewSet.getQueryset castTime request)
            (HostAckViewSet.defaults request.account text createdBy) (requested request rule text createdBy host) s =
              (.error .dataError, s) := by
          simp only [updateOrCreate, hfits, Bool.not_false, if_true]
        have herror := hrun.trans (bind_of_error hrefused)
        refine iff_of_true (endsWithOneAck_of_refused herror (by decide)) ?_
        intro rule' text' createdBy' hin hus hfits'
        obtain ⟨rfl, rfl⟩ : rule = rule' ∧ text = text' := by simpa using hinput.symm.trans hin
        obtain rfl : createdBy = createdBy' := by simpa using huser.symm.trans hus
        rw [hfits] at hfits'
        cases hfits'
      | true =>
        rw [savesOrRefuses_create hinput huser hfits]
        have houtcome : Outcome (HostAckViewSet.getQueryset castTime request)
            (requested request rule text createdBy host) s
            (updateOrCreate (HostAckViewSet.getQueryset castTime request)
              (HostAckViewSet.defaults request.account text createdBy) (requested request rule text createdBy host) s) := by
          refine updateOrCreate_outcome hfits fun old hkey _ => ?_
          exact @requested_of_key request rule text createdBy host { old with account := request.account } hkey rfl
        generalize hsave : updateOrCreate _ _ _ s = result at houtcome
        cases houtcome with
        | saved hhost hfound hsaved =>
          rw [create_saved (hrun.trans (bind_of_ok hsave)) hinput huser hhost hsaved]
          exact (and_iff_right hfound).symm
        | hidden hstored hmissed =>
          have herror := hrun.trans (bind_of_error hsave)
          rw [endsWithOneAck_of_error (.create ruleId host justification) herror]
          refine iff_of_false (fun h => h.1 rfl) fun h => ?_
          rw [h.1 _ hstored] at hmissed
          cases hmissed
        | dangling hfree hhost =>
          have herror := hrun.trans (bind_of_error hsave)
          refine iff_of_true (endsWithOneAck_of_refused herror (by decide)) ⟨?_, ?_⟩
          · intro old hold
            cases hfree.symm.trans hold
          · intro row hrow
            cases hhost.symm.trans hrow

end Create

section AckHosts

variable {castTime : Reports.CastTime} {request : Request} {s s' : State} {rule : Rule}
  {ruleId text createdBy : String} {justification : Option String} {systems : List Uuid} {host : Uuid}

def turn (request : Request) (rule : Rule) (text createdBy : String) (host : Uuid) : Procedure Failure State Unit :=
  updateOrCreate (fun _ old => old.account = request.account) (RuleViewSet.defaults text createdBy)
    (requested request rule text createdBy host)

theorem turn_outcome (hfits : storable (requested request rule text createdBy host) = true) (s : State) :
    Outcome (fun _ old => old.account = request.account) (requested request rule text createdBy host) s
      (turn request rule text createdBy host s) :=
  updateOrCreate_outcome hfits fun _ hkey haccount => requested_of_key hkey (of_decide_eq_true haccount)

theorem turn_saved (hfits : storable (requested request rule text createdBy host) = true)
    (h : Accepts request rule s host) : ∃ s', turn request rule text createdBy host s = (.ok (), s') ∧
      Saved [requested request rule text createdBy host] s s' := by
  have houtcome := turn_outcome hfits s
  generalize hrun : turn request rule text createdBy host s = result at houtcome
  cases houtcome with
  | saved _ _ hsaved => exact ⟨_, rfl, hsaved⟩
  | hidden hstored hmissed => simp [h.2 _ hstored] at hmissed
  | dangling _ hmissing =>
    have hthere := h.1
    rw [show s.hosts.get? host = none from hmissing] at hthere
    cases hthere

theorem accepts_of_saved (hsaved : Saved (systems.map (requested request rule text createdBy)) s s')
    (h : ∀ host ∈ systems, Accepts request rule s host) :
    Accepts request rule s' host ↔ Accepts request rule s host := by
  by_cases hmem : host ∈ systems
  · refine iff_of_true ⟨by rw [hsaved.hosts]; exact (h host hmem).1, fun old hold => ?_⟩ (h host hmem)
    have hstored := hsaved.stored _ (List.mem_map_of_mem hmem)
    rw [← Option.some.inj (hstored.symm.trans hold)]
    rfl
  · unfold Accepts
    rw [hsaved.hosts, hsaved.others]
    intro ack hack hkey
    obtain ⟨other, hother, rfl⟩ := List.mem_map.mp hack
    obtain rfl : other = host := congrArg (·.2.2) hkey
    exact hmem hother

theorem each_saved (hfits : ∀ host ∈ systems, storable (requested request rule text createdBy host) = true)
    (h : ∀ host ∈ systems, Accepts request rule s host) :
    ∃ s', each systems (turn request rule text createdBy) s = (.ok (), s') ∧
      Saved (systems.map (requested request rule text createdBy)) s s' := by
  induction systems generalizing s with
  | nil => exact ⟨s, rfl, .nil s⟩
  | cons host rest ih =>
    obtain ⟨s₁, hturn, hsaved⟩ := turn_saved (hfits host (by simp)) (h host (by simp))
    have hrest : ∀ other ∈ rest, Accepts request rule s₁ other := by
      intro other hother
      have hhost : ∀ other ∈ [host], Accepts request rule s other := by simpa using h host (by simp)
      have hmapped : Saved ([host].map (requested request rule text createdBy)) s s₁ := hsaved
      exact (accepts_of_saved hmapped hhost).mpr (h other (by simp [hother]))
    obtain ⟨s', hrun, hsaved'⟩ := ih (fun other hother => hfits other (by simp [hother])) hrest
    refine ⟨s', ?_, hsaved.cons hsaved' ?_⟩
    · rw [each_cons, bind_of_ok hturn, hrun]
    · intro ack hack hkey
      obtain ⟨other, -, rfl⟩ := List.mem_map.mp hack
      obtain rfl : other = host := congrArg (·.2.2) hkey
      rfl

theorem each_stops {done rest : List Uuid}
    (hfits : ∀ other ∈ done ++ host :: rest, storable (requested request rule text createdBy other) = true)
    (hdone : ∀ other ∈ done, Accepts request rule s other) (hhost : ¬ Accepts request rule s host) :
    ∃ e s', each (done ++ host :: rest) (turn request rule text createdBy) s = (.error e, s') ∧
      Saved (done.map (requested request rule text createdBy)) s s' ∧ (done = [] → s' = s) ∧
      (e = .uniqueViolation ↔ (s.hosts.get? host).isSome) := by
  obtain ⟨s₁, hrun, hsaved⟩ := each_saved (fun other hother => hfits other (by simp [hother])) hdone
  have houtcome := turn_outcome (hfits host (by simp)) s₁
  have hrefused : ¬ Accepts request rule s₁ host := (accepts_of_saved hsaved hdone).not.mpr hhost
  generalize hturn : turn request rule text createdBy host s₁ = result at houtcome
  have heach : each (done ++ host :: rest) (turn request rule text createdBy) s =
      (turn request rule text createdBy host >>= fun _ => each rest (turn request rule text createdBy)) s₁ := by
    rw [each_append, bind_of_ok hrun, each_cons]
  have hnone : done = [] → s₁ = s := by
    rintro rfl
    exact ((Prod.mk.inj hrun).2).symm
  cases houtcome with
  | saved hthere hfound _ =>
    exact absurd ⟨hthere, fun old hold => of_decide_eq_true (hfound old hold)⟩ hrefused
  | @hidden old hstored _ =>
    refine ⟨_, s₁, heach.trans (bind_of_error hturn), hsaved, hnone, iff_of_true rfl ?_⟩
    obtain ⟨hmem, hkey⟩ := Table.get?_eq_some.mp hstored
    have hthere := s₁.ackHosts old hmem
    rwa [State.host_eq hkey, hsaved.hosts] at hthere
  | dangling _ hmissing =>
    refine ⟨_, s₁, heach.trans (bind_of_error hturn), hsaved, hnone, iff_of_false (by decide) ?_⟩
    rw [hsaved.hosts] at hmissing
    simp [show s.hosts.get? host = none from hmissing]

theorem inputData_ok (h : RuleViewSet.inputData request ruleId systems justification s = .ok (rule, text)) :
    (rule ∈ s.rules ∧ rule.ruleId = ruleId) ∧ justification = some text := by
  unfold RuleViewSet.inputData at h
  split at h
  · cases h
  · rename_i found hfound
    split at h
    · cases h
    · split at h
      · cases h
        exact ⟨activeRule_eq hfound, rfl⟩
      · cases h

theorem inputData_error {e : Failure} (h : RuleViewSet.inputData request ruleId systems justification s = .error e) :
    e ≠ .uniqueViolation := by
  unfold RuleViewSet.inputData at h
  rintro rfl
  split at h
  · cases h
  · split at h
    · cases h
    · split at h <;> cases h

theorem exists_first {p : Uuid → Prop} (h : ¬ ∀ host ∈ systems, p host) :
    ∃ done host rest, systems = done ++ host :: rest ∧ (∀ other ∈ done, p other) ∧ ¬ p host := by
  induction systems with
  | nil => exact absurd (fun _ hmem => nomatch hmem) h
  | cons host rest ih =>
    by_cases hhost : p host
    · obtain ⟨done, other, after, rfl, hdone, hother⟩ := ih fun hrest => h (by simpa [hhost] using hrest)
      exact ⟨host :: done, other, after, rfl, by simpa [hhost] using hdone, hother⟩
    · exact ⟨[], host, rest, rfl, by simp, hhost⟩

theorem exists_first_append {p : Uuid → Prop} {done rest after : List Uuid} {first : Uuid}
    (hdone : ∀ other ∈ done, p other) (hsystems : done ++ host :: rest = first :: after) (hfirst : ¬ p first) :
    done = [] ∧ host = first := by
  cases done with
  | nil => exact ⟨rfl, (List.cons.inj hsystems).1⟩
  | cons other done =>
    obtain rfl := (List.cons.inj hsystems).1
    exact absurd (hdone other (by simp)) hfirst

theorem ackHosts_fits (hrun : (Action.ackHosts ruleId systems justification).run castTime request s =
      each systems (turn request rule text createdBy) s)
    (hinput : RuleViewSet.inputData request ruleId systems justification s = .ok (rule, text))
    (huser : requestToUsername request = .ok createdBy)
    (hfits : ∀ host ∈ systems, storable (requested request rule text createdBy host) = true) :
    EndsWithOneAck castTime request (.ackHosts ruleId systems justification) s ↔
      (∀ host ∈ systems, Accepts request rule s host) ∨
        ∃ host rest, systems = host :: rest ∧ s.hosts.get? host = none := by
  by_cases hall : ∀ host ∈ systems, Accepts request rule s host
  · refine iff_of_true ?_ (Or.inl hall)
    obtain ⟨s', heach, hsaved⟩ := each_saved hfits hall
    obtain ⟨hrule, hjustification⟩ := inputData_ok hinput
    refine Triple.of_eq (hrun.trans heach) (fun _ _ => ⟨rule, hrule.1, hrule.2, ?_⟩) fun _ he => nomatch he
    intro host hhost
    rw [show (Action.ackHosts ruleId systems justification).justification = some text from hjustification]
    exact oneAck_of_stored (hsaved.stored _ (List.mem_map_of_mem hhost)) huser
  · obtain ⟨done, host, rest, rfl, hdone, hhost⟩ := exists_first hall
    obtain ⟨e, s', heach, hsaved, hfirst, hunique⟩ := each_stops hfits hdone hhost
    rw [endsWithOneAck_of_error _ (hrun.trans heach), or_iff_right hall, Ne, hunique]
    constructor
    · rintro ⟨hmissing, -, hupdatedAt⟩
      have hnone : done = [] := by
        by_contra hne
        exact hsaved.updatedAt_ne (by simpa using hne) hupdatedAt
      exact ⟨host, rest, by rw [hnone]; rfl, by simpa using hmissing⟩
    · rintro ⟨first, after, hsystems, hmissing⟩
      have hrefused : ¬ Accepts request rule s first := by
        rintro ⟨hthere, -⟩
        rw [hmissing] at hthere
        cases hthere
      obtain ⟨hnone, rfl⟩ := exists_first_append hdone hsystems hrefused
      rw [hfirst hnone]
      exact ⟨by simp [hmissing], .refl _, rfl⟩

theorem storable_requested (host other : Uuid) :
    storable (requested request rule text createdBy host) = storable (requested request rule text createdBy other) :=
  rfl

theorem ackHosts_iff : EndsWithOneAck castTime request (.ackHosts ruleId systems justification) s ↔
    SavesOrRefuses castTime request s (.ackHosts ruleId systems justification) := by
  cases huser : requestToUsername request with
  | error e =>
    have hrun : RuleViewSet.ackHosts request ruleId systems justification s = (.error e, s) := by
      simp only [RuleViewSet.ackHosts, huser, lift_error_bind]
    refine iff_of_true (endsWithOneAck_of_refused hrun ?_) ?_
    · rw [requestToUsername_error huser]
      decide
    · intro _ _ _ _ hok
      rw [huser] at hok
      cases hok
  | ok createdBy =>
    cases hinput : RuleViewSet.inputData request ruleId systems justification s with
    | error e =>
      have hrun : RuleViewSet.ackHosts request ruleId systems justification s = (.error e, s) := by
        simp only [RuleViewSet.ackHosts, huser, lift_ok_bind, read_bind, hinput, lift_error_bind]
      refine iff_of_true (endsWithOneAck_of_refused hrun (inputData_error hinput)) ?_
      intro _ _ _ hok
      rw [hinput] at hok
      cases hok
    | ok input =>
      obtain ⟨rule, text⟩ := input
      have hrun : (Action.ackHosts ruleId systems justification).run castTime request s =
          each systems (turn request rule text createdBy) s := by
        simp only [Action.run, RuleViewSet.ackHosts, huser, lift_ok_bind, read_bind, hinput]
        rfl
      by_cases hfits : ∀ host ∈ systems, storable (requested request rule text createdBy host) = true
      · rw [ackHosts_fits hrun hinput huser hfits]
        constructor
        · intro h rule' text' createdBy' hin _ _
          obtain ⟨rfl, -⟩ : rule = rule' ∧ text = text' := by simpa using hinput.symm.trans hin
          exact h
        · intro h
          exact h rule text createdBy hinput huser hfits
      · obtain ⟨host, rest, rfl, herror⟩ : ∃ host rest, systems = host :: rest ∧
            turn request rule text createdBy host s = (.error .dataError, s) := by
          cases systems with
          | nil => exact absurd (fun _ hmem => nomatch hmem) hfits
          | cons host rest =>
            have hlong : storable (requested request rule text createdBy host) = false := by
              by_contra hshort
              exact hfits fun other _ => by simpa [storable_requested other host] using hshort
            exact ⟨host, rest, rfl, by simp only [turn, updateOrCreate, hlong, Bool.not_false, if_true]⟩
        rw [each_cons, bind_of_error herror] at hrun
        refine iff_of_true (endsWithOneAck_of_refused hrun (by decide)) ?_
        intro rule' text' createdBy' hin hus hfits'
        obtain ⟨rfl, rfl⟩ : rule = rule' ∧ text = text' := by simpa using hinput.symm.trans hin
        obtain rfl : createdBy = createdBy' := by simpa using huser.symm.trans hus
        exact absurd hfits' hfits

end AckHosts

/-- When an ack request ends with one ack, or with none changed. -/
theorem endsWithOneAck_iff (castTime : Reports.CastTime) (request : Request) (action : Action) (s : State) :
    EndsWithOneAck castTime request action s ↔ SavesOrRefuses castTime request s action := by
  cases action with
  | create ruleId host justification => exact create_iff
  | ackHosts ruleId systems justification => exact ackHosts_iff

section StaleHost

def staleAck : HostAck := { rule := 1, host := 1, account := some "540155", orgId := "1000001", createdBy := "admin" }

theorem staleHost_reportRules : ∀ report ∈ (.empty : Table CurrentReport.key),
    ((.single { id := 1, ruleId := "rule|ERROR", active := true } : Table Rule.id).get? report.rule).isSome :=
  fun _ h => absurd h List.not_mem_nil

def staleHost : State where
  rules := .single { id := 1, ruleId := "rule|ERROR", active := true }
  categoryOf _ := 1
  reports := .empty
  acks := .empty
  hostAcks := .single staleAck
  hosts := .single { inventoryId := 1, account := some "540155", orgId := "1000001" }
  inventory := .single (Satellite.inventoryOf "1000001" 1)
  reportRules := staleHost_reportRules
  reportHosts _ h := absurd h List.not_mem_nil
  complete row h := Table.mem_single.mp h ▸ Satellite.complete_inventoryOf "1000001" 1
  deleted _ := false
  updatedAt _ := 0
  now := 1
  past _ := by decide
  ackHosts ack h := by rw [Table.mem_single.mp h]; rfl

def staleHostUser : Request := { orgId := "1000001", account := some "540155", username := some "admin" }

theorem staleHost_unique :
    ¬ ∀ (castTime : Reports.CastTime) (request : Request) (action : Action) (s : State),
      EndsWithOneAck castTime request action s := by
  intro h
  have hends := h (fun _ => none) staleHostUser (.create "rule|ERROR" 1 none) staleHost
  have hrun : (HostAckViewSet.create (fun _ => none) staleHostUser "rule|ERROR" 1 none staleHost).1 =
      .error .uniqueViolation := by
    decide +kernel
  rw [endsWithOneAck_of_error (.create "rule|ERROR" 1 none) (Prod.ext hrun rfl)] at hends
  exact hends.1 rfl

end StaleHost

end Advisor.HostAcks
