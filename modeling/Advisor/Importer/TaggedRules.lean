import Advisor.Importer.ApiRuns
import Advisor.Importer.Management
import Mathlib.Data.List.Dedup

/-! Automatic acks of a rule that is given their tag: one for each pair of an account and an organisation, where the
table takes one for an organisation. -/

namespace Advisor.Importer.Api

open Python Procedure Django Relational

variable {env : Environment} {s : State} {ruleId : String}

def AcksUnique (db : Database) : Prop := (db.acks.map fun ack => (ack.rule, ack.orgId)).Nodup

def acked (db : Database) (ruleId orgId : String) : Bool :=
  db.acks.any fun ack => ack.rule = ruleId && ack.orgId = orgId

/-- The organisation has hosts, and the rule has not been acked for it. -/
def Awaits (db : Database) (ruleId orgId : String) : Prop :=
  (∃ account, (account, orgId) ∈ db.hosts) ∧ acked db ruleId orgId = false

/-- Every organisation that awaits it has one automatic ack more, and the acks there were are left alone. -/
structure Acknowledges (ruleId : String) (s s' : State) : Prop where
  created : ∃ new, s'.db.acks = s.db.acks ++ new ∧ (new.map Ack.orgId).Nodup ∧
    (∀ orgId, orgId ∈ new.map Ack.orgId ↔ Awaits s.db ruleId orgId) ∧
    ∀ ack ∈ new, ack.rule = ruleId ∧ ack.justification = autoackJustification ∧ ack.createdBy = autoackCreatedBy
  unique : AcksUnique s'.db

def newAccounts (db : Database) (ruleId : String) : List (Option String × String) :=
  db.hosts.dedup.filter fun e => !acked db ruleId e.2

def newAcks (db : Database) (ruleId : String) : List Ack :=
  (newAccounts db ruleId).map fun e => ⟨ruleId, e.1, e.2, autoackJustification, autoackCreatedBy⟩

theorem mem_newAccounts {db : Database} {e : Option String × String} :
    e ∈ newAccounts db ruleId ↔ e ∈ db.hosts ∧ acked db ruleId e.2 = false := by
  rw [newAccounts, List.mem_filter, List.mem_dedup, Bool.not_eq_true', eq_comm]

theorem orgs_newAcks (db : Database) : (newAcks db ruleId).map Ack.orgId = (newAccounts db ruleId).map Prod.snd := by
  rw [newAcks, List.map_map]
  rfl

theorem mem_orgs_newAcks {db : Database} {orgId : String} :
    orgId ∈ (newAcks db ruleId).map Ack.orgId ↔ Awaits db ruleId orgId := by
  rw [orgs_newAcks, List.mem_map]
  constructor
  · rintro ⟨e, he, rfl⟩
    obtain ⟨hhost, hacked⟩ := mem_newAccounts.mp he
    exact ⟨⟨e.1, hhost⟩, hacked⟩
  · rintro ⟨⟨account, hhost⟩, hacked⟩
    exact ⟨(account, orgId), mem_newAccounts.mpr ⟨hhost, hacked⟩, rfl⟩

/-- The new acks are of organisations that have none, so only among themselves can they clash. -/
theorem unique_append_iff (h : AcksUnique s.db) :
    ((s.db.acks ++ newAcks s.db ruleId).map fun ack => (ack.rule, ack.orgId)).Nodup ↔
      ((newAcks s.db ruleId).map Ack.orgId).Nodup := by
  have hkeys : ((newAcks s.db ruleId).map fun ack => (ack.rule, ack.orgId)) =
      ((newAcks s.db ruleId).map Ack.orgId).map fun orgId => (ruleId, orgId) := by
    rw [orgs_newAcks, newAcks, List.map_map, List.map_map]
    rfl
  rw [List.map_append, List.nodup_append, hkeys]
  constructor
  · rintro ⟨-, hnew, -⟩
    exact hnew.of_map
  · intro hnew
    refine ⟨h, hnew.map fun _ _ hpair => (Prod.mk.inj hpair).2, ?_⟩
    intro key hkey key' hkey' heq
    obtain ⟨ack, hack, rfl⟩ := List.mem_map.mp hkey
    obtain ⟨orgId, horg, rfl⟩ := List.mem_map.mp hkey'
    obtain ⟨hrule, horgId⟩ := Prod.mk.inj heq
    have hnone := (mem_orgs_newAcks.mp horg).2
    rw [acked, List.any_eq_false] at hnone
    exact hnone ack hack (by simp [hrule, horgId])

theorem orgs_nodup_iff :
    ((newAcks s.db ruleId).map Ack.orgId).Nodup ↔ ∀ orgId, acked s.db ruleId orgId = false →
      ∀ account other, (account, orgId) ∈ s.db.hosts → (other, orgId) ∈ s.db.hosts → account = other := by
  have hnodup : (newAccounts s.db ruleId).Nodup := (List.Nodup.filter _ (List.nodup_dedup _))
  rw [orgs_newAcks]
  constructor
  · intro h orgId hacked account other hhost hother
    have hpair := List.inj_on_of_nodup_map h (mem_newAccounts.mpr ⟨hhost, hacked⟩) (mem_newAccounts.mpr ⟨hother, hacked⟩) rfl
    exact (Prod.mk.inj hpair).1
  · intro h
    refine hnodup.map_on ?_
    rintro ⟨account, orgId⟩ he ⟨other, _⟩ he' rfl
    obtain ⟨hhost, hacked⟩ := mem_newAccounts.mp he
    rw [h orgId hacked account other hhost (mem_newAccounts.mp he').1]

def tagged (s : State) (ruleId : String) : State := { s with db := { s.db with
  tags := if s.db.tags.contains autoackTag then s.db.tags else s.db.tags ++ [autoackTag]
  ruleTags := if s.db.ruleTags.contains (ruleId, autoackTag) then s.db.ruleTags
    else s.db.ruleTags ++ [(ruleId, autoackTag)] } }

theorem getOrCreateTag_autoack (s : State) :
    getOrCreateTag env autoackTag s = (.ok (), { s with db := { s.db with
      tags := if s.db.tags.contains autoackTag then s.db.tags else s.db.tags ++ [autoackTag] } }) := by
  have hname : charOf env.toLibrary 32 (.str autoackTag) = .ok autoackTag := by
    simp only [charOf, textOf, bind, Except.bind]
    rfl
  rw [getOrCreateTag, read_bind]
  by_cases htag : s.db.tags.contains autoackTag = true
  · rw [if_neg (by rw [htag]; decide), if_pos htag]
    rfl
  · rw [if_pos (by rw [Bool.eq_false_iff.mpr htag]; rfl), hname, lift_ok_bind, if_neg htag]
    rfl

theorem addTag_autoack (accounts : List (Option String × String)) (s : State) :
    addTag env accounts ruleId autoackTag s = addAutoacksForRule accounts ruleId (tagged s ruleId) := by
  rw [addTag, bind_of_ok (getOrCreateTag_autoack s), modify, write_bind, if_pos rfl]
  rfl

/-- An automatic ack for every organisation that awaits one, exactly if each of these has its hosts under one account. -/
theorem acknowledges_iff (h : AcksUnique s.db) :
    (∃ s', addTag env s.db.hosts.dedup ruleId autoackTag s = (.ok (), s') ∧ Acknowledges ruleId s s') ↔
      ∀ orgId, acked s.db ruleId orgId = false →
        ∀ account other, (account, orgId) ∈ s.db.hosts → (other, orgId) ∈ s.db.hosts → account = other := by
  rw [addTag_autoack, addAutoacksForRule, read_bind, ← orgs_nodup_iff, ← unique_append_iff h]
  have hchecked : ((s.db.hosts.dedup.filter fun e =>
      !(tagged s ruleId).db.acks.any fun ack => ack.rule = ruleId && ack.orgId = e.2).map
        fun e => (⟨ruleId, e.1, e.2, autoackJustification, autoackCreatedBy⟩ : Ack)) = newAcks s.db ruleId := rfl
  simp only [hchecked]
  constructor
  · rintro ⟨s', hrun, -⟩
    rw [run_bind_eq_ok] at hrun
    obtain ⟨acks, t, hlift, -⟩ := hrun
    exact (checkUnique_eq_ok.mp (run_lift_eq_ok.mp hlift).1).1
  · intro hunique
    have hok : checkUnique (fun ack : Ack => (ack.rule, ack.orgId)) ((tagged s ruleId).db.acks ++ newAcks s.db ruleId) =
        .ok (s.db.acks ++ newAcks s.db ruleId) := checkUnique_eq_ok.mpr ⟨hunique, rfl⟩
    rw [hok, lift_ok_bind]
    refine ⟨_, rfl, ⟨newAcks s.db ruleId, rfl, (unique_append_iff h).mp hunique, fun _ => mem_orgs_newAcks, ?_⟩, hunique⟩
    intro ack hack
    obtain ⟨e, -, rfl⟩ := List.mem_map.mp hack
    exact ⟨rfl, rfl, rfl⟩

theorem acknowledges_fixtures :
    ∃ s', addTag Management.plainEnvironment Management.fixtures.hosts.dedup "rule|ERROR" autoackTag
      { db := Management.fixtures } = (.ok (), s') ∧ Acknowledges "rule|ERROR" { db := Management.fixtures } s' := by
  refine (acknowledges_iff (s := { db := Management.fixtures }) List.nodup_nil).mpr ?_
  intro orgId _ account other hhost hother
  exact (Prod.mk.inj ((List.mem_singleton.mp hhost).trans (List.mem_singleton.mp hother).symm)).1

def mixedHosts : State where
  db := {
    categories := []
    pathways := []
    rulesets := []
    systemTypes := []
    hosts := [(some "1234567", "9876543"), (none, "9876543")] }

theorem mixedHosts_not_acknowledged :
    ¬ ∀ (env : Environment) (s : State) (ruleId : String), AcksUnique s.db →
      ∃ s', addTag env s.db.hosts.dedup ruleId autoackTag s = (.ok (), s') ∧ Acknowledges ruleId s s' := by
  intro h
  obtain ⟨s', hrun, -⟩ := h Management.plainEnvironment mixedHosts "rule|ERROR" List.nodup_nil
  have hraises : isOk (addTag Management.plainEnvironment mixedHosts.db.hosts.dedup "rule|ERROR" autoackTag mixedHosts).1 =
      false := by decide +kernel
  rw [hrun] at hraises
  cases hraises

end Advisor.Importer.Api
