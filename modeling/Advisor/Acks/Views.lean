import Advisor.Importer.Model
import Mathlib.Data.List.Sort

/-! The views that make, change and delete the acks of an organisation, and those that tell automatic acks from others. -/

namespace Advisor.Acks

open Importer

/-- Who asks: `request.auth['org_id']`, `request.account` and the name of the user. -/
structure AckRequest where
  orgId : String
  account : Option String
  username : String

inductive Failure where
  | notFound
  | badRequest
  | database
  deriving DecidableEq

def fits (width : Nat) (text : String) : Bool := text.length ≤ width && !text.toList.contains '\x00'

def storable (ack : Importer.Ack) : Bool :=
  ack.account.all (fits 10) && fits 50 ack.orgId && fits 255 ack.justification && fits 255 ack.createdBy

/-- `Ack.objects.update_or_create` by organisation and rule. -/
def updateOrCreate (ack : Importer.Ack) (db : Importer.Database) : Except Failure Importer.Database :=
  if !storable ack then .error .database
  else if db.acks.any fun old => old.rule = ack.rule && old.orgId = ack.orgId then
    .ok { db with acks := db.acks.map fun old => if old.rule = ack.rule && old.orgId = ack.orgId then ack else old }
  else .ok { db with acks := db.acks ++ [ack] }

def isActive (db : Importer.Database) (ruleId : String) : Bool := db.rules.any fun rule => rule.ruleId = ruleId && rule.active

namespace AckViewSet

variable (request : AckRequest) (ruleId justification : String) (db : Importer.Database)

def getObject : Option Importer.Ack :=
  db.acks.find? fun ack => ack.rule = ruleId && ack.orgId = request.orgId && isActive db ruleId

/-- The texts are those the serializer gives. -/
def create : Except Failure Importer.Database :=
  if !(db.rules.any fun rule => rule.ruleId = ruleId) || justification.length > 255 then .error .badRequest
  else updateOrCreate ⟨ruleId, request.account, request.orgId, justification, request.username⟩ db

def update : Except Failure Importer.Database :=
  if justification.length > 255 then .error .badRequest
  else
    match getObject request ruleId db with
    | none => .error .notFound
    | some ack => updateOrCreate { ack with justification, createdBy := request.username } db

def destroy : Except Failure Importer.Database :=
  match getObject request ruleId db with
  | none => .error .notFound
  | some ack => .ok { db with acks := db.acks.filter fun old => !(old.rule = ack.rule && old.orgId = ack.orgId) }

/-- The list of the acks of all organisations, in the order of these and of the rules. -/
def all : List Importer.Ack :=
  (db.acks.filter fun ack => isActive db ack.rule && ack.createdBy ≠ autoackCreatedBy).insertionSort fun a b =>
    a.orgId < b.orgId ∨ a.orgId = b.orgId ∧ a.rule ≤ b.rule

end AckViewSet

namespace SatelliteAckViewSet

variable (request : AckRequest) (ruleId : String) (db : Importer.Database)

def create : Except Failure Importer.Database :=
  if !db.rules.any fun rule => rule.ruleId = ruleId then .error .badRequest
  else updateOrCreate ⟨ruleId, request.account, request.orgId, "Satellite compatibility", "Satellite compatibility"⟩ db

/-- An ack is deleted by its own id, also one of a rule that is not active. -/
def destroy : Except Failure Importer.Database :=
  if db.acks.any fun ack => ack.rule = ruleId && ack.orgId = request.orgId then
    .ok { db with acks := db.acks.filter fun old => !(old.rule = ruleId && old.orgId = request.orgId) }
  else .error .notFound

end SatelliteAckViewSet

/-- `rule_status` of `RuleManager.for_account`. -/
def ruleStatus (db : Importer.Database) (orgId ruleId : String) : String :=
  match db.acks.find? fun ack => ack.rule = ruleId && ack.orgId = orgId with
  | none => "enabled"
  | some ack => if ack.createdBy = autoackCreatedBy then "rhdisabled" else "disabled"

def forAccount (db : Importer.Database) (orgId : String) : List (String × String) :=
  (db.rules.filter (·.active)).map fun rule => (rule.ruleId, ruleStatus db orgId rule.ruleId)

section Acks

variable {db db' : Importer.Database} {request : AckRequest} {ack old : Importer.Ack} {ruleId justification : String}

theorem updateOrCreate_ok (h : updateOrCreate ack db = .ok db') :
    ∃ acks, db' = { db with acks } ∧
      ∀ old ∈ acks, old = ack ∨ old ∈ db.acks ∧ ¬ (old.rule = ack.rule ∧ old.orgId = ack.orgId) := by
  unfold updateOrCreate at h
  split_ifs at h with hfits hany
  · refine ⟨_, (Except.ok.inj h).symm, ?_⟩
    intro old hold
    obtain ⟨row, hrow, rfl⟩ := List.mem_map.mp hold
    by_cases hkey : row.rule = ack.rule ∧ row.orgId = ack.orgId
    · exact Or.inl (by simp [hkey])
    · have hsame : (if row.rule = ack.rule && row.orgId = ack.orgId then ack else row) = row := by simp [hkey]
      rw [hsame]
      exact Or.inr ⟨hrow, hkey⟩
  · refine ⟨_, (Except.ok.inj h).symm, ?_⟩
    intro old hold
    rcases List.mem_append.mp hold with hold | hold
    · refine Or.inr ⟨hold, fun hkey => hany ?_⟩
      exact List.any_eq_true.mpr ⟨old, hold, by simp [hkey]⟩
    · exact Or.inl (List.mem_singleton.mp hold)

/-- Acks that a user has changed have the name of the user, the others have not changed. -/
structure Changed (orgId ruleId username : String) (db db' : Importer.Database) : Prop where
  frame : db' = { db with acks := db'.acks }
  acks : ∀ ack ∈ db'.acks, ack.rule = ruleId ∧ ack.orgId = orgId ∧ ack.createdBy = username ∨
    ack ∈ db.acks ∧ ¬ (ack.rule = ruleId ∧ ack.orgId = orgId)

theorem updateOrCreate_changed (h : updateOrCreate ack db = .ok db') : Changed ack.orgId ack.rule ack.createdBy db db' := by
  obtain ⟨acks, rfl, hacks⟩ := updateOrCreate_ok h
  refine ⟨rfl, fun old hold => ?_⟩
  rcases hacks old hold with rfl | hkept
  · exact Or.inl ⟨rfl, rfl, rfl⟩
  · exact Or.inr hkept

theorem create_changed (h : AckViewSet.create request ruleId justification db = .ok db') :
    Changed request.orgId ruleId request.username db db' := by
  unfold AckViewSet.create at h
  split_ifs at h
  exact updateOrCreate_changed h

theorem getObject_eq (h : AckViewSet.getObject request ruleId db = some ack) :
    ack ∈ db.acks ∧ ack.rule = ruleId ∧ ack.orgId = request.orgId := by
  have hfound := List.find?_some h
  simp only [Bool.and_eq_true, decide_eq_true_eq] at hfound
  exact ⟨List.mem_of_find?_eq_some h, hfound.1.1, hfound.1.2⟩

theorem update_changed (h : AckViewSet.update request ruleId justification db = .ok db') :
    Changed request.orgId ruleId request.username db db' := by
  unfold AckViewSet.update at h
  split_ifs at h
  cases hfound : AckViewSet.getObject request ruleId db with
  | none => simp [hfound] at h
  | some ack =>
    obtain ⟨-, rfl, horg⟩ := getObject_eq hfound
    simp only [hfound] at h
    rw [← horg]
    exact updateOrCreate_changed h

theorem satelliteCreate_changed (h : SatelliteAckViewSet.create request ruleId db = .ok db') :
    Changed request.orgId ruleId "Satellite compatibility" db db' := by
  unfold SatelliteAckViewSet.create at h
  split_ifs at h
  exact updateOrCreate_changed h

theorem destroy_subset (h : AckViewSet.destroy request ruleId db = .ok db') : ∀ ack ∈ db'.acks, ack ∈ db.acks := by
  unfold AckViewSet.destroy at h
  cases hfound : AckViewSet.getObject request ruleId db with
  | none => simp [hfound] at h
  | some ack =>
    simp only [hfound, Except.ok.injEq] at h
    subst h
    exact fun ack hack => List.mem_of_mem_filter hack

theorem satelliteDestroy_subset (h : SatelliteAckViewSet.destroy request ruleId db = .ok db') :
    ∀ ack ∈ db'.acks, ack ∈ db.acks := by
  unfold SatelliteAckViewSet.destroy at h
  split_ifs at h
  obtain rfl := Except.ok.inj h
  exact fun ack hack => List.mem_of_mem_filter hack

theorem ruleStatus_of_mem (hunique : (db.acks.map fun ack => (ack.rule, ack.orgId)).Nodup) (h : ack ∈ db.acks) :
    ruleStatus db ack.orgId ack.rule = if ack.createdBy = autoackCreatedBy then "rhdisabled" else "disabled" := by
  have hfind : (db.acks.find? fun other => other.rule = ack.rule && other.orgId = ack.orgId) = some ack := by
    cases hfound : db.acks.find? fun other => other.rule = ack.rule && other.orgId = ack.orgId with
    | none =>
      have hnone := List.find?_eq_none.mp hfound ack h
      simp at hnone
    | some other =>
      have hkey := List.find?_some hfound
      simp only [Bool.and_eq_true, decide_eq_true_eq] at hkey
      rw [List.inj_on_of_nodup_map hunique (List.mem_of_find?_eq_some hfound) h (Prod.ext hkey.1 hkey.2)]
  rw [ruleStatus, hfind]

theorem mem_all : ack ∈ AckViewSet.all db ↔ ack ∈ db.acks ∧ isActive db ack.rule = true ∧ ack.createdBy ≠ autoackCreatedBy := by
  simp [AckViewSet.all, List.mem_insertionSort]

end Acks

end Advisor.Acks
