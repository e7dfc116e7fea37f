import Advisor.Django.Columns
import Advisor.Python.Dict
import Advisor.Python.Raise
import Advisor.Python.Uuid

/-! Rule content, the config it is graded by and the tables both importers fill. A foreign key
holds the unique name of the row it points to; timestamps are left out. -/

namespace Advisor.Importer

open Python Django Relational

/-- One rule of the content; `rule_id` is always made from its path, and both importers refuse a
row without tags. YAML reads an unquoted `publish_date` as a time. -/
structure ContentRow where
  ruleId : String
  tags : List String
  publishDate : Option Attribute := none
  items : List (String × Json)

namespace ContentRow

variable (row : ContentRow)

def get? (key : String) : Option Json := row.items.lookup key

def item (key : String) : Except Exception Json :=
  match row.get? key with
  | some value => .ok value
  | none => .error (.keyError key)

def publishDateItem : Except Exception Attribute :=
  match row.publishDate with
  | some value => .ok value
  | none => .error (.keyError "publish_date")

end ContentRow

theorem item_eq_ok {row : ContentRow} {field : String} {value : Json} :
    row.item field = .ok value ↔ row.get? field = some value := by
  unfold ContentRow.item
  cases row.get? field <;> simp

/-- The parts of `config.yaml` that are imported: levels by name, and names of tags by group. -/
structure Config where
  impact : Dict (Option String) Json
  resolutionRisk : Dict String Json
  tags : List (String × List String)

structure Level where
  name : String
  level : Nat
  deriving DecidableEq

structure Pathway where
  slug : String
  component : String
  resolutionRiskName : String
  deriving DecidableEq

structure RuleSet where
  ruleSource : String
  moduleStartsWith : String
  deriving DecidableEq

structure SystemType where
  role : String
  productCode : String
  deriving DecidableEq

structure Rule where
  ruleset : String
  ruleId : String
  description : String
  totalRisk : Nat
  active : Bool
  rebootRequired : Bool
  publishDate : Option Instant
  category : String
  impact : Option String
  likelihood : Nat
  pathway : Option String
  nodeId : String
  summary : String
  generic : String
  reason : String
  moreInfo : String
  deriving DecidableEq

structure Ack where
  rule : String
  account : Option String
  orgId : String
  justification : String
  createdBy : String
  deriving DecidableEq

structure Resolution where
  rule : String
  systemType : SystemType
  resolution : String
  resolutionRisk : String
  deriving DecidableEq

def Resolution.key (row : Resolution) : String × SystemType := (row.rule, row.systemType)

/-- The width of `type` is part of which playbooks there can be. -/
structure Playbook where
  resolution : String × SystemType
  type : { type : String // type.length ≤ 100 }
  play : Option String
  description : String
  path : String
  version : Option String
  deriving DecidableEq

structure CurrentReport where
  rule : String
  account : Option String
  orgId : String
  host : Uuid
  deriving DecidableEq

/-- Categories, pathways, rulesets and system types come from fixtures and stand in the order of
their models; `hosts` has the account and the organisation of each host. -/
structure Database where
  categories : List String
  pathways : List Pathway
  rulesets : List RuleSet
  systemTypes : List SystemType
  hosts : List (Option String × String)
  impacts : List Level := []
  resolutionRisks : List Level := []
  tags : List String := []
  rules : List Rule := []
  ruleTags : List (String × String) := []
  acks : List Ack := []
  resolutions : List Resolution := []
  playbooks : List Playbook := []
  reports : List CurrentReport := []
  deriving DecidableEq

/-- Parsers of dates beside the texts of a library: the date and time `parse_datetime` finds
written in a text, whatever their offset, and `strptime` by text and format. -/
structure Environment extends Library where
  writtenTime : String → Except Exception (Option Instant)
  strptime : String → String → Option Instant

/-- The orders in which one run lists the elements of a set and the acks of a queryset. -/
structure Listing where
  listed : List String → List String
  listed_perm : ∀ xs, (listed xs).Perm xs
  ordered : List Ack → List Ack
  ordered_perm : ∀ acks, (ordered acks).Perm acks

def autoackTag : String := "autoack"

def autoackCreatedBy : String := "Red Hat Lightspeed"

def autoackJustification : String := "Disabled by default - enable to begin detection"

def truncate (q : ℚ) : Int := q.num.tdiv q.den

def average (a b : Json) : Except Exception Int :=
  match a.number, b.number with
  | some (.finite p), some (.finite q) => .ok (truncate ((p + q) / 2))
  | some _, some _ => .error .valueError
  | _, _ => .error .typeError

theorem truncate_intCast (i : Int) : truncate (i : ℚ) = i := by simp [truncate]

theorem truncate_of_nonneg {q : ℚ} (h : 0 ≤ q) : truncate q = ⌊q⌋ := by
  rw [truncate, Rat.floor_def', Int.tdiv_eq_ediv_of_nonneg (Rat.num_nonneg.mpr h)]

theorem truncate_half (n : Nat) : truncate ((n : ℚ) / 2) = (n / 2 : Nat) := by
  rw [truncate_of_nonneg (by positivity), Int.natCast_div]
  exact Rat.floor_intCast_div_natCast n 2

theorem average_eq_ok {a b : Json} {t : Int} :
    average a b = .ok t ↔ ∃ p q, a.number = some (.finite p) ∧ b.number = some (.finite q) ∧ truncate ((p + q) / 2) = t := by
  unfold average
  cases ha : a.number with
  | none => simp
  | some x =>
    cases hb : b.number with
    | none => simp
    | some y => cases x <;> cases y <;> simp

theorem integerOf_of_number {lib : Library} {value : Json} {q : ℚ} (h : value.number = some (.finite q)) :
    integerOf lib value = .ok (truncate q) := by
  cases value with
  | bool b => cases b <;> simp [Json.number] at h <;> subst h <;> simp [integerOf, truncate]
  | int i =>
    simp only [Json.number, Option.some.injEq, Floating.finite.injEq] at h
    rw [← h, truncate_intCast, integerOf]
  | float x =>
    simp only [Json.number, Option.some.injEq] at h
    rw [h]
    rfl
  | _ => simp [Json.number] at h

def smallInteger (i : Int) : Except Exception Nat :=
  if 0 ≤ i ∧ i < 2 ^ 15 then .ok i.toNat else .error .dataError

/-- A column of a level: the row a config entry is saved as. -/
def level (lib : Library) (name : String) (value : Json) : Except Exception Level := do
  let name ← charOf lib 80 (.str name)
  let i ← required (integerOf lib) value
  .ok ⟨name, ← smallInteger i⟩

def nameIn (lib : Library) (names : List String) : Json → Except Exception String
  | .str name => if name ∈ names then .ok name else .error (.keyError name)
  | .list _ | .dict _ => .error .typeError
  | value => .error (.keyError (lib.render value))

theorem charOf_str {lib : Library} {n : Nat} {s t : String} (h : charOf lib n (.str s) = .ok t) : t = s := by
  simp only [charOf, textOf, bind_eq_ok] at h
  obtain ⟨text, htext, h⟩ := h
  split at htext
  · cases htext
  · cases htext
    split at h
    · cases h
      rfl
    · cases h

theorem smallInteger_eq_ok {i : Int} {n : Nat} : smallInteger i = .ok n ↔ i = n ∧ n < 2 ^ 15 := by
  by_cases h : 0 ≤ i ∧ i < 2 ^ 15
  · simp only [smallInteger, if_pos h, Except.ok.injEq]
    omega
  · simp only [smallInteger, if_neg h, reduceCtorEq, false_iff]
    omega

theorem nameIn_eq_ok {lib : Library} {names : List String} {value : Json} {name : String} :
    nameIn lib names value = .ok name ↔ value = .str name ∧ name ∈ names := by
  cases value with
  | str s =>
    by_cases h : s ∈ names
    · simp only [nameIn, h, if_true, Except.ok.injEq, Json.str.injEq]
      exact ⟨fun hs => ⟨hs, hs ▸ h⟩, And.left⟩
    · simp only [nameIn, h, if_false, reduceCtorEq, Json.str.injEq, false_iff]
      exact fun hs => h (hs.1 ▸ hs.2)
  | _ => simp [nameIn]

def present {α : Type} (value : Option α) (e : Exception) : Except Exception α :=
  match value with
  | some a => .ok a
  | none => .error e

theorem present_eq_ok {α : Type} {value : Option α} {e : Exception} {a : α} : present value e = .ok a ↔ value = some a := by
  cases value <;> simp [present]

def checkUnique {ρ υ : Type} [DecidableEq υ] (unique : ρ → υ) (rows : List ρ) : Except Exception (List ρ) :=
  if (rows.map unique).Nodup then .ok rows else .error .integrityError

theorem checkUnique_eq_ok {ρ υ : Type} [DecidableEq υ] {unique : ρ → υ} {rows rows' : List ρ} :
    checkUnique unique rows = .ok rows' ↔ (rows.map unique).Nodup ∧ rows' = rows := by
  by_cases h : (rows.map unique).Nodup
  · simp [checkUnique, h, eq_comm]
  · simp [checkUnique, h]

end Advisor.Importer
