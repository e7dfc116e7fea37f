import Advisor.Python.Json
import Advisor.Python.Uuid
import Mathlib.Data.Rat.Floor

/-! Model fields as Django and PostgreSQL treat an unchecked JSON value: what is
stored for it, or the exception that refuses it. -/

namespace Django

open Python

/-- Microseconds since the epoch; a naive time is read in the `TIME_ZONE` setting, UTC. -/
abbrev Instant := Int

/-- The four things `parse_datetime` can do with a text. -/
inductive ParsedTime where
  | invalid
  | unmatched
  | naive (t : Instant)
  | aware (t : Instant)
  deriving DecidableEq

/-- Text handling of Python and Django that the models below are parametric in:
`parse_datetime`, `parse_date`, `str` of a value that is not text, `int` of a text. -/
structure Library where
  parseDatetime : String → ParsedTime
  parseDate : String → Option Instant
  render : Json → String
  intOfText : String → Option Int

inductive ColumnType where
  | uuid
  | char (maxLength : Nat)
  | integer
  | boolean
  | dateTime
  | json
  deriving DecidableEq

structure Column where
  name : String
  type : ColumnType
  null : Bool := false
  deriving DecidableEq

/-- An attribute of a model instance that has not been saved yet. -/
inductive Attribute where
  | json (value : Json)
  | datetime (t : Instant)

inductive Value where
  | uuid (u : Uuid)
  | text (s : String)
  | int (i : Int)
  | bool (b : Bool)
  | instant (t : Instant)
  | json (value : Json)
  deriving DecidableEq

variable (lib : Library)

def uuidOf : Json → Except Exception Uuid
  | .str s =>
    match Uuid.ofText s with
    | some u => .ok u
    | none => .error .validationError
  | .int i => if 0 ≤ i ∧ i < 2 ^ 128 then .ok (Fin.ofNat _ i.toNat) else .error .validationError
  | .bool b => .ok (if b then 1 else 0)
  | _ => .error .validationError

/-- A text parameter of a statement: `str` of the value, which must not hold a NUL. -/
def textOf (value : Json) : Except Exception String :=
  let text := match value with | .str s => s | other => lib.render other
  if text.toList.contains '\x00' then .error .valueError else .ok text

def integerOf : Json → Except Exception Int
  | .int i => .ok i
  | .bool b => .ok (if b then 1 else 0)
  | .float (.finite q) => .ok (q.num.tdiv q.den)
  | .float _ => .error .valueError
  | .str s =>
    match lib.intOfText s with
    | some i => .ok i
    | none => .error .valueError
  | _ => .error .typeError

/-- `null` stands for the empty values a nullable boolean field reads as NULL. -/
def booleanOf (value : Json) : Except Exception (Option Bool) :=
  if value.eq .null || value.eq (.str "") || value.eq (.list []) || value.eq (.dict []) then .ok none
  else if value.eq (.bool true) || value.eq (.bool false) then .ok (some value.truthy)
  else if value ∈ [.str "t", .str "True", .str "1"] then .ok (some true)
  else if value ∈ [.str "f", .str "False", .str "0"] then .ok (some false)
  else .error .validationError

def instantOf : Json → Except Exception Instant
  | .str s =>
    match lib.parseDatetime s with
    | .aware t | .naive t => .ok t
    | .invalid => .error .validationError
    | .unmatched =>
      match lib.parseDate s with
      | some t => .ok t
      | none => .error .validationError
  | _ => .error .typeError

mutual

/-- What a `jsonb` column takes: no NUL in a text, no `NaN` and no infinity. -/
def jsonStorable : Json → Bool
  | .float (.finite _) => true
  | .float _ => false
  | .str s => !s.toList.contains '\x00'
  | .list xs => jsonStorableList xs
  | .dict items => jsonStorableDict items
  | _ => true

def jsonStorableList : List Json → Bool
  | [] => true
  | x :: xs => jsonStorable x && jsonStorableList xs

def jsonStorableDict : List (String × Json) → Bool
  | [] => true
  | (k, x) :: rest => !k.toList.contains '\x00' && jsonStorable x && jsonStorableDict rest

end

/-- What a `varchar` column takes: no NUL, and no more characters than it is wide. -/
def charStorable (maxLength : Nat) (text : String) : Bool :=
  !text.toList.contains '\x00' && decide (text.length ≤ maxLength)

/-- The driver refuses a NUL before the database sees the lengths. -/
def charError (texts : List String) : Exception :=
  if texts.any fun text => text.toList.contains '\x00' then .valueError else .dataError

def charOf (maxLength : Nat) (value : Json) : Except Exception String := do
  let text ← textOf lib value
  if text.length ≤ maxLength then .ok text else .error .dataError

/-- The value a column stores for an attribute, on `save`, `bulk_create` and `update`. -/
def Column.clean (column : Column) : Attribute → Except Exception (Option Value)
  | .datetime t => .ok (some (.instant t))
  | .json .null => notNull column
  | .json value =>
    match column.type with
    | .uuid => (uuidOf value).map fun u => some (.uuid u)
    | .char maxLength => (charOf lib maxLength value).map fun text => some (.text text)
    | .integer => do
      let i ← integerOf lib value
      if -2 ^ 31 ≤ i ∧ i < 2 ^ 31 then .ok (some (.int i)) else .error .dataError
    | .boolean => do
      match ← booleanOf value with
      | some b => .ok (some (.bool b))
      | none => notNull column
    | .dateTime => (instantOf lib value).map fun t => some (.instant t)
    | .json => if jsonStorable value then .ok (some (.json value)) else .error .dataError
where
  notNull (column : Column) : Except Exception (Option Value) :=
    if column.null then .ok none else .error .integrityError

def required {α : Type} (clean : Json → Except Exception α) : Json → Except Exception α
  | .null => .error .integrityError
  | value => clean value

def nullable {α : Type} (clean : Json → Except Exception α) : Json → Except Exception (Option α)
  | .null => .ok none
  | value => (clean value).map some

/-- `parse_datetime(value)` on an unchecked value, as an attribute of a new instance. -/
def parseDatetimeAttribute : Json → Except Exception Attribute
  | .str s =>
    match lib.parseDatetime s with
    | .aware t | .naive t => .ok (.datetime t)
    | .unmatched => .ok (.json .null)
    | .invalid => .error .valueError
  | _ => .error .typeError

/-- The condition `Q(org_id=…, inventory_id=…)`: comparing with `None` selects nothing. -/
def keyCondition (orgId inventoryId : Json) : Except Exception (Option (String × Uuid)) := do
  match inventoryId, orgId with
  | .null, .null => .ok none
  | .null, org => (textOf lib org).map fun _ => none
  | id, .null => (uuidOf id).map fun _ => none
  | id, org =>
    let u ← uuidOf id
    let o ← textOf lib org
    .ok (some (o, u))

theorem keyCondition_str {lib : Library} {o h : String} {u : Uuid}
    (ho : o.toList.contains '\x00' = false) (hu : Uuid.ofText h = some u) :
    keyCondition lib (.str o) (.str h) = .ok (some (o, u)) := by
  simp only [keyCondition, uuidOf, hu, textOf, ho, Bool.false_eq_true, if_false]
  rfl

end Django
