import Mathlib.Data.List.Basic

/-! The three-valued logic of SQL conditions. -/

namespace Relational

inductive Truth where
  | yes
  | no
  | unknown
  deriving DecidableEq

namespace Truth

def ofBool (b : Bool) : Truth := if b then yes else no

def not : Truth → Truth
  | yes => no
  | no => yes
  | unknown => unknown

def and : Truth → Truth → Truth
  | yes, t => t
  | no, _ => no
  | unknown, no => no
  | unknown, _ => unknown

def or : Truth → Truth → Truth
  | no, t => t
  | yes, _ => yes
  | unknown, yes => yes
  | unknown, _ => unknown

/-- Whether `WHERE` keeps a row. -/
def holds : Truth → Bool
  | yes => true
  | no | unknown => false

variable {α : Type*} [DecidableEq α]

def eq : Option α → Option α → Truth
  | some a, some b => ofBool (a = b)
  | _, _ => unknown

def isIn (x : Option α) (values : List (Option α)) : Truth := values.foldr (fun v t => or (eq x v) t) no

def isNull (x : Option α) : Truth := ofBool x.isNone

def isNotNull (x : Option α) : Truth := ofBool x.isSome

omit [DecidableEq α] in
def any (rows : List α) (condition : α → Truth) : Truth := ofBool (rows.any fun row => (condition row).holds)

section Laws

@[simp] theorem holds_ofBool (b : Bool) : (ofBool b).holds = b := by
  cases b <;> rfl

@[simp] theorem not_ofBool (b : Bool) : not (ofBool b) = ofBool (!b) := by
  cases b <;> rfl

@[simp] theorem or_ofBool (a b : Bool) : or (ofBool a) (ofBool b) = ofBool (a || b) := by
  cases a <;> cases b <;> rfl

@[simp] theorem and_ofBool (a b : Bool) : and (ofBool a) (ofBool b) = ofBool (a && b) := by
  cases a <;> cases b <;> rfl

@[simp] theorem holds_and (a b : Truth) : (and a b).holds = (a.holds && b.holds) := by
  cases a <;> cases b <;> rfl

@[simp] theorem holds_or (a b : Truth) : (or a b).holds = (a.holds || b.holds) := by
  cases a <;> cases b <;> rfl

@[simp] theorem and_yes (a : Truth) : and a yes = a := by
  cases a <;> rfl

@[simp] theorem eq_some (a b : α) : eq (some a) (some b) = ofBool (a = b) := rfl

/-- Where no value is missing, `IN` is two-valued. -/
@[simp] theorem isIn_some (x : α) (values : List α) : isIn (some x) (values.map some) = ofBool (x ∈ values) := by
  induction values with
  | nil => rfl
  | cons v values ih =>
    have hcons : isIn (some x) ((v :: values).map some) = or (eq (some x) (some v)) (isIn (some x) (values.map some)) :=
      rfl
    rw [hcons, ih, eq_some, or_ofBool]
    simp

theorem holds_isIn {x : Option α} {values : List (Option α)} :
    (isIn x values).holds = true ↔ ∃ a, x = some a ∧ some a ∈ values := by
  induction values with
  | nil => simp [isIn, holds]
  | cons v values ih =>
    have hcons : isIn x (v :: values) = or (eq x v) (isIn x values) := rfl
    rw [hcons, holds_or, Bool.or_eq_true, ih]
    cases x with
    | none => simp [eq, holds]
    | some a =>
      cases v with
      | none => simp [eq, holds]
      | some b => simp [eq_comm]

end Laws

end Truth

end Relational
