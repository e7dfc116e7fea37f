import Advisor.Relational.Truth

/-! `Q` objects over nullable columns. Below an odd number of negations Django asks a column not to be NULL besides,
and so a negation holds of a row exactly where its condition does not. -/

namespace Django

open Relational

inductive QObject (ρ ν : Type) where
  | lookup (column : ρ → Option ν) (test : ν → Bool)
  | isNull (column : ρ → Option ν) (null : Bool)
  | expression (holds : ρ → Bool)
  | both (a b : QObject ρ ν)
  | either (a b : QObject ρ ν)
  | not (a : QObject ρ ν)

namespace QObject

variable {ρ ν : Type}

def compare (test : ν → Bool) : Option ν → Truth
  | some v => Truth.ofBool (test v)
  | none => .unknown

/-- The SQL condition, below an odd number of negations or not. -/
def eval (row : ρ) (negated : Bool) : QObject ρ ν → Truth
  | lookup column test =>
    if negated then Truth.and (compare test (column row)) (Truth.isNotNull (column row)) else compare test (column row)
  | isNull column null => if null then Truth.isNull (column row) else Truth.isNotNull (column row)
  | expression holds => Truth.ofBool (holds row)
  | both a b => Truth.and (eval row negated a) (eval row negated b)
  | either a b => Truth.or (eval row negated a) (eval row negated b)
  | not a => Truth.not (eval row (!negated) a)

def holds (q : QObject ρ ν) (row : ρ) : Bool := (q.eval row false).holds

/-- The condition in two values: a lookup of NULL is false. -/
def meaning (row : ρ) : QObject ρ ν → Bool
  | lookup column test => (column row).any test
  | isNull column null => (column row).isNone == null
  | expression holds => holds row
  | both a b => meaning row a && meaning row b
  | either a b => meaning row a || meaning row b
  | not a => !meaning row a

theorem holds_compare (test : ν → Bool) (value : Option ν) : (compare test value).holds = value.any test := by
  cases value with
  | none => rfl
  | some v => exact Truth.holds_ofBool _

theorem holds_not_compare (test : ν → Bool) (value : Option ν) :
    (Truth.not (Truth.and (compare test value) (Truth.isNotNull value))).holds = !value.any test := by
  cases value with
  | none => rfl
  | some v => cases h : test v <;> simp [compare, Truth.isNotNull, Truth.ofBool, Truth.and, Truth.not, Truth.holds, h]

theorem holds_not_and (a b : Truth) :
    (Truth.not (Truth.and a b)).holds = ((Truth.not a).holds || (Truth.not b).holds) := by
  cases a <;> cases b <;> rfl

theorem holds_not_or (a b : Truth) :
    (Truth.not (Truth.or a b)).holds = ((Truth.not a).holds && (Truth.not b).holds) := by
  cases a <;> cases b <;> rfl

theorem not_not (t : Truth) : Truth.not (Truth.not t) = t := by
  cases t <;> rfl

/-- A condition holds where its meaning is true, and its negation where that is false. -/
theorem eval_meaning (q : QObject ρ ν) (row : ρ) :
    (q.eval row false).holds = q.meaning row ∧ (Truth.not (q.eval row true)).holds = !q.meaning row := by
  induction q with
  | lookup column test => exact ⟨holds_compare test _, holds_not_compare test _⟩
  | isNull column null =>
    cases null <;> cases hcolumn : column row <;>
      simp [eval, meaning, hcolumn, Truth.isNull, Truth.isNotNull, Truth.ofBool, Truth.not, Truth.holds]
  | expression holds =>
    refine ⟨Truth.holds_ofBool _, ?_⟩
    rw [eval, Truth.not_ofBool, Truth.holds_ofBool, meaning]
  | both a b iha ihb =>
    refine ⟨?_, ?_⟩
    · rw [eval, Truth.holds_and, iha.1, ihb.1, meaning]
    · rw [eval, holds_not_and, iha.2, ihb.2, meaning, Bool.not_and]
  | either a b iha ihb =>
    refine ⟨?_, ?_⟩
    · rw [eval, Truth.holds_or, iha.1, ihb.1, meaning]
    · rw [eval, holds_not_or, iha.2, ihb.2, meaning, Bool.not_or]
  | not a ih =>
    refine ⟨ih.2, ?_⟩
    show (Truth.not (Truth.not (a.eval row false))).holds = !(!a.meaning row)
    rw [not_not, ih.1, Bool.not_not]

theorem holds_eq (q : QObject ρ ν) (row : ρ) : q.holds row = q.meaning row := (q.eval_meaning row).1

theorem holds_not (q : QObject ρ ν) (row : ρ) : q.not.holds row = !q.holds row := by
  rw [holds_eq, holds_eq, meaning]

end QObject

end Django
