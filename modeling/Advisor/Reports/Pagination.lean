import Advisor.Relational.Queries

/-! The pages of a list and the links between them. A link past either end is the link of the page at that end. -/

namespace Advisor

open Relational

namespace CustomPageNumberPagination

def defaultLimit : Nat := 10

def maxLimit : Nat := 1000

/-- The parameter is `none` where it is missing or no number. -/
def getLimit (value : Option Int) : Nat :=
  match value with
  | none => defaultLimit
  | some n => if n ≤ 0 then defaultLimit else min n.toNat maxLimit

def getOffset (value : Option Int) : Nat :=
  match value with
  | none => 0
  | some n => n.toNat

structure Page where
  count : Nat
  limit : Nat
  offset : Nat

variable (page : Page)

def requested (count : Nat) (limit offset : Option Int) : Page := ⟨count, getLimit limit, getOffset offset⟩

end CustomPageNumberPagination

end Advisor
