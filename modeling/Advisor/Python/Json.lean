import Mathlib.Data.List.Infix
import Mathlib.Data.Rat.Defs
import Mathlib.Algebra.Order.Ring.Unbundled.Rat

/-! Decoded JSON as Python sees it: the values `json.loads` builds, with the
operators the handlers apply to them before any type has been checked. -/

namespace Python

inductive Exception where
  | keyError (key : String)
  | indexError
  | typeError
  | attributeError
  | valueError
  | validationError
  | integrityError
  | dataError
  | cardinalityViolation
  | doesNotExist
  | multipleObjectsReturned
  deriving DecidableEq

/-- A float literal; `json.loads` also reads `NaN` and the infinities. -/
inductive Floating where
  | finite (value : ℚ)
  | infinite (negative : Bool)
  | nan
  deriving DecidableEq

namespace Floating

def eq : Floating → Floating → Bool
  | finite a, finite b => a = b
  | infinite a, infinite b => a = b
  | _, _ => false

def gt : Floating → Floating → Bool
  | finite a, finite b => b < a
  | infinite a, infinite b => !a && b
  | infinite negative, finite _ => !negative
  | finite _, infinite negative => negative
  | _, _ => false

end Floating

inductive Json where
  | null
  | bool (b : Bool)
  | int (i : Int)
  | float (x : Floating)
  | str (s : String)
  | list (xs : List Json)
  | dict (items : List (String × Json))

namespace Json

mutual

def decEq : (a b : Json) → Decidable (a = b)
  | null, null => isTrue rfl
  | bool a, bool b => decidable_of_iff (a = b) (by simp)
  | int a, int b => decidable_of_iff (a = b) (by simp)
  | float a, float b => decidable_of_iff (a = b) (by simp)
  | str a, str b => decidable_of_iff (a = b) (by simp)
  | list a, list b => @decidable_of_iff _ (a = b) (by simp) (decEqList a b)
  | dict a, dict b => @decidable_of_iff _ (a = b) (by simp) (decEqDict a b)
  | null, bool _ | null, int _ | null, float _ | null, str _ | null, list _ | null, dict _
  | bool _, null | bool _, int _ | bool _, float _ | bool _, str _ | bool _, list _ | bool _, dict _
  | int _, null | int _, bool _ | int _, float _ | int _, str _ | int _, list _ | int _, dict _
  | float _, null | float _, bool _ | float _, int _ | float _, str _ | float _, list _
  | float _, dict _
  | str _, null | str _, bool _ | str _, int _ | str _, float _ | str _, list _ | str _, dict _
  | list _, null | list _, bool _ | list _, int _ | list _, float _ | list _, str _ | list _, dict _
  | dict _, null | dict _, bool _ | dict _, int _ | dict _, float _ | dict _, str _
  | dict _, list _ => isFalse (by simp)

def decEqList : (a b : List Json) → Decidable (a = b)
  | [], [] => isTrue rfl
  | [], _ :: _ | _ :: _, [] => isFalse (by simp)
  | a :: as, b :: bs =>
    @decidable_of_iff _ (a = b ∧ as = bs) (by simp)
      (@instDecidableAnd _ _ (decEq a b) (decEqList as bs))

def decEqDict : (a b : List (String × Json)) → Decidable (a = b)
  | [], [] => isTrue rfl
  | [], _ :: _ | _ :: _, [] => isFalse (by simp)
  | (k, a) :: as, (l, b) :: bs =>
    @decidable_of_iff _ (k = l ∧ a = b ∧ as = bs) (by simp [and_assoc])
      (@instDecidableAnd _ _ _ (@instDecidableAnd _ _ (decEq a b) (decEqDict as bs)))

end

instance : DecidableEq Json := decEq

/-- `bool` is a subclass of `int`, so truth values take part in arithmetic comparisons. -/
def number : Json → Option Floating
  | bool b => some (.finite (if b then 1 else 0))
  | int i => some (.finite i)
  | float x => some x
  | _ => none

/-- The one object `json.loads` uses for every `NaN`: containers compare identity first. -/
def bothNan : Json → Json → Bool
  | float .nan, float .nan => true
  | _, _ => false

mutual

def eq : Json → Json → Bool
  | null, null => true
  | str a, str b => a = b
  | list a, list b => eqList a b
  | dict a, dict b => a.length = b.length && eqDict a b
  | a, b =>
    match number a, number b with
    | some x, some y => x.eq y
    | _, _ => false

def eqList : List Json → List Json → Bool
  | [], [] => true
  | a :: as, b :: bs => (bothNan a b || eq a b) && eqList as bs
  | _, _ => false

def eqDict : List (String × Json) → List (String × Json) → Bool
  | [], _ => true
  | (k, a) :: as, bs =>
    (match bs.lookup k with | some b => bothNan a b || eq a b | none => false) && eqDict as bs

end

mutual

def gt : Json → Json → Except Exception Bool
  | str a, str b => .ok (b < a)
  | list a, list b => gtList a b
  | a, b =>
    match number a, number b with
    | some x, some y => .ok (x.gt y)
    | _, _ => .error .typeError

def gtList : List Json → List Json → Except Exception Bool
  | [], _ => .ok false
  | _ :: _, [] => .ok true
  | a :: as, b :: bs => if bothNan a b || eq a b then gtList as bs else gt a b

end

def isStr : Json → Bool
  | str _ => true
  | _ => false

theorem isStr_iff {a : Json} : a.isStr = true ↔ ∃ s, a = str s := by
  cases a <;> simp [isStr]

theorem isStr_of_gt {a b : Json} {r : Bool} (h : gt a b = .ok r) : a.isStr = b.isStr := by
  cases a <;> cases b <;> first | rfl | simp [gt, number] at h

def hashable : Json → Bool
  | list _ | dict _ => false
  | _ => true

/-- Hashable values are equal as keys if their numbers are, or they are the same value. -/
def hashKey (a : Json) : Json :=
  match a.number with
  | some x => float x
  | none => a

theorem hashKey_eq {a b : Json} (ha : a.hashable = true) (hb : b.hashable = true) :
    (bothNan a b || eq a b) = decide (a.hashKey = b.hashKey) := by
  rw [Bool.eq_iff_iff]
  rcases a with _ | _ | _ | (_ | _ | _) | _ | _ | _ <;>
    rcases b with _ | _ | _ | (_ | _ | _) | _ | _ | _ <;>
    simp [hashable] at ha hb <;>
    simp [bothNan, eq, hashKey, number, Floating.eq]

def truthy : Json → Bool
  | null => false
  | bool b => b
  | int i => i ≠ 0
  | float x => !x.eq (.finite 0)
  | str s => s ≠ ""
  | list xs => !xs.isEmpty
  | dict items => !items.isEmpty

def contains (key : String) : Json → Bool
  | dict items => (items.lookup key).isSome
  | _ => false

/-- `key in value`, for any value: a key of a dict, an element of a list, a part of a text. -/
def hasKey (value : Json) (key : String) : Except Exception Bool :=
  match value with
  | dict items => .ok (items.lookup key).isSome
  | list xs => .ok (xs.any fun x => x.eq (.str key))
  | str s => .ok (decide (key.toList <:+: s.toList))
  | _ => .error .typeError

/-- `value[key]` with a text key: sequences and scalars do not take one. -/
def item (value : Json) (key : String) : Except Exception Json :=
  match value with
  | dict items =>
    match items.lookup key with
    | some found => .ok found
    | none => .error (.keyError key)
  | _ => .error .typeError

/-- `value.get(key, default)`: only dicts have the method. -/
def getD (value : Json) (key : String) (default : Json) : Except Exception Json :=
  match value with
  | dict items => .ok ((items.lookup key).getD default)
  | _ => .error .attributeError

/-- A dict keeps the place of a key it has. -/
def setKey (key : String) (x : Json) : List (String × Json) → List (String × Json)
  | [] => [(key, x)]
  | (k, y) :: items => if k = key then (k, x) :: items else (k, y) :: setKey key x items

theorem lookup_setKey (key k : String) (x : Json) (items : List (String × Json)) :
    (setKey key x items).lookup k = if k = key then some x else items.lookup k := by
  induction items with
  | nil =>
    by_cases hk : k = key
    · simp [setKey, hk]
    · simp [setKey, List.lookup_cons, hk, beq_false_of_ne hk]
  | cons head items ih =>
    obtain ⟨l, y⟩ := head
    by_cases hl : l = key
    · by_cases hk : k = key
      · simp [setKey, hl, hk]
      · simp [setKey, List.lookup_cons, hl, hk, beq_false_of_ne hk]
    · by_cases hkl : k = l
      · simp [setKey, hkl, hl]
      · simp [setKey, List.lookup_cons, hl, ih, beq_false_of_ne hkl]

def setItem (value : Json) (key : String) (x : Json) : Except Exception Json :=
  match value with
  | dict items => .ok (dict (setKey key x items))
  | _ => .error .typeError

def field? (value : Json) (key : String) : Option Json :=
  match value with
  | dict items => items.lookup key
  | _ => none

theorem item_eq_ok {value found : Json} {key : String} : value.item key = .ok found ↔ value.field? key = some found := by
  cases value with
  | dict items => cases h : items.lookup key <;> simp [field?, item, h]
  | null | bool | int | float | str | list => simp [field?, item]

theorem hasKey_of_field {value found : Json} {key : String} (h : value.field? key = some found) (other : String) :
    value.hasKey other = .ok (value.field? other).isSome := by
  cases value with
  | dict items => rfl
  | _ => cases h

theorem hasKey_of_item {value found : Json} {key : String} (h : value.item key = .ok found) :
    value.hasKey key = .ok true := by
  have hfield := item_eq_ok.mp h
  rw [hasKey_of_field hfield, hfield]
  rfl

theorem eq_str {value : Json} {text : String} : value.eq (.str text) = true ↔ value = .str text := by
  cases value <;> simp [eq, number]

def first : Json → Except Exception Json
  | list (x :: _) => .ok x
  | list [] => .error .indexError
  | str s => if s = "" then .error .indexError else .ok (str (String.ofList (s.toList.take 1)))
  | dict _ => .error (.keyError "0")
  | _ => .error .typeError

def or (value default : Json) : Json := if value.truthy then value else default

end Json

end Python
