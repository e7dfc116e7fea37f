import Advisor.Python.Raise
import Advisor.Inventory.Store

/-! `filter_multi_param`, from the names and values of a query to a condition on hosts. -/

namespace Advisor.Filters

open Python

/-- What the interpreter knows of characters: `\w`, `str.isdigit` and the digits that `int` reads. -/
structure CharTable where
  isWord : Char → Bool
  isDigit : Char → Bool
  decimal : Char → Option Nat
  word_ascii : ∀ c : Char, c.toNat < 128 → isWord c = (c.isAlphanum || c = '_')
  digit_ascii : ∀ c : Char, c.toNat < 128 → isDigit c = c.isDigit
  decimal_isDigit : ∀ c : Char, (decimal c).isSome = true → isDigit c = true
  decimal_ascii : ∀ c : Char, c.isDigit = true → decimal c = some (c.toNat - '0'.toNat)

inductive FilterError where
  | invalid (field message : String)
  | raised (e : Exception)
  deriving DecidableEq

inductive Scalar where
  | text (text : String)
  | bool (b : Bool)
  | int (n : Nat)
  deriving DecidableEq

inductive FilterValue where
  | one (value : Scalar)
  | several (values : List String)
  | holding (field : String) (value : Scalar)
  deriving DecidableEq

/-- A `Q` object: lookups that are negated or not, one and all. -/
inductive Filter where
  | all
  | lookup (negated : Bool) (key : String) (value : FilterValue)
  | both (a b : Filter)
  deriving DecidableEq

namespace Filter

/-- `a & b`: an empty `Q` is left out. -/
def and (a b : Filter) : Filter :=
  match a, b with
  | all, b => b
  | a, all => a
  | a, b => both a b

/-- `~q`, of a `Q` with one lookup or none. -/
def not : Filter → Filter
  | lookup negated key value => lookup (!negated) key value
  | q => q

def lookups : Filter → List (String × FilterValue)
  | all => []
  | lookup _ key value => [(key, value)]
  | both a b => a.lookups ++ b.lookups

@[simp] theorem mem_lookups_and {a b : Filter} {lookup : String × FilterValue} :
    lookup ∈ (a.and b).lookups ↔ lookup ∈ a.lookups ∨ lookup ∈ b.lookups := by
  cases a <;> cases b <;> simp [and, lookups, or_assoc]

@[simp] theorem lookups_not (q : Filter) : q.not.lookups = q.lookups := by
  cases q <;> rfl

end Filter

def connectors : List String := ["AND", "OR", "XOR"]

/-- `Q(**{key: value})`: three names are those of parameters of its own. -/
def makeQ (key : String) (value : FilterValue) : Except Exception Filter :=
  if key = "self" then .error .typeError
  else if key = "_connector" then
    if connectors.any fun connector => value = .one (.text connector) then .ok .all else .error .valueError
  else if key = "_negated" then .ok .all
  else .ok (.lookup false key value)

structure Options where
  filterPrefix : String
  paramName : String := "filter"
  fieldPrefix : Option String := none
  useContainsForEq : Bool := true

section Names

variable (table : CharTable)

/-- The words in brackets, with `[]` or not and a newline or not at the end; `inside` is the word being read. -/
def bracketed (inside : Option (List Char)) : List Char → Option (List String)
  | [] => if inside.isNone then some [] else none
  | c :: rest =>
    match inside with
    | none =>
      if c = '\n' && rest.isEmpty then some []
      else if c = '[' && (rest = [']'] || rest = [']', '\n']) then some []
      else if c = '[' then bracketed (some []) rest
      else none
    | some word =>
      if table.isWord c then bracketed (some (word ++ [c])) rest
      else if c = ']' && !word.isEmpty then (bracketed none rest).map (String.ofList word :: ·)
      else none

/-- `^(?P<prefix>\w+)(?P<brackets>(?:\[\w+\])+)(?:\[\])?$`, as far as the words of the brackets. -/
def bracketWords (name : String) : Option (List String) :=
  if (name.toList.takeWhile table.isWord).isEmpty then none
  else (bracketed table none (name.toList.dropWhile table.isWord)).filter fun words => !words.isEmpty

end Names

/-- The redirection of workload fields. -/
def redirected (filterPrefix : String) (parts : List String) : List String :=
  match parts with
  | first :: field :: rest =>
    if filterPrefix = "system_profile" then
      if field = "sap_system" then filterPrefix :: "workloads" :: "sap" :: field :: rest
      else if field = "sap_sids" then filterPrefix :: "workloads" :: "sap" :: "sids" :: rest
      else if field = "ansible" || field = "mssql" then filterPrefix :: "workloads" :: field :: rest
      else first :: field :: rest
    else first :: field :: rest
  | short => short

def remapSystemProfilePartsForLocal (filterParts : List String) : List String :=
  match filterParts.drop 1 with
  | first :: second :: rest =>
    if first = "operating_system" then
      if second = "major" then "os_major" :: rest
      else if second = "minor" then "os_minor" :: rest
      else if second = "name" then "os_name" :: rest
      else first :: second :: rest
    else first :: second :: rest
  | parts => parts

def localParts (options : Options) (words : List String) : Except Exception (List String × Bool) :=
  let parts := redirected options.filterPrefix words
  if options.filterPrefix = "system_profile" then
    match remapSystemProfilePartsForLocal parts with
    | [] => .error .indexError
    | first :: rest => .ok (first :: rest, first ≠ "workloads")
  else .ok (parts, false)

def comparatorTranslations : List (String × String) :=
  [("eq_i", "iexact"), ("contains_i", "icontains"), ("starts_with_i", "istartswith"), ("ends_with_i", "iendswith"),
    ("starts_with", "startswith"), ("ends_with", "endswith")]

def joinDunder : List String → String
  | [] => ""
  | [part] => part
  | part :: rest => part ++ "__" ++ joinDunder rest

structure LookupKey where
  operator : String
  parts : List String
  containsField : Option String := none

def LookupKey.key (lookup : LookupKey) (options : Options) : String :=
  joinDunder (options.fieldPrefix.toList ++ lookup.parts)

/-- The operator is the last part, and is taken off or replaced. -/
def lookupKey (options : Options) (parts : List String) (isLocalFlatField : Bool) : Except Exception LookupKey :=
  match parts.getLast? with
  | none => .error .indexError
  | some operator =>
    if operator = "eq" || operator = "ne" then
      if options.useContainsForEq && !isLocalFlatField then
        match parts.dropLast.getLast? with
        | none => .error .indexError
        | some field => .ok ⟨operator, parts.dropLast.dropLast ++ ["contains"], some field⟩
      else .ok ⟨operator, parts.dropLast, none⟩
    else if operator = "nil" || operator = "not_nil" then .ok ⟨operator, parts.dropLast ++ ["isnull"], none⟩
    else
      match comparatorTranslations.lookup operator with
      | some comparator => .ok ⟨operator, parts.dropLast ++ [comparator], none⟩
      | none => .ok ⟨operator, parts, none⟩

section Values

variable (table : CharTable) (options : Options)

def maxIntDigits : Nat := 4300

def intOf (text : String) : Except Exception Nat :=
  if maxIntDigits < text.toList.length then .error .valueError
  else
    match text.toList.mapM table.decimal with
    | some digits => .ok (digits.foldl (fun n digit => 10 * n + digit) 0)
    | none => .error .valueError

def isDigitText (text : String) : Bool := !text.toList.isEmpty && text.toList.all table.isDigit

def booleanTexts : List String := ["true", "True", "false", "False"]

def isOrder (operator : String) : Bool := ["gt", "gte", "lt", "lte"].contains operator

def isEquality (operator : String) : Bool := operator = "eq" || operator = "ne"

def integerMessage : String := "Value must be an integer when given the 'gt', 'gte', 'lt' or 'lte' operators"

/-- A value converted for its operator; a boolean has no method `isdigit`. -/
def convert (operator text : String) : Except FilterError Scalar :=
  if booleanTexts.contains text then
    if isOrder operator || isEquality operator then .error (.raised .attributeError)
    else .ok (.bool (text = "true" || text = "True"))
  else if isOrder operator then
    if isDigitText table text then ((intOf table text).map .int).mapError .raised
    else .error (.invalid options.paramName integerMessage)
  else if isEquality operator && isDigitText table text then ((intOf table text).map .int).mapError .raised
  else .ok (.text text)

/-- What the key is looked up by: a field of an object, a test for NULL, or the value itself. -/
def filterValue (lookup : LookupKey) (value : Scalar) : FilterValue :=
  match lookup.containsField with
  | some field => .holding field value
  | none =>
    if lookup.operator = "nil" || lookup.operator = "not_nil" then
      let null := match value with
        | .bool b => b
        | _ => true
      .one (.bool (null == (lookup.operator = "nil")))
    else .one value

def valueFilter (lookup : LookupKey) (text : String) : Except FilterError Filter := do
  let value ← convert table options lookup.operator text
  let q ← (makeQ (lookup.key options) (filterValue lookup value)).mapError .raised
  return if lookup.operator = "ne" then q.not else q

def csvList (values : List String) : List String :=
  values.flatMap fun item => (item.toList.splitOn ',').map String.ofList

def paramPrefix : String := options.paramName ++ "[" ++ options.filterPrefix ++ "]["

def addParam (endFilter : Filter) (name : String) (values : List String) : Except FilterError Filter :=
  if name.startsWith (paramPrefix options) then
    match bracketWords table name with
    | none => .error (.invalid options.paramName "The parameter is incorrectly formatted")
    | some words => do
      let (parts, isLocalFlatField) ← (localParts options words).mapError .raised
      let lookup ← (lookupKey options parts isLocalFlatField).mapError .raised
      if lookup.operator = "in" then
        let q ← (makeQ (lookup.key options) (.several (csvList values))).mapError .raised
        return endFilter.and q
      else
        values.foldlM (fun endFilter text => do return endFilter.and (← valueFilter table options lookup text)) endFilter
  else .ok endFilter

def filterMultiParam (params : List (String × List String)) : Except FilterError Filter :=
  params.foldlM (fun endFilter param => addParam table options endFilter param.1 param.2) .all

end Values

end Advisor.Filters
