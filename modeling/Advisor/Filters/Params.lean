import Advisor.Django.Columns
import Advisor.Python.Raise

/-! `value_of_param`: the parameters of a query, split, converted and checked by their definitions. -/

namespace Advisor.Filters

open Python Django

/-- A value of a parameter: as it is given or by default, or converted. -/
inductive ParamValue where
  | plain (value : Json)
  | instant (t : Instant)
  | uuid (u : Uuid)
  deriving DecidableEq

inductive ParamError where
  | invalid (name message : String)
  | coding (message : String)
  | notSerialized (name : String) (default : Json)
  | raised (e : Exception)
  | overflow
  deriving DecidableEq

inductive OpenApiType where
  | bool
  | int
  | int32
  | int64
  | number
  | double
  | float
  | regex
  | date
  | datetime
  | uuid
  | other (name : String)
  deriving DecidableEq

/-- `OpenApiParameter`; what is only for the documentation is left out. -/
structure OpenApiParameter where
  name : String
  type : OpenApiType := .other "str"
  location : String := "query"
  required : Bool := false
  many : Bool := false
  style : Option String := none
  pattern : Option String := none
  enum : List ParamValue := []
  default : Json := .null

/-- The conversions of Python and Django that the definitions below are parametric in. -/
structure Conversions extends Library where
  floatOf : Json → Except ParamError Floating
  matchesPattern : String → String → Bool
  renderValue : ParamValue → String

abbrev Query := List (String × String)

def getlist (query : Query) (name : String) : List String := (query.filter fun pair => pair.1 = name).map Prod.snd

inductive Validated where
  | one (value : ParamValue)
  | several (values : List ParamValue)
  deriving DecidableEq

def ParamValue.eq : ParamValue → ParamValue → Bool
  | plain a, plain b => a.eq b
  | instant a, instant b => a = b
  | uuid a, uuid b => a = b
  | _, _ => false

def splitters : List (String × List (String × Char)) :=
  [("path", [("simple", ','), ("label", '.'), ("matrix", ';')]),
    ("query", [("form", ','), ("spaceDelimited", ' '), ("pipeDelimited", '|')])]

/-- What the values of a parameter are split at. -/
def splitter (param : OpenApiParameter) : Except ParamError Char :=
  match param.style with
  | none => .error (.invalid param.name "Coding error: parameter has many=True but no 'style' set")
  | some style =>
    match splitters.lookup param.location with
    | none => .error (.coding ("Coding error: We do not know how to split parameters in the '" ++ param.location ++ "'"))
    | some styles =>
      match styles.lookup style with
      | none => .error (.coding ("Coding error: Invalid " ++ param.location ++ " array parameter style '" ++ style ++ "'"))
      | some sep => .ok sep

def splitText (sep : Char) (text : String) : List String := (text.toList.splitOn sep).map String.ofList

def splitValues (sep : Char) : Json → Except ParamError (List Json)
  | .str text => .ok ((splitText sep text).map .str)
  | .list values => do
    let parts ← values.mapM fun
      | .str text => .ok ((splitText sep text).map .str)
      | _ => .error (.raised .attributeError)
    return parts.flatten
  | value => .ok [value]

section Values

variable (conversions : Conversions)

def intOfValue : Json → Except ParamError Int
  | .float (.infinite _) => .error .overflow
  | value => (integerOf conversions.toLibrary value).mapError .raised

def parseDate : Json → Except ParamError Instant
  | .str text =>
    match conversions.parseDate text with
    | some t => .ok t
    | none => .error (.raised .valueError)
  | _ => .error (.raised .typeError)

/-- `parse_datetime`, and `make_aware` where that is naive. -/
def parseDatetime : Json → Except ParamError (Option Instant)
  | .str text =>
    match conversions.parseDatetime text with
    | .invalid => .error (.raised .valueError)
    | .unmatched => .ok none
    | .naive t | .aware t => .ok (some t)
  | _ => .error (.raised .typeError)

def uuidOfValue : Json → Except ParamError Uuid
  | .str text =>
    match Uuid.ofText text with
    | some u => .ok u
    | none => .error (.raised .valueError)
  | .null => .error (.raised .typeError)
  | _ => .error (.raised .attributeError)

/-- `except` clauses: the exceptions that are caught become an error about the parameter. -/
def refusing {α : Type} (param : OpenApiParameter) (message : String) (caught : List Exception)
    (result : Except ParamError α) : Except ParamError α :=
  match result with
  | .error (.raised e) => if e ∈ caught then .error (.invalid param.name message) else .error (.raised e)
  | result => result

def textOfValue : Json → String
  | .str text => text
  | value => conversions.render value

def convertValue (param : OpenApiParameter) (value : Json) : Except ParamError ParamValue :=
  match param.type with
  | .int | .int32 | .int64 =>
    (refusing param "The value must be an integer" [.valueError] (intOfValue conversions value)).map fun i => .plain (.int i)
  | .number | .double | .float =>
    (refusing param "The value must be a floating point number" [.valueError] (conversions.floatOf value)).map fun x =>
      .plain (.float x)
  | .regex =>
    match param.pattern, value with
    | some pattern, .str text =>
      if conversions.matchesPattern pattern text then .ok (.plain value)
      else .error (.invalid param.name ("The value did not match the pattern '" ++ pattern ++ "'"))
    | _, _ => .error (.raised .typeError)
  | .date =>
    (refusing param "The value did not look like a date" [.valueError, .attributeError]
      (parseDate conversions value)).map .instant
  | .datetime => do
    match ← parseDatetime conversions value with
    | some t => return .instant t
    | none => .error (.invalid param.name "The value did not look like a datetime")
  | .uuid => (refusing param "The value must be a UUID" [.valueError] (uuidOfValue value)).map .uuid
  | _ => .ok (.plain value)

def enumMessage (param : OpenApiParameter) : String :=
  "The value is required to be one of the following values: " ++
    ", ".intercalate (param.enum.map conversions.renderValue)

def validateSingle (param : OpenApiParameter) (value : Json) : Except ParamError ParamValue := do
  match param.style with
  | some style =>
    if style ≠ "" then throw (.coding ("Coding error: parameter has many=False but style=" ++ style))
  | none => pure ()
  if param.type = .bool then
    return .plain (.bool (["true", "1", "yes"].contains (textOfValue conversions value).toLower))
  let value ← convertValue conversions param value
  if !param.enum.isEmpty && !param.enum.any value.eq then
    throw (.invalid param.name (enumMessage conversions param))
  return value

def basicParam (param : OpenApiParameter) : OpenApiParameter := { param with many := false, style := none }

def validateMany (param : OpenApiParameter) (value : Json) : Except ParamError (List ParamValue) := do
  let sep ← splitter param
  let values ← splitValues sep value
  values.mapM (validateSingle conversions (basicParam param))

def validateParamPart (param : OpenApiParameter) (value : Json) : Except ParamError Validated :=
  if param.many then (validateMany conversions param value).map .several
  else (validateSingle conversions param value).map .one

def defaultOfParam (param : OpenApiParameter) : Except ParamError (Option Validated) :=
  if param.required then .error (.invalid param.name "Required parameter")
  else if param.default = .null then .ok none
  else
    match validateParamPart conversions param param.default with
    | .error (.raised .typeError) => .error (.notSerialized param.name param.default)
    | result => result.map some

def valueOfParam (param : OpenApiParameter) (query : Query) : Except ParamError (Option Validated) :=
  match getlist query param.name with
  | [] => defaultOfParam conversions param
  | first :: rest =>
    if !param.many then
      if rest.isEmpty then (validateParamPart conversions param (.str first)).map some
      else .error (.invalid param.name "Parameter must only be given a single value")
    else do
      let parts ← (first :: rest).mapM fun value => validateMany conversions param (.str value)
      return some (.several parts.flatten)

end Values

def joined (sep : Char) (values : List String) : String := String.ofList ([sep].intercalate (values.map String.toList))

/-- Each of the texts is some of the values, joined: one text for each value, one text for them all, or a mixture. -/
def Given (sep : Char) (values texts : List String) : Prop :=
  ∃ groups : List (List String), (∀ group ∈ groups, group ≠ []) ∧ groups.flatten = values ∧
    texts = groups.map (joined sep)

section Forms

variable {conversions : Conversions} {param : OpenApiParameter} {sep : Char} {values texts : List String}

def validatedValues (conversions : Conversions) (param : OpenApiParameter) (values : List String) :
    Except ParamError (List ParamValue) := do
  let _ ← splitter param
  values.mapM fun value => validateSingle conversions (basicParam param) (.str value)

theorem splitText_joined (hne : values ≠ []) (hfree : ∀ value ∈ values, sep ∉ value.toList) :
    splitText sep (joined sep values) = values := by
  have hparts : ∀ part ∈ values.map String.toList, sep ∉ part := by
    intro part hpart
    obtain ⟨value, hvalue, rfl⟩ := List.mem_map.mp hpart
    exact hfree value hvalue
  rw [splitText, joined, String.toList_ofList, List.splitOn_intercalate sep hparts (by simpa using hne), List.map_map]
  simp

theorem given_repeated : Given sep values values := by
  refine ⟨values.map fun value => [value], by simp, ?_, ?_⟩
  · rw [← List.flatMap_def, List.flatMap_singleton']
  · rw [List.map_map]
    refine (List.map_id' values).symm.trans (List.map_congr_left fun value _ => ?_)
    simp [joined, List.intercalate]

theorem given_joined (hne : values ≠ []) : Given sep values [joined sep values] :=
  ⟨[values], by simpa using hne, by simp, rfl⟩

theorem validateMany_joined (hsep : splitter param = .ok sep) (hne : values ≠ [])
    (hfree : ∀ value ∈ values, sep ∉ value.toList) :
    validateMany conversions param (.str (joined sep values)) =
      values.mapM fun value => validateSingle conversions (basicParam param) (.str value) := by
  rw [validateMany, hsep]
  show ((splitText sep (joined sep values)).map Json.str).mapM (validateSingle conversions (basicParam param)) = _
  rw [splitText_joined hne hfree, List.mapM_map]
  rfl

theorem mapM_validateMany (hsep : ∀ c, splitter param = .ok c → c = sep) (hvalues : values ≠ [])
    (hfree : ∀ value ∈ values, sep ∉ value.toList) (h : Given sep values texts) :
    (texts.mapM fun text => validateMany conversions param (.str text)).map List.flatten =
      validatedValues conversions param values := by
  obtain ⟨groups, hgroups, rfl, rfl⟩ := h
  rw [validatedValues]
  cases hsplitter : splitter param with
  | error e =>
    have herror : ∀ text, validateMany conversions param (.str text) = .error e := by
      intro text
      rw [validateMany, hsplitter]
      rfl
    cases groups with
    | nil => exact absurd rfl hvalues
    | cons group groups =>
      rw [List.map_cons, List.mapM_cons, herror]
      rfl
  | ok c =>
    obtain rfl := hsep c hsplitter
    have hgroup : ∀ group ∈ groups, validateMany conversions param (.str (joined c group)) =
        group.mapM fun value => validateSingle conversions (basicParam param) (.str value) := by
      intro group hgroup
      exact validateMany_joined hsplitter (hgroups group hgroup) fun value hvalue =>
        hfree value (List.mem_flatten.mpr ⟨group, hgroup, hvalue⟩)
    rw [List.mapM_map]
    show (groups.mapM fun group => validateMany conversions param (.str (joined c group))).map List.flatten = _
    rw [mapM_congr_left hgroup, mapM_flatten]
    rfl

end Forms

/-- However the values are given, each with a parameter of its own or some of them joined, the result is the list of
them all converted, or the first refusal among them. -/
theorem valueOfParam_given (conversions : Conversions) (param : OpenApiParameter) (sep : Char) (values : List String)
    (hmany : param.many = true) (hsep : ∀ c, splitter param = .ok c → c = sep) (hvalues : values ≠ [])
    (hfree : ∀ value ∈ values, sep ∉ value.toList) :
    (Given sep values values ∧ Given sep values [joined sep values]) ∧
      ∀ query, Given sep values (getlist query param.name) →
        valueOfParam conversions param query =
          (validatedValues conversions param values).map fun parts => some (.several parts) := by
  refine ⟨⟨given_repeated, given_joined hvalues⟩, fun query h => ?_⟩
  rw [← mapM_validateMany hsep hvalues hfree h, valueOfParam]
  cases htexts : getlist query param.name with
  | nil =>
    obtain ⟨groups, -, rfl, hgroups⟩ := h
    rw [htexts] at hgroups
    rw [List.map_eq_nil_iff.mp hgroups.symm] at hvalues
    exact absurd rfl hvalues
  | cons first rest =>
    simp only [hmany, Bool.not_true, Bool.false_eq_true, if_false]
    cases (first :: rest).mapM fun text => validateMany conversions param (.str text) with
    | error e => rfl
    | ok parts => rfl

def plainConversions : Conversions where
  parseDatetime _ := .unmatched
  parseDate _ := none
  render _ := "None"
  intOfText text :=
    match text.toList with
    | [c] => if c.isDigit then some (c.toNat - '0'.toNat : Nat) else none
    | _ => none
  floatOf _ := .error (.raised .valueError)
  matchesPattern _ _ := false
  renderValue _ := ""

def categoryQueryParam : OpenApiParameter where
  name := "category"
  type := .int
  many := true
  enum := [1, 2, 3, 4].map fun i => .plain (.int i)
  style := some "form"

def hostGroupNameQueryParam : OpenApiParameter where
  name := "groups"
  style := some "form"
  many := true

theorem valueOfParam_categories :
    valueOfParam plainConversions categoryQueryParam [("category", "1"), ("display_name", "a,b"), ("category", "2,3")] =
      .ok (some (.several [.plain (.int 1), .plain (.int 2), .plain (.int 3)])) := by
  have hgiven := (valueOfParam_given plainConversions categoryQueryParam ',' ["1", "2", "3"] rfl
    (fun c hc => (Except.ok.inj hc).symm) (by simp) (by decide)).2
    [("category", "1"), ("display_name", "a,b"), ("category", "2,3")] ⟨[["1"], ["2", "3"]], by simp, rfl, by decide⟩
  rw [hgiven]
  decide +kernel

/-- No values with a parameter for each are no parameter at all; joined, they are one with an empty item. -/
theorem noValues_differ :
    getlist [] "groups" = [] ∧ getlist [("groups", joined ',' [])] "groups" = [joined ',' []] ∧
      valueOfParam plainConversions hostGroupNameQueryParam [] = .ok none ∧
      valueOfParam plainConversions hostGroupNameQueryParam [("groups", joined ',' [])] =
        .ok (some (.several [.plain (.str "")])) := by
  decide +kernel

end Advisor.Filters
