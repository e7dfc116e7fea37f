import Advisor.Filters.MultiParam

/-! Which queries `filter_multi_param` answers with a condition on columns of the host table that can be executed or
with a refusal, and which with another exception. -/

namespace Advisor.Filters

open Python

def systemProfile (fieldPrefix : Option String) (useContainsForEq : Bool) : Options :=
  { filterPrefix := "system_profile", fieldPrefix, useContainsForEq }

def hostColumns : List String := ["inventory_id", "org_id", "updated"] ++ Inventory.inventoryColumns.map (·.name)

def splitDunder : List Char → List (List Char)
  | '_' :: '_' :: rest => [] :: splitDunder rest
  | c :: rest =>
    match splitDunder rest with
    | word :: words => (c :: word) :: words
    | [] => [[c]]
  | [] => [[]]

def names (key : String) : List String := (splitDunder key.toList).map String.ofList

/-- What Django makes of a path from the host table with a value: whether each name is a field, a transform or a lookup
of what stands before it, and the lookup takes the value. -/
abbrev Accepts := List String → FilterValue → Bool

def pathBelow (options : Options) (key : String) : List String :=
  (names key).drop ((options.fieldPrefix.map names).getD []).length

/-- The lookup is of a column of the host table, and Django can execute it. -/
def NamesHostField (accepts : Accepts) (options : Options) (key : String) (value : FilterValue) : Prop :=
  (∃ column ∈ hostColumns, (pathBelow options key).head? = some column) ∧ accepts (pathBelow options key) value = true

/-- A condition has lookups of hosts only, which can be executed, and what is raised is a refusal. -/
def Sound (accepts : Accepts) (options : Options) : Except FilterError Filter → Prop
  | .ok filter => ∀ lookup ∈ filter.lookups, NamesHostField accepts options lookup.1 lookup.2
  | .error (.invalid _ _) => True
  | .error (.raised _) => False

/-- One of the things that the parameters ask for. -/
inductive Step where
  | mangled
  | bare
  | list (lookup : LookupKey) (values : List String)
  | value (lookup : LookupKey) (text : String)

section Steps

variable (accepts : Accepts) (table : CharTable) (options : Options)

def readLookup (words : List String) : Except Exception LookupKey := do
  let (parts, isLocalFlatField) ← localParts options words
  lookupKey options parts isLocalFlatField

def lookupSteps (lookup : LookupKey) (values : List String) : List Step :=
  if lookup.operator = "in" then [.list lookup values] else values.map (.value lookup)

def paramSteps (name : String) (values : List String) : List Step :=
  if name.startsWith (paramPrefix options) then
    match bracketWords table name with
    | none => [.mangled]
    | some words =>
      match readLookup options words with
      | .error _ => [.bare]
      | .ok lookup => lookupSteps lookup values
  else []

def steps (params : List (String × List String)) : List Step :=
  params.flatMap fun param => paramSteps table options param.1 param.2

def Readable (text : String) : Prop := text.toList.length ≤ maxIntDigits ∧ ∀ c ∈ text.toList, (table.decimal c).isSome

def numberOf (text : String) : Nat := text.toList.foldl (fun n c => 10 * n + (table.decimal c).getD 0) 0

def scalarOf (operator text : String) : Scalar :=
  if text ∈ booleanTexts then .bool (text = "true" || text = "True")
  else if (isOrder operator || isEquality operator) && isDigitText table text then .int (numberOf table text)
  else .text text

/-- A boolean, or digits that are not read, where there may be numbers. -/
def Unconverted (operator text : String) : Prop :=
  (isOrder operator = true ∨ isEquality operator = true) ∧
    (text ∈ booleanTexts ∨ isDigitText table text = true ∧ ¬ Readable table text)

def NotInteger (operator text : String) : Prop :=
  isOrder operator = true ∧ text ∉ booleanTexts ∧ isDigitText table text = false

/-- A parameter with the wrong form, or a value that is not a number where one is compared. -/
def Refuses : Step → Prop
  | .mangled => True
  | .value lookup text => NotInteger table lookup.operator text
  | .bare | .list _ _ => False

/-- No field at all, a value that is not converted, or a name that `Q` takes for its own. -/
def Crashes : Step → Prop
  | .bare => True
  | .value lookup text =>
    Unconverted table lookup.operator text ∨ ¬ NotInteger table lookup.operator text ∧
      (lookup.key options = "self" ∨ lookup.key options = "_connector" ∧ text ∉ connectors)
  | .mangled | .list _ _ => False

/-- A lookup that is not of a column of the host table, or that Django cannot execute. -/
def Misnames : Step → Prop
  | .list lookup values =>
    lookup.key options ∉ ["_connector", "_negated"] ∧
      ¬ NamesHostField accepts options (lookup.key options) (.several (csvList values))
  | .value lookup text =>
    lookup.key options ∉ ["_connector", "_negated"] ∧
      ¬ NamesHostField accepts options (lookup.key options) (filterValue lookup (scalarOf table lookup.operator text))
  | .mangled | .bare => False

/-- Something is refused before anything crashes, or nothing crashes and nothing is misnamed. -/
def Tolerates (steps : List Step) : Prop :=
  (∃ before step after, steps = before ++ step :: after ∧ Refuses table step ∧ ∀ s ∈ before, ¬ Crashes table options s) ∨
    ∀ step ∈ steps, ¬ Crashes table options step ∧ ¬ Misnames accepts table options step

def Step.result : Step → Except FilterError Filter
  | .mangled => .error (.invalid options.paramName "The parameter is incorrectly formatted")
  | .bare => .error (.raised .indexError)
  | .list lookup values => (makeQ (lookup.key options) (.several (csvList values))).mapError .raised
  | .value lookup text => valueFilter table options lookup text

def runSteps (start : Filter) (steps : List Step) : Except FilterError Filter :=
  steps.foldlM (fun filter step => do return filter.and (← step.result table options)) start

end Steps

section Runs

variable {accepts : Accepts} {table : CharTable} {options : Options}

theorem runSteps_append (start : Filter) (first second : List Step) :
    runSteps table options start (first ++ second) =
      runSteps table options start first >>= fun filter => runSteps table options filter second :=
  List.foldlM_append

theorem localParts_error {words : List String} {e : Exception} (h : localParts options words = .error e) :
    e = .indexError := by
  unfold localParts at h
  dsimp only at h
  split_ifs at h
  split at h
  · exact (Except.error.inj h).symm
  · cases h

theorem lookupKey_error {parts : List String} {flat : Bool} {e : Exception}
    (h : lookupKey options parts flat = .error e) : e = .indexError := by
  unfold lookupKey at h
  split at h
  · exact (Except.error.inj h).symm
  · split_ifs at h
    · split at h
      · exact (Except.error.inj h).symm
      · cases h
    · split at h <;> cases h

theorem addLookup_eq (start : Filter) (lookup : LookupKey) (values : List String) :
    (if lookup.operator = "in" then do
        let q ← (makeQ (lookup.key options) (.several (csvList values))).mapError .raised
        return start.and q
      else values.foldlM (fun endFilter text => do return endFilter.and (← valueFilter table options lookup text)) start) =
      runSteps table options start (lookupSteps lookup values) := by
  unfold lookupSteps
  split_ifs with hin
  · rw [runSteps, List.foldlM_cons, Step.result]
    simp only [List.foldlM_nil, bind_pure]
  · rw [runSteps, List.foldlM_map]
    rfl

theorem addParam_eq (start : Filter) (name : String) (values : List String) :
    addParam table options start name values = runSteps table options start (paramSteps table options name values) := by
  unfold addParam paramSteps
  split_ifs with hprefix
  · cases hwords : bracketWords table name with
    | none => rfl
    | some words =>
      dsimp only
      unfold readLookup
      cases hparts : localParts options words with
      | error e =>
        obtain rfl := localParts_error hparts
        rfl
      | ok parts =>
        obtain ⟨parts, flat⟩ := parts
        cases hlookup : lookupKey options parts flat with
        | error e =>
          obtain rfl := lookupKey_error hlookup
          simp only [hlookup, Except.mapError, bind, Except.bind]
          rfl
        | ok lookup =>
          simp only [hlookup, Except.mapError, bind, Except.bind, lookupSteps]
          exact addLookup_eq start lookup values
  · rfl

theorem filterMultiParam_eq (params : List (String × List String)) :
    filterMultiParam table options params = runSteps table options .all (steps table options params) := by
  have hfold : ∀ start, params.foldlM (fun endFilter param => addParam table options endFilter param.1 param.2) start =
      runSteps table options start (steps table options params) := by
    induction params with
    | nil => exact fun start => rfl
    | cons param rest ih =>
      intro start
      rw [List.foldlM_cons, addParam_eq, steps, List.flatMap_cons, runSteps_append]
      exact congrArg _ (funext ih)
  exact hfold .all

theorem mapM_isSome_iff {α β : Type} {f : α → Option β} {l : List α} :
    (l.mapM f).isSome = true ↔ ∀ a ∈ l, (f a).isSome = true := by
  induction l with
  | nil => exact iff_of_true rfl (by simp)
  | cons a rest ih =>
    rw [List.mapM_cons, List.forall_mem_cons, ← ih]
    cases f a with
    | none => simp
    | some b => cases rest.mapM f <;> simp

theorem foldl_digits {chars : List Char} {digits : List Nat} (h : chars.mapM table.decimal = some digits) (n : Nat) :
    digits.foldl (fun n digit => 10 * n + digit) n = chars.foldl (fun n c => 10 * n + (table.decimal c).getD 0) n := by
  induction chars generalizing digits n with
  | nil =>
    obtain rfl := Option.some.inj h
    rfl
  | cons c chars ih =>
    rw [List.mapM_cons] at h
    obtain ⟨digit, hdigit, h⟩ := Option.bind_eq_some_iff.mp h
    obtain ⟨rest, hrest, h⟩ := Option.bind_eq_some_iff.mp h
    obtain rfl := Option.some.inj h
    rw [List.foldl_cons, List.foldl_cons, ih hrest, hdigit, Option.getD_some]

theorem intOf_cases (text : String) :
    (Readable table text ∧ intOf table text = .ok (numberOf table text)) ∨
      (¬ Readable table text ∧ intOf table text = .error .valueError) := by
  unfold intOf Readable
  split_ifs with hlong
  · exact Or.inr ⟨fun h => by omega, rfl⟩
  · cases hdigits : text.toList.mapM table.decimal with
    | none =>
      refine Or.inr ⟨fun h => ?_, rfl⟩
      have hsome := mapM_isSome_iff.mpr h.2
      rw [hdigits] at hsome
      cases hsome
    | some digits =>
      refine Or.inl ⟨⟨by omega, mapM_isSome_iff.mp (by rw [hdigits]; rfl)⟩, ?_⟩
      exact congrArg Except.ok (foldl_digits hdigits 0)

theorem isDigitText_connector {text : String} (h : text ∈ connectors) : isDigitText table text = false := by
  have hfirst : ∃ c rest, text.toList = c :: rest ∧ c.toNat < 128 ∧ c.isDigit = false := by
    simp only [connectors, List.mem_cons, List.not_mem_nil, or_false] at h
    rcases h with rfl | rfl | rfl
    · exact ⟨'A', ['N', 'D'], rfl, by decide, rfl⟩
    · exact ⟨'O', ['R'], rfl, by decide, rfl⟩
    · exact ⟨'X', ['O', 'R'], rfl, by decide, rfl⟩
  obtain ⟨c, rest, htext, hascii, hdigit⟩ := hfirst
  simp [isDigitText, htext, table.digit_ascii c hascii, hdigit]

theorem not_mem_booleanTexts {text : String} (h : text ∈ connectors) : text ∉ booleanTexts := by
  simp only [connectors, List.mem_cons, List.not_mem_nil, or_false] at h
  rcases h with rfl | rfl | rfl <;> decide

theorem convertInt_cases (text : String) :
    (Readable table text ∧
        ((intOf table text).map Scalar.int).mapError FilterError.raised = .ok (.int (numberOf table text))) ∨
      (¬ Readable table text ∧
        ((intOf table text).map Scalar.int).mapError FilterError.raised = .error (.raised .valueError)) := by
  rcases @intOf_cases table text with ⟨hread, hn⟩ | ⟨hread, hn⟩
  · exact Or.inl ⟨hread, by rw [hn]; rfl⟩
  · exact Or.inr ⟨hread, by rw [hn]; rfl⟩

theorem convert_cases (operator text : String) :
    (Unconverted table operator text ∧ ∃ e, convert table options operator text = .error (.raised e)) ∨
      (NotInteger table operator text ∧
        convert table options operator text = .error (.invalid options.paramName integerMessage)) ∨
      (¬ Unconverted table operator text ∧ ¬ NotInteger table operator text ∧
        convert table options operator text = .ok (scalarOf table operator text)) := by
  unfold convert scalarOf
  by_cases hbool : text ∈ booleanTexts
  · rw [if_pos (by simpa using hbool), if_pos hbool]
    split_ifs with hnumeric
    · exact Or.inl ⟨⟨by simpa using hnumeric, Or.inl hbool⟩, _, rfl⟩
    · exact Or.inr (Or.inr ⟨fun h => hnumeric (by simpa using h.1), fun h => h.2.1 hbool, rfl⟩)
  · rw [if_neg (by simpa using hbool), if_neg hbool]
    cases hdigit : isDigitText table text with
    | false =>
      have hconverted : ¬ Unconverted table operator text := fun h => h.2.elim hbool fun h => by simp [hdigit] at h
      rw [Bool.and_false, Bool.and_false, if_neg Bool.false_ne_true, if_neg Bool.false_ne_true,
        if_neg Bool.false_ne_true]
      split_ifs with horder
      · exact Or.inr (Or.inl ⟨⟨horder, hbool, hdigit⟩, rfl⟩)
      · exact Or.inr (Or.inr ⟨hconverted, fun h => horder h.1, rfl⟩)
    | true =>
      have hinteger : ¬ NotInteger table operator text := by
        rintro ⟨-, -, hnot⟩
        rw [hdigit] at hnot
        cases hnot
      rw [Bool.and_true, Bool.and_true, if_pos rfl, ← ite_or]
      by_cases hnumeric : isOrder operator = true ∨ isEquality operator = true
      · rw [if_pos hnumeric, if_pos (by simpa using hnumeric)]
        rcases @convertInt_cases table text with ⟨hread, hn⟩ | ⟨hread, hn⟩
        · exact Or.inr (Or.inr ⟨fun h => h.2.elim hbool fun h => h.2 hread, hinteger, hn⟩)
        · exact Or.inl ⟨⟨hnumeric, Or.inr ⟨hdigit, hread⟩⟩, _, hn⟩
      · rw [if_neg hnumeric, if_neg (by simpa using hnumeric)]
        exact Or.inr (Or.inr ⟨fun h => hnumeric h.1, hinteger, rfl⟩)

theorem scalarOf_connector {operator text connector : String} (h : connector ∈ connectors) :
    scalarOf table operator text = .text connector ↔ text = connector := by
  unfold scalarOf
  split_ifs with hbool hnumber
  · refine iff_of_false (fun heq => by cases heq) ?_
    rintro rfl
    exact not_mem_booleanTexts h hbool
  · refine iff_of_false (fun heq => by cases heq) ?_
    rintro rfl
    rw [isDigitText_connector h, Bool.and_false] at hnumber
    cases hnumber
  · rw [Scalar.text.injEq]

/-- What an operator leaves at the end of the parts. -/
structure LookupKey.WellFormed (lookup : LookupKey) : Prop where
  list : lookup.operator = "in" → lookup.parts.getLast? = some "in"
  contains : ∀ field, lookup.containsField = some field → lookup.parts.getLast? = some "contains"
  null : (lookup.operator = "nil" || lookup.operator = "not_nil") = true → lookup.parts.getLast? = some "isnull"

theorem wellFormed_plain {operator : String} {parts : List String}
    (hlist : operator = "in" → parts.getLast? = some "in")
    (hnull : (operator = "nil" || operator = "not_nil") = true → parts.getLast? = some "isnull") :
    LookupKey.WellFormed ⟨operator, parts, none⟩ :=
  ⟨hlist, nofun, hnull⟩

theorem lookupKey_wellFormed {parts : List String} {flat : Bool} {lookup : LookupKey}
    (h : lookupKey options parts flat = .ok lookup) : lookup.WellFormed := by
  unfold lookupKey at h
  split at h
  · cases h
  · rename_i operator hlast
    split_ifs at h with heq hcontains hnull
    · have hop : operator = "eq" ∨ operator = "ne" := by simpa using heq
      split at h
      · cases h
      · obtain rfl := Except.ok.inj h
        refine ⟨?_, fun field _ => by simp, ?_⟩
        · rcases hop with rfl | rfl <;> simp
        · rcases hop with rfl | rfl <;> simp
    · have hop : operator = "eq" ∨ operator = "ne" := by simpa using heq
      obtain rfl := Except.ok.inj h
      apply wellFormed_plain
      · rcases hop with rfl | rfl <;> simp
      · rcases hop with rfl | rfl <;> simp
    · obtain rfl := Except.ok.inj h
      apply wellFormed_plain
      · rintro rfl
        simp at hnull
      · intro _
        simp
    · split at h
      · rename_i comparator hcomparator
        obtain rfl := Except.ok.inj h
        apply wellFormed_plain
        · rintro rfl
          cases hcomparator
        · intro hnil
          exact absurd hnil hnull
      · obtain rfl := Except.ok.inj h
        apply wellFormed_plain
        · rintro rfl
          exact hlast
        · intro hnil
          exact absurd hnil hnull

theorem joinDunder_suffix {parts : List String} {last : String} (h : parts.getLast? = some last) :
    last.toList <:+ (joinDunder parts).toList := by
  induction parts with
  | nil => cases h
  | cons part rest ih =>
    cases rest with
    | nil =>
      obtain rfl : part = last := by simpa using h
      exact List.suffix_refl _
    | cons next rest =>
      have hsuffix := ih (by simpa using h)
      show last.toList <:+ (part ++ "__" ++ joinDunder (next :: rest)).toList
      rw [String.toList_append]
      exact hsuffix.trans (List.suffix_append _ _)

theorem key_ne {lookup : LookupKey} {last name : String} (h : lookup.parts.getLast? = some last)
    (hname : ¬ last.toList <:+ name.toList) : lookup.key options ≠ name := by
  rintro rfl
  apply hname
  apply joinDunder_suffix
  rw [List.getLast?_append, h]
  rfl

theorem makeQ_cases (key : String) (value : FilterValue) :
    ((key = "self" ∨ key = "_connector" ∧ ∀ connector ∈ connectors, value ≠ .one (.text connector)) ∧
        ∃ e, makeQ key value = .error e) ∨
      (¬ (key = "self" ∨ key = "_connector" ∧ ∀ connector ∈ connectors, value ≠ .one (.text connector)) ∧
        ∃ q, makeQ key value = .ok q ∧
          q.lookups = if key = "_connector" ∨ key = "_negated" then [] else [(key, value)]) := by
  unfold makeQ
  by_cases hself : key = "self"
  · rw [if_pos hself]
    exact Or.inl ⟨Or.inl hself, _, rfl⟩
  rw [if_neg hself]
  by_cases hconnector : key = "_connector"
  · rw [if_pos hconnector]
    by_cases hvalue : ∃ connector ∈ connectors, value = .one (.text connector)
    · rw [if_pos (by simpa using hvalue)]
      obtain ⟨connector, hmem, heq⟩ := hvalue
      refine Or.inr ⟨?_, _, rfl, by rw [if_pos (Or.inl hconnector)]; rfl⟩
      rintro (hs | ⟨-, hnone⟩)
      · exact hself hs
      · exact hnone connector hmem heq
    · rw [if_neg (by simpa using hvalue)]
      exact Or.inl ⟨Or.inr ⟨hconnector, fun connector hmem heq => hvalue ⟨connector, hmem, heq⟩⟩, _, rfl⟩
  · rw [if_neg hconnector]
    have hown : ¬ (key = "self" ∨ key = "_connector" ∧ ∀ connector ∈ connectors, value ≠ .one (.text connector)) := by
      simp [hself, hconnector]
    by_cases hnegated : key = "_negated"
    · rw [if_pos hnegated]
      exact Or.inr ⟨hown, _, rfl, by rw [if_pos (Or.inr hnegated)]; rfl⟩
    · rw [if_neg hnegated]
      exact Or.inr ⟨hown, _, rfl, by rw [if_neg (by simp [hconnector, hnegated])]; rfl⟩

theorem filterValue_connector {lookup : LookupKey} (hlookup : lookup.WellFormed)
    (hkey : lookup.key options = "_connector") (value : Scalar) (connector : String) :
    filterValue lookup value = .one (.text connector) ↔ value = .text connector := by
  have hfield : lookup.containsField = none := by
    cases hfield : lookup.containsField with
    | none => rfl
    | some field => exact absurd hkey (key_ne (hlookup.contains field hfield) (by decide))
  have hnull : ¬ (lookup.operator = "nil" || lookup.operator = "not_nil") = true := fun hnull =>
    absurd hkey (key_ne (hlookup.null hnull) (by decide))
  unfold filterValue
  rw [hfield]
  dsimp only
  rw [if_neg hnull, FilterValue.one.injEq]

theorem not_unconverted {operator text : String} (h : NotInteger table operator text) :
    ¬ Unconverted table operator text := by
  rintro ⟨-, hbool | ⟨hdigit, -⟩⟩
  · exact h.2.1 hbool
  · rw [h.2.2] at hdigit
    cases hdigit

theorem not_crashes {step : Step} (h : Refuses table step) : ¬ Crashes table options step := by
  cases step with
  | value lookup text =>
    rintro (hun | ⟨hno, -⟩)
    · exact not_unconverted h hun
    · exact hno h
  | mangled => exact not_false
  | bare | list _ _ => cases h

def Step.WellFormed : Step → Prop
  | .mangled | .bare => True
  | .list lookup _ => lookup.WellFormed ∧ lookup.operator = "in"
  | .value lookup _ => lookup.WellFormed

theorem result_cases {step : Step} (h : step.WellFormed) :
    (Refuses table step ∧ ∃ field message, step.result table options = .error (.invalid field message)) ∨
      (Crashes table options step ∧ ∃ e, step.result table options = .error (.raised e)) ∨
      (¬ Refuses table step ∧ ¬ Crashes table options step ∧ ∃ q, step.result table options = .ok q ∧
        ((∀ lookup ∈ q.lookups, NamesHostField accepts options lookup.1 lookup.2) ↔
          ¬ Misnames accepts table options step)) := by
  have hkeys {key : String} {value : FilterValue} {q : Filter}
      (hq : q.lookups = if key = "_connector" ∨ key = "_negated" then [] else [(key, value)]) :
      (∀ lookup ∈ q.lookups, NamesHostField accepts options lookup.1 lookup.2) ↔
        ¬ (key ∉ ["_connector", "_negated"] ∧ ¬ NamesHostField accepts options key value) := by
    rw [hq]
    split_ifs with hown
    · simp [hown]
    · simp only [forall_eq, List.mem_cons, List.not_mem_nil, or_false, hown, not_false_eq_true,
        true_and, not_not]
  cases step with
  | mangled => exact Or.inl ⟨trivial, _, _, rfl⟩
  | bare => exact Or.inr (Or.inl ⟨trivial, _, rfl⟩)
  | list lookup values =>
    obtain ⟨hlookup, hin⟩ := h
    have hlast := hlookup.list hin
    rcases makeQ_cases (lookup.key options) (.several (csvList values)) with ⟨hown | ⟨hown, -⟩, -⟩ | ⟨-, q, hq, hqkeys⟩
    · exact absurd hown (key_ne hlast (by decide))
    · exact absurd hown (key_ne hlast (by decide))
    · refine Or.inr (Or.inr ⟨not_false, not_false, q, ?_, hkeys hqkeys⟩)
      rw [Step.result, hq]
      rfl
  | value lookup text =>
    have hraised {e : FilterError} (he : convert table options lookup.operator text = .error e) :
        valueFilter table options lookup text = .error e := by
      rw [valueFilter, he]
      rfl
    rcases @convert_cases table options lookup.operator text with ⟨hun, e, he⟩ | ⟨hnot, he⟩ | ⟨hun, hnot, hv⟩
    · exact Or.inr (Or.inl ⟨Or.inl hun, e, hraised he⟩)
    · exact Or.inl ⟨hnot, _, _, hraised he⟩
    · have hfilter : valueFilter table options lookup text =
          ((makeQ (lookup.key options) (filterValue lookup (scalarOf table lookup.operator text))).mapError .raised).map
            fun q => if lookup.operator = "ne" then q.not else q := by
        rw [valueFilter, hv]
        show ((makeQ (lookup.key options) (filterValue lookup (scalarOf table lookup.operator text))).mapError
          FilterError.raised >>= fun q => pure (if lookup.operator = "ne" then q.not else q)) = _
        cases makeQ (lookup.key options) (filterValue lookup (scalarOf table lookup.operator text)) <;> rfl
      rcases makeQ_cases (lookup.key options) (filterValue lookup (scalarOf table lookup.operator text)) with
        ⟨hown, e, he⟩ | ⟨hown, q, hq, hqkeys⟩
      · have hcrashes : lookup.key options = "self" ∨ lookup.key options = "_connector" ∧ text ∉ connectors := by
          rcases hown with hself | ⟨hkey, hvalues⟩
          · exact Or.inl hself
          · refine Or.inr ⟨hkey, fun htext => hvalues text htext ?_⟩
            exact (filterValue_connector h hkey _ text).mpr ((scalarOf_connector htext).mpr rfl)
        exact Or.inr (Or.inl ⟨Or.inr ⟨hnot, hcrashes⟩, e, hfilter.trans (by rw [he]; rfl)⟩)
      · refine Or.inr (Or.inr ⟨hnot, ?_, _, hfilter.trans (by rw [hq]; rfl), ?_⟩)
        · rintro (hc' | ⟨-, hself | ⟨hkey, htext⟩⟩)
          · exact hun hc'
          · exact hown (Or.inl hself)
          · refine hown (Or.inr ⟨hkey, fun connector hmem heq => htext ?_⟩)
            rw [(scalarOf_connector hmem).mp ((filterValue_connector h hkey _ connector).mp heq)]
            exact hmem
        · have hsame : (if lookup.operator = "ne" then q.not else q).lookups = q.lookups := by
            split_ifs
            · exact Filter.lookups_not q
            · rfl
          rw [hsame]
          exact hkeys hqkeys

theorem paramSteps_wellFormed (name : String) (values : List String) :
    ∀ step ∈ paramSteps table options name values, step.WellFormed := by
  intro step hstep
  unfold paramSteps at hstep
  split_ifs at hstep
  · split at hstep
    · obtain rfl := List.mem_singleton.mp hstep
      trivial
    · split at hstep
      · obtain rfl := List.mem_singleton.mp hstep
        trivial
      · rename_i lookup hlookup
        obtain ⟨⟨parts, flat⟩, -, hlookup⟩ := bind_eq_ok.mp hlookup
        have hwell := lookupKey_wellFormed hlookup
        unfold lookupSteps at hstep
        split_ifs at hstep with hin
        · obtain rfl := List.mem_singleton.mp hstep
          exact ⟨hwell, hin⟩
        · obtain ⟨text, -, rfl⟩ := List.mem_map.mp hstep
          exact hwell
  · cases hstep

theorem runSteps_sound {steps : List Step} (hsteps : ∀ step ∈ steps, step.WellFormed) (start : Filter) :
    Sound accepts options (runSteps table options start steps) ↔
      (∃ before step after, steps = before ++ step :: after ∧ Refuses table step ∧
          ∀ s ∈ before, ¬ Crashes table options s) ∨
        (∀ lookup ∈ start.lookups, NamesHostField accepts options lookup.1 lookup.2) ∧
          ∀ step ∈ steps, ¬ Crashes table options step ∧ ¬ Misnames accepts table options step := by
  induction steps generalizing start with
  | nil => simp [runSteps, Sound, pure, Except.pure]
  | cons step rest ih =>
    have hcons : runSteps table options start (step :: rest) =
        step.result table options >>= fun q => runSteps table options (start.and q) rest := by
      rw [runSteps, List.foldlM_cons]
      cases step.result table options <;> rfl
    have hrest : ∀ s ∈ rest, s.WellFormed := fun s hs => hsteps s (by simp [hs])
    -- what comes first is the step itself, or it lies in the rest
    have hfirst : (∃ before s after, step :: rest = before ++ s :: after ∧ Refuses table s ∧
          ∀ t ∈ before, ¬ Crashes table options t) ↔
        Refuses table step ∨ ¬ Crashes table options step ∧ ∃ before s after, rest = before ++ s :: after ∧
          Refuses table s ∧ ∀ t ∈ before, ¬ Crashes table options t := by
      constructor
      · rintro ⟨before, s, after, heq, hs, hbefore⟩
        cases before with
        | nil =>
          obtain ⟨rfl, -⟩ := List.cons.inj heq
          exact Or.inl hs
        | cons first before =>
          obtain ⟨rfl, hrest⟩ := List.cons.inj heq
          rw [List.forall_mem_cons] at hbefore
          exact Or.inr ⟨hbefore.1, before, s, after, hrest, hs, hbefore.2⟩
      · rintro (hs | ⟨hstep, before, s, after, rfl, hs, hbefore⟩)
        · exact ⟨[], step, rest, rfl, hs, by simp⟩
        · exact ⟨step :: before, s, after, rfl, hs, List.forall_mem_cons.mpr ⟨hstep, hbefore⟩⟩
    rw [hcons, hfirst, List.forall_mem_cons]
    rcases @result_cases accepts table options step (hsteps step (by simp)) with
      ⟨hrefuses, field, message, hresult⟩ | ⟨hcrashes, e, hresult⟩ | ⟨hrefuses, hcrashes, q, hresult, hnames⟩
    · rw [hresult]
      exact iff_of_true trivial (Or.inl (Or.inl hrefuses))
    · rw [hresult]
      refine iff_of_false not_false ?_
      rintro ((hrefuses | ⟨hno, -⟩) | ⟨-, ⟨hno, -⟩, -⟩)
      · exact not_crashes hrefuses hcrashes
      · exact hno hcrashes
      · exact hno hcrashes
    · rw [hresult]
      refine (ih hrest (start.and q)).trans ?_
      have hstart : (∀ lookup ∈ (start.and q).lookups, NamesHostField accepts options lookup.1 lookup.2) ↔
          (∀ lookup ∈ start.lookups, NamesHostField accepts options lookup.1 lookup.2) ∧
            ¬ Misnames accepts table options step := by
        simp only [Filter.mem_lookups_and, or_imp, forall_and, hnames]
      rw [hstart]
      simp only [hrefuses, hcrashes, not_false_eq_true, false_or, true_and, and_assoc]

end Runs

theorem remap_ne_nil {parts : List String} (h : 1 < parts.length) : remapSystemProfilePartsForLocal parts ≠ [] := by
  unfold remapSystemProfilePartsForLocal
  split
  · split_ifs <;> simp
  · intro hnil
    have hlength := congrArg List.length hnil
    rw [List.length_drop, List.length_nil] at hlength
    omega

theorem redirected_length {filterPrefix : String} {words : List String} (h : 1 < words.length) :
    1 < (redirected filterPrefix words).length := by
  unfold redirected
  split
  · split_ifs <;> simp
  · exact h

theorem lookupKey_isOk {parts : List String} {flat : Bool} {part : String}
    (h : flat = (part ≠ "workloads" : Bool)) : ∃ lookup, lookupKey options (part :: parts) flat = .ok lookup := by
  unfold lookupKey
  rw [List.getLast?_cons]
  dsimp only
  split_ifs with heq hcontains hnull
  · cases parts with
    | nil =>
      have hboth : options.useContainsForEq = true ∧ part = "workloads" := by simpa [h] using hcontains
      simp [hboth.2] at heq
    | cons next parts =>
      rw [List.dropLast_cons_cons, List.getLast?_cons]
      exact ⟨_, rfl⟩
  · exact ⟨_, rfl⟩
  · exact ⟨_, rfl⟩
  · split <;> exact ⟨_, rfl⟩

theorem readLookup_isOk_iff (fieldPrefix : Option String) (useContainsForEq : Bool) (words : List String) :
    isOk (readLookup (systemProfile fieldPrefix useContainsForEq) words) = true ↔ 1 < words.length := by
  rw [isOk_iff]
  constructor
  · rintro ⟨lookup, h⟩
    by_contra hshort
    rcases words with _ | ⟨first, _ | ⟨field, rest⟩⟩
    · cases h
    · cases h
    · simp at hshort
  · intro hlong
    have hparts := remap_ne_nil (@redirected_length "system_profile" words hlong)
    obtain ⟨part, parts, hcons⟩ := List.exists_cons_of_ne_nil hparts
    have hlocal : localParts (systemProfile fieldPrefix useContainsForEq) words = .ok (part :: parts, part ≠ "workloads") := by
      simp only [localParts, systemProfile, if_true, hcons]
    obtain ⟨lookup, hlookup⟩ := @lookupKey_isOk (systemProfile fieldPrefix useContainsForEq) parts _ part rfl
    exact ⟨lookup, bind_eq_ok.mpr ⟨_, hlocal, hlookup⟩⟩

/-- A query is answered with a condition on the host table, or refused, where its steps can be tolerated. A name is
bare where no word follows the prefix. -/
theorem filterMultiParam_sound_iff (accepts : Accepts) (table : CharTable) (fieldPrefix : Option String)
    (useContainsForEq : Bool) (params : List (String × List String)) :
    (Sound accepts (systemProfile fieldPrefix useContainsForEq)
        (filterMultiParam table (systemProfile fieldPrefix useContainsForEq) params) ↔
      Tolerates accepts table (systemProfile fieldPrefix useContainsForEq)
        (steps table (systemProfile fieldPrefix useContainsForEq) params)) ∧
      ∀ words, isOk (readLookup (systemProfile fieldPrefix useContainsForEq) words) = true ↔ 1 < words.length := by
  refine ⟨?_, readLookup_isOk_iff fieldPrefix useContainsForEq⟩
  have hsteps : ∀ step ∈ steps table (systemProfile fieldPrefix useContainsForEq) params, step.WellFormed := by
    intro step hstep
    obtain ⟨param, -, hstep⟩ := List.mem_flatMap.mp hstep
    exact paramSteps_wellFormed _ _ step hstep
  rw [filterMultiParam_eq, runSteps_sound hsteps, Tolerates]
  simp [Filter.lookups]

def asciiTable : CharTable where
  isWord c := c.isAlphanum || c = '_'
  isDigit c := c.isDigit || c = '²'
  decimal c := if c.isDigit then some (c.toNat - '0'.toNat) else none
  word_ascii _ _ := rfl
  digit_ascii := by
    intro c hc
    have hne : c ≠ '²' := by
      rintro rfl
      exact absurd hc (by decide)
    simp [hne]
  decimal_isDigit := by
    intro c hc
    split_ifs at hc with hdigit
    · rw [hdigit, Bool.true_or]
    · cases hc
  decimal_ascii _ hc := if_pos hc

/-- No column has a transform or a lookup `foo`, and the major version is compared with numbers. -/
def acceptsSome : Accepts
  | ["os_major"], .one (.text _) => false
  | ["os_major", "foo"], _ => false
  | _, _ => true

/-- `eq` with a boolean, a superscript, no field, the name `self`, an operator alone, a lookup and a value that Django
refuses. -/
theorem systemProfile_crashes :
    let run (name value : String) := filterMultiParam asciiTable (systemProfile none true) [(name, [value])]
    run "filter[system_profile][sap_system][eq]" "true" = .error (.raised .attributeError) ∧
      run "filter[system_profile][os_major][gte]" "²" = .error (.raised .valueError) ∧
        run "filter[system_profile][]" "x" = .error (.raised .indexError) ∧
          run "filter[system_profile][self]" "x" = .error (.raised .typeError) ∧
            run "filter[system_profile][nil]" "x" = .ok (.lookup false "isnull" (.one (.bool true))) ∧
              run "filter[system_profile][os_major][foo]" "1" = .ok (.lookup false "os_major__foo" (.one (.text "1"))) ∧
                run "filter[system_profile][os_major]" "abc" = .ok (.lookup false "os_major" (.one (.text "abc"))) ∧
                  ∀ bad ∈ [("filter[system_profile][sap_system][eq]", "true"), ("filter[system_profile][nil]", "x"),
                    ("filter[system_profile][os_major][foo]", "1"), ("filter[system_profile][os_major]", "abc")],
                    ¬ Sound acceptsSome (systemProfile none true) (run bad.1 bad.2) := by
  intro run
  have heq : run "filter[system_profile][sap_system][eq]" "true" = .error (.raised .attributeError) := by decide +kernel
  have hnil : run "filter[system_profile][nil]" "x" = .ok (.lookup false "isnull" (.one (.bool true))) := by
    decide +kernel
  have hfoo : run "filter[system_profile][os_major][foo]" "1" =
      .ok (.lookup false "os_major__foo" (.one (.text "1"))) := by
    decide +kernel
  have habc : run "filter[system_profile][os_major]" "abc" = .ok (.lookup false "os_major" (.one (.text "abc"))) := by
    decide +kernel
  refine ⟨heq, by decide +kernel, by decide +kernel, by decide +kernel, hnil, hfoo, habc, ?_⟩
  simp only [List.forall_mem_cons, heq, hnil, hfoo, habc, Sound, Filter.lookups, NamesHostField]
  refine ⟨not_false, ?_, ?_, ?_, fun bad hbad => absurd hbad List.not_mem_nil⟩
  · rintro ⟨⟨hcolumn, -⟩, -⟩
    exact absurd hcolumn (by decide +kernel)
  · rintro ⟨⟨-, haccepted⟩, -⟩
    exact absurd haccepted (by decide +kernel)
  · rintro ⟨⟨-, haccepted⟩, -⟩
    exact absurd haccepted (by decide +kernel)

end Advisor.Filters
