import Advisor.Django.Conditions
import Advisor.Filters.Crashes
import Advisor.Satellite.Tenants

/-! The operators `eq` and `ne` on flat columns and on paths in the workloads of a host. Below a path that a host does
not have PostgreSQL finds NULL, and Django guards only the column against it. -/

namespace Advisor.Filters

open Python Django Relational Reports

/-- How Django prepares a value for a column, with the test the database makes of it; nothing for a value it
refuses. -/
abbrev Preparation := String → Scalar → Option (Value → Bool)

section Conditions

variable (table : CharTable) (prepare : Preparation)

def indexOf (key : String) : Option Nat :=
  let digits := key.toList.filter (· ≠ '_')
  if digits.isEmpty || maxIntDigits < digits.length || key.toList.head? = some '_' || key.toList.getLast? = some '_' ||
      (splitDunder key.toList).length ≠ 1 then none
  else (digits.mapM table.decimal).map fun digits => digits.foldl (fun n digit => 10 * n + digit) 0

def element (value : Json) (i : Nat) : Option Json :=
  match value with
  | .list xs => xs[i]?
  | _ => none

/-- `value #> path`, one step: keys of objects, and indexes of lists in ASCII digits. -/
def member (value : Json) (key : String) : Option Json :=
  match value with
  | .list xs =>
    if !key.toList.isEmpty && key.toList.all (·.isDigit) then
      xs[key.toList.foldl (fun n c => 10 * n + (c.toNat - '0'.toNat)) 0]?
    else none
  | value => value.field? key

/-- A key transform: `->` for one key, which is an index where `int` reads it, and `#>` for more. -/
def jsonPath (path : List String) (value : Json) : Option Json :=
  match path with
  | [key] =>
    match indexOf table key with
    | some i => element value i
    | none => value.field? key
  | path => path.foldlM member value

def workloadsAt (path : List String) : Option Value → Option Json
  | some (.json value) => jsonPath table path value
  | _ => none

def sameScalar : Scalar → Json → Bool
  | .text s, .str t => s = t
  | .bool b, .bool c => b = c
  | .int n, .int i => i = n
  | .int n, .float x => x = .finite n
  | _, _ => false

def contains (field : String) (scalar : Scalar) (value : Json) : Bool := (value.field? field).any (sameScalar scalar)

def equalsObject (field : String) (scalar : Scalar) : Json → Bool
  | .dict items => contains field scalar (.dict items) && items.all fun item => item.1 = field
  | _ => false

def storableScalar : Scalar → Bool
  | .text text => !text.toList.contains '\x00'
  | _ => true

/-- What a lookup by a key comes to, for the keys of flat columns and of paths in the workloads. -/
def lookupOf (key : String) (value : FilterValue) : Option Reports.Lookup :=
  match names key, value with
  | [column], .one scalar =>
    if column ∈ hostColumns then (prepare column scalar).map fun test => { column, test := QObject.compare test } else none
  | "workloads" :: path, .holding field scalar =>
    if storableScalar scalar then
      some
        { column := "workloads"
          test := fun cell =>
            if path.getLast? = some "contains" then
              QObject.compare (contains field scalar) (workloadsAt table path.dropLast cell)
            else QObject.compare (equalsObject field scalar) (workloadsAt table path cell) }
    else none
  | _, _ => none

def conditionOf : Filter → Option Condition
  | .lookup negated key value => (lookupOf table prepare key value).map (.lookup negated)
  | _ => none

end Conditions

/-- A field of the filter: the words of a parameter between the prefix and the operator. -/
structure Field (table : CharTable) where
  words : List String
  word : ∀ word ∈ words, word.toList ≠ [] ∧ ∀ c ∈ word.toList, table.isWord c = true
  nonempty : words ≠ []

def pathOf (words : List String) : List String :=
  remapSystemProfilePartsForLocal (redirected "system_profile" ("system_profile" :: words))

inductive Supported : List String → Prop
  | flat {column : String} : column ∈ hostColumns → column ≠ "workloads" → Supported [column]
  | workload (init : List String) (field : String) : Supported ("workloads" :: init ++ [field])

/-- Where a test of a workload field begins, with the path as Django splits it. -/
def enclosing (path : List String) : List String :=
  let parts := (names (joinDunder (path.dropLast ++ ["contains"]))).drop 1
  if parts.getLast? = some "contains" then parts.dropLast else parts

namespace Field

variable {table : CharTable} (field : Field table)

def nameChars (words : List String) : List Char := words.flatMap fun word => '[' :: word.toList ++ [']']

def name (operator : String) : String :=
  String.ofList ("filter".toList ++ nameChars ("system_profile" :: field.words ++ [operator]))

/-- Whether the filter of one parameter selects a host; nothing where it is rejected. -/
def selects (prepare : Preparation) (operator text : String) (row : AdvisorInventoryHost) : Option Bool := do
  let filter ← (filterMultiParam table (systemProfile none true) [(field.name operator, [text])]).toOption
  let condition ← conditionOf table prepare filter
  return (condition.onRow row).holds

/-- A workload field is tested in an object, or another value, that the host has. -/
def Decided (row : AdvisorInventoryHost) : Prop :=
  (pathOf field.words).head? = some "workloads" →
    (workloadsAt table (enclosing (pathOf field.words)) (row.cell "workloads")).isSome = true

end Field

section Name

variable {table : CharTable}

theorem isWord_of_ascii {text : List Char}
    (h : (text.all fun c => decide (c.toNat < 128) && (c.isAlphanum || c = '_')) = true) :
    ∀ c ∈ text, table.isWord c = true := by
  intro c hc
  have hboth := List.all_eq_true.mp h c hc
  rw [Bool.and_eq_true, decide_eq_true_eq] at hboth
  rw [table.word_ascii c hboth.1]
  exact hboth.2

theorem not_isWord_bracket : table.isWord ']' = false ∧ table.isWord '[' = false := by
  refine ⟨?_, ?_⟩
  · rw [table.word_ascii ']' (by decide)]
    decide
  · rw [table.word_ascii '[' (by decide)]
    decide

theorem bracketed_word {word : List Char} (hword : ∀ c ∈ word, table.isWord c = true) (read rest : List Char)
    (hne : read ++ word ≠ []) :
    bracketed table (some read) (word ++ ']' :: rest) =
      (bracketed table none rest).map (String.ofList (read ++ word) :: ·) := by
  induction word generalizing read with
  | nil =>
    rw [List.append_nil] at hne
    have hread : read.isEmpty = false := by simpa using hne
    simp [bracketed, not_isWord_bracket.1, hread]
  | cons c word ih =>
    have hc := hword c (by simp)
    rw [List.cons_append, bracketed]
    rw [if_pos hc, ih (fun d hd => hword d (by simp [hd])) (read ++ [c]) (by simp), List.append_assoc]
    rfl

theorem bracketed_words {words : List String}
    (hwords : ∀ word ∈ words, word.toList ≠ [] ∧ ∀ c ∈ word.toList, table.isWord c = true) :
    bracketed table none (Field.nameChars words) = some words := by
  induction words with
  | nil => rfl
  | cons word words ih =>
    obtain ⟨hne, hword⟩ := hwords word (by simp)
    have hopen : ∀ rest, word.toList ++ ']' :: rest ≠ [']'] ∧ word.toList ++ ']' :: rest ≠ [']', '\n'] := by
      intro rest
      cases hlist : word.toList with
      | nil => exact absurd hlist hne
      | cons c text =>
        have hc := hword c (by simp [hlist])
        have hbracket : c ≠ ']' := by
          rintro rfl
          rw [not_isWord_bracket.1] at hc
          cases hc
        simp [hbracket]
    have hchars : Field.nameChars (word :: words) = '[' :: (word.toList ++ ']' :: Field.nameChars words) := by
      simp [Field.nameChars]
    obtain ⟨hfirst, hsecond⟩ := hopen (Field.nameChars words)
    rw [hchars, bracketed]
    simp only [hfirst, hsecond, decide_false, Bool.or_false, Bool.and_false]
    rw [bracketed_word hword [] _ (by simpa using hne), ih fun w hw => hwords w (by simp [hw])]
    simp

theorem name_toList (field : Field table) (operator : String) : (field.name operator).toList =
    "filter".toList ++ Field.nameChars ("system_profile" :: field.words ++ [operator]) :=
  String.toList_ofList

theorem bracketWords_name (field : Field table) {operator : String} (hoperator : operator = "eq" ∨ operator = "ne") :
    bracketWords table (field.name operator) = some ("system_profile" :: field.words ++ [operator]) := by
  have hfilter : ∀ c ∈ "filter".toList, table.isWord c = true := isWord_of_ascii (by decide +kernel)
  have hwords : ∀ word ∈ "system_profile" :: field.words ++ [operator],
      word.toList ≠ [] ∧ ∀ c ∈ word.toList, table.isWord c = true := by
    intro word hword
    rw [List.cons_append, List.mem_cons, List.mem_append, List.mem_singleton] at hword
    rcases hword with rfl | hword | rfl
    · exact ⟨by decide, isWord_of_ascii (by decide +kernel)⟩
    · exact field.word word hword
    · rcases hoperator with rfl | rfl
      · exact ⟨by decide, isWord_of_ascii (by decide +kernel)⟩
      · exact ⟨by decide, isWord_of_ascii (by decide +kernel)⟩
  have hstop : (Field.nameChars ("system_profile" :: field.words ++ [operator])).takeWhile table.isWord = [] := by
    simp [Field.nameChars, not_isWord_bracket.2]
  have hstart : (Field.nameChars ("system_profile" :: field.words ++ [operator])).dropWhile table.isWord =
      Field.nameChars ("system_profile" :: field.words ++ [operator]) := by
    simp [Field.nameChars, not_isWord_bracket.2]
  rw [bracketWords, name_toList, List.takeWhile_append_of_pos hfilter,
    List.dropWhile_append_of_pos hfilter, hstop, hstart, bracketed_words hwords]
  simp

theorem startsWith_name (field : Field table) (operator : String) :
    (field.name operator).startsWith (paramPrefix (systemProfile none true)) = true := by
  obtain ⟨word, words, hwords⟩ := List.exists_cons_of_ne_nil field.nonempty
  have hprefix : paramPrefix (systemProfile none true) = "filter[system_profile][" := by decide +kernel
  rw [String.startsWith_string_iff, hprefix, name_toList, hwords]
  exact ⟨word.toList ++ ']' :: Field.nameChars (words ++ [operator]), by simp [Field.nameChars]⟩

end Name

section Lookups

variable {table : CharTable}

theorem redirected_append {words : List String} (h : words ≠ []) (operator : String) :
    redirected "system_profile" ("system_profile" :: words ++ [operator]) =
      redirected "system_profile" ("system_profile" :: words) ++ [operator] := by
  cases words with
  | nil => exact absurd rfl h
  | cons word words =>
    simp only [redirected, List.cons_append, if_true]
    split_ifs <;> rfl

theorem remap_append {parts : List String} (h : 1 < parts.length) {operator : String}
    (hoperator : operator = "eq" ∨ operator = "ne") :
    remapSystemProfilePartsForLocal (parts ++ [operator]) = remapSystemProfilePartsForLocal parts ++ [operator] := by
  rcases parts with _ | ⟨first, _ | ⟨second, _ | ⟨third, rest⟩⟩⟩
  · simp at h
  · simp at h
  · rcases hoperator with rfl | rfl <;> simp [remapSystemProfilePartsForLocal]
  · simp only [remapSystemProfilePartsForLocal, List.cons_append, List.drop_one, List.tail_cons]
    split_ifs <;> rfl

theorem pathOf_ne_nil {words : List String} (h : words ≠ []) : pathOf words ≠ [] := by
  apply remap_ne_nil
  apply redirected_length
  rw [List.length_cons]
  have hpos := List.length_pos_of_ne_nil h
  omega

theorem localParts_field (field : Field table) {operator : String} (hoperator : operator = "eq" ∨ operator = "ne") :
    localParts (systemProfile none true) ("system_profile" :: field.words ++ [operator]) =
      .ok (pathOf field.words ++ [operator], ((pathOf field.words).head? ≠ some "workloads" : Bool)) := by
  have hlong : 1 < (redirected "system_profile" ("system_profile" :: field.words)).length := by
    apply redirected_length
    rw [List.length_cons]
    have hpos := List.length_pos_of_ne_nil field.nonempty
    omega
  obtain ⟨first, rest, hpath⟩ := List.exists_cons_of_ne_nil (pathOf_ne_nil field.nonempty)
  have hremap : remapSystemProfilePartsForLocal
      (redirected "system_profile" ("system_profile" :: field.words ++ [operator])) = first :: rest ++ [operator] := by
    rw [redirected_append field.nonempty, remap_append hlong hoperator, ← hpath]
    rfl
  rw [List.cons_append] at hremap
  simp only [localParts, systemProfile, if_true, hremap, hpath, List.cons_append, List.head?_cons, Option.some.injEq,
    ne_eq]

theorem readLookup_flat (field : Field table) {operator column : String} (hoperator : operator = "eq" ∨ operator = "ne")
    (hpath : pathOf field.words = [column]) (hcolumn : column ≠ "workloads") :
    readLookup (systemProfile none true) ("system_profile" :: field.words ++ [operator]) =
      .ok ⟨operator, [column], none⟩ := by
  rw [readLookup, localParts_field field hoperator, hpath]
  have hflat : (([column].head? ≠ some "workloads" : Bool)) = true := by simpa using hcolumn
  rw [hflat]
  rcases hoperator with rfl | rfl <;> rfl

theorem readLookup_workload (field : Field table) {operator last : String} {init : List String}
    (hoperator : operator = "eq" ∨ operator = "ne") (hpath : pathOf field.words = "workloads" :: init ++ [last]) :
    readLookup (systemProfile none true) ("system_profile" :: field.words ++ [operator]) =
      .ok ⟨operator, "workloads" :: init ++ ["contains"], some last⟩ := by
  rw [readLookup, localParts_field field hoperator, hpath]
  have hinit : ("workloads" :: init ++ [last] ++ [operator]).getLast? = some operator := List.getLast?_concat
  have hfield : ("workloads" :: init ++ [last] ++ [operator]).dropLast.getLast? = some last := by
    rw [List.dropLast_concat, List.getLast?_concat]
  have hrest : ("workloads" :: init ++ [last] ++ [operator]).dropLast.dropLast = "workloads" :: init := by
    rw [List.dropLast_concat, List.dropLast_concat]
  have heq : (operator = "eq" || operator = "ne") = true := by simpa using hoperator
  show lookupKey (systemProfile none true) ("workloads" :: init ++ [last] ++ [operator]) false = _
  simp only [lookupKey, hinit, hfield, hrest, heq, systemProfile, Bool.not_false, Bool.and_self, if_true]

theorem filterValue_plain {operator : String} (hoperator : operator = "eq" ∨ operator = "ne") (parts : List String)
    (value : Scalar) : filterValue ⟨operator, parts, none⟩ value = .one value := by
  rcases hoperator with rfl | rfl <;> rfl

theorem convert_ne (options : Options) (text : String) : convert table options "ne" text = convert table options "eq" text := by
  simp [convert, isOrder, isEquality]

theorem filter_of_field (field : Field table) {operator text : String} {lookup : LookupKey} {filter : Filter}
    (hoperator : operator = "eq" ∨ operator = "ne")
    (hread : readLookup (systemProfile none true) ("system_profile" :: field.words ++ [operator]) = .ok lookup)
    (hsame : lookup.operator = operator)
    (hkey : ∀ own ∈ ["self", "_connector", "_negated"], lookup.key (systemProfile none true) ≠ own)
    (h : filterMultiParam table (systemProfile none true) [(field.name operator, [text])] = .ok filter) :
    ∃ value, convert table (systemProfile none true) "eq" text = .ok value ∧
      filter = .lookup (operator = "ne") (lookup.key (systemProfile none true)) (filterValue lookup value) := by
  have hsteps : steps table (systemProfile none true) [(field.name operator, [text])] = [.value lookup text] := by
    have hin : ¬ lookup.operator = "in" := by
      rw [hsame]
      rcases hoperator with rfl | rfl <;> decide
    simp only [steps, List.flatMap_cons, List.flatMap_nil, List.append_nil, paramSteps, startsWith_name, if_true,
      bracketWords_name field hoperator, hread, lookupSteps, if_neg hin, List.map_cons, List.map_nil]
  rw [filterMultiParam_eq, hsteps] at h
  obtain ⟨result, hresult, h⟩ := bind_eq_ok.mp h
  obtain rfl := Except.ok.inj h
  obtain ⟨q, hq, hresult⟩ := bind_eq_ok.mp hresult
  obtain rfl := Except.ok.inj hresult
  change valueFilter table (systemProfile none true) lookup text = .ok q at hq
  rw [valueFilter, hsame] at hq
  obtain ⟨value, hvalue, hq⟩ := bind_eq_ok.mp hq
  obtain ⟨q', hq', hq⟩ := bind_eq_ok.mp hq
  have hmake : makeQ (lookup.key (systemProfile none true)) (filterValue lookup value) =
      .ok (.lookup false (lookup.key (systemProfile none true)) (filterValue lookup value)) := by
    simp only [List.forall_mem_cons] at hkey
    rw [makeQ, if_neg hkey.1, if_neg hkey.2.1, if_neg hkey.2.2.1]
  rw [mapError_eq_ok, hmake] at hq'
  obtain rfl := Except.ok.inj hq'
  obtain rfl := Except.ok.inj hq
  refine ⟨value, ?_, ?_⟩
  · rcases hoperator with rfl | rfl
    · exact hvalue
    · rw [← convert_ne]
      exact hvalue
  · rcases hoperator with rfl | rfl <;> rfl

theorem selects_iff (field : Field table) {prepare : Preparation} {text key : String} {row : AdvisorInventoryHost}
    {value : Scalar → FilterValue} {eqSelects neSelects : Bool}
    (hlookup : ∀ operator, operator = "eq" ∨ operator = "ne" → ∃ lookup : LookupKey,
      readLookup (systemProfile none true) ("system_profile" :: field.words ++ [operator]) = .ok lookup ∧
        lookup.operator = operator ∧ lookup.key (systemProfile none true) = key ∧
          ∀ v, filterValue lookup v = value v)
    (hkey : ∀ own ∈ ["self", "_connector", "_negated"], key ≠ own)
    (heq : field.selects prepare "eq" text row = some eqSelects)
    (hne : field.selects prepare "ne" text row = some neSelects) :
    ∃ v l, lookupOf table prepare key (value v) = some l ∧ eqSelects = (l.test (row.cell l.column)).holds ∧
      neSelects = (l.eval row.cell nullable true).holds := by
  have hselects {operator : String} {selects : Bool} (hoperator : operator = "eq" ∨ operator = "ne")
      (h : field.selects prepare operator text row = some selects) :
      ∃ v l, convert table (systemProfile none true) "eq" text = .ok v ∧ lookupOf table prepare key (value v) = some l ∧
        selects = (l.eval row.cell nullable (operator = "ne")).holds := by
    obtain ⟨lookup, hread, hsame, rfl, hvalue⟩ := hlookup operator hoperator
    obtain ⟨filter, hfilter, h⟩ := Option.bind_eq_some_iff.mp h
    obtain ⟨condition, hcondition, h⟩ := Option.bind_eq_some_iff.mp h
    have hok : filterMultiParam table (systemProfile none true) [(field.name operator, [text])] = .ok filter := by
      cases hrun : filterMultiParam table (systemProfile none true) [(field.name operator, [text])] with
      | error e =>
        rw [hrun] at hfilter
        cases hfilter
      | ok other =>
        rw [hrun] at hfilter
        exact congrArg Except.ok (Option.some.inj hfilter)
    obtain ⟨v, hv, rfl⟩ := filter_of_field field hoperator hread hsame hkey hok
    obtain ⟨l, hl, rfl⟩ := Option.map_eq_some_iff.mp hcondition
    rw [hvalue] at hl
    exact ⟨v, l, hv, hl, (Option.some.inj h).symm⟩
  obtain ⟨v, l, hv, hl, rfl⟩ := hselects (Or.inl rfl) heq
  obtain ⟨v', l', hv', hl', rfl⟩ := hselects (Or.inr rfl) hne
  obtain rfl := Except.ok.inj (hv.symm.trans hv')
  obtain rfl := Option.some.inj (hl.symm.trans hl')
  exact ⟨v, l, hl, rfl, rfl⟩

theorem names_column : ∀ column ∈ hostColumns, names column = [column] := by decide +kernel

theorem column_ne_own : ∀ column ∈ hostColumns, ∀ own ∈ ["self", "_connector", "_negated"], column ≠ own := by
  decide +kernel

theorem names_workload (init : List String) :
    names (joinDunder ("workloads" :: init ++ ["contains"])) = "workloads" :: names (joinDunder (init ++ ["contains"])) := by
  have hjoin : joinDunder ("workloads" :: init ++ ["contains"]) = "workloads" ++ "__" ++ joinDunder (init ++ ["contains"]) := by
    cases init <;> rfl
  have hsplit : ∀ rest, splitDunder ("workloads".toList ++ ("__".toList ++ rest)) =
      "workloads".toList :: splitDunder rest := fun rest => rfl
  rw [hjoin, names, String.toList_append, String.toList_append, List.append_assoc, hsplit, List.map_cons]
  rfl

theorem workload_ne_own (init : List String) : ∀ own ∈ ["self", "_connector", "_negated"],
    joinDunder ("workloads" :: init ++ ["contains"]) ≠ own := by
  intro own hown heq
  have hnames := names_workload init
  rw [heq] at hnames
  have hhead : ∀ own ∈ ["self", "_connector", "_negated"], (names own).head? ≠ some "workloads" := by decide +kernel
  apply hhead own hown
  rw [hnames]
  rfl

/-- What Django adds to a negated lookup keeps the hosts with NULL in the column. -/
theorem not_selects {l : Reports.Lookup} {test : Value → Bool} {row : AdvisorInventoryHost} (hrow : Complete row)
    (htest : l.test = QObject.compare test) (hnull : l.isNullTest = false) :
    (l.eval row.cell nullable true).holds = !(l.test (row.cell l.column)).holds := by
  rw [Reports.Lookup.eval, if_pos rfl, hnull, Bool.not_false, Bool.and_true, htest, QObject.holds_compare]
  split_ifs with hguard
  · exact QObject.holds_not_compare test _
  · obtain ⟨value, hvalue⟩ := Option.isSome_iff_exists.mp (hrow l.column (by simpa using hguard))
    rw [hvalue]
    show (Truth.not (Truth.ofBool (test value))).holds = !test value
    rw [Truth.not_ofBool, Truth.holds_ofBool]

end Lookups

section Complement

variable {table : CharTable} (field : Field table) (prepare : Preparation) (text : String) {row : AdvisorInventoryHost}
  {eqSelects neSelects : Bool}

theorem ne_flat {column : String} (hcolumn : column ∈ hostColumns) (hflat : column ≠ "workloads")
    (hpath : pathOf field.words = [column]) (hrow : Complete row)
    (heq : field.selects prepare "eq" text row = some eqSelects)
    (hne : field.selects prepare "ne" text row = some neSelects) : neSelects = !eqSelects := by
  obtain ⟨v, l, hl, rfl, rfl⟩ := @selects_iff _ field prepare text column row .one _ _ (fun operator hoperator =>
    ⟨_, readLookup_flat field hoperator hpath hflat, rfl, rfl, filterValue_plain hoperator [column]⟩)
    (column_ne_own column hcolumn) heq hne
  simp only [lookupOf, names_column column hcolumn, hcolumn, if_true] at hl
  obtain ⟨test, -, rfl⟩ := Option.map_eq_some_iff.mp hl
  exact not_selects hrow rfl rfl

theorem ne_workload {init : List String} {last : String} (hpath : pathOf field.words = "workloads" :: init ++ [last])
    (heq : field.selects prepare "eq" text row = some eqSelects)
    (hne : field.selects prepare "ne" text row = some neSelects) :
    neSelects = !eqSelects ↔
      (workloadsAt table (enclosing (pathOf field.words)) (row.cell "workloads")).isSome = true := by
  obtain ⟨v, l, hl, rfl, rfl⟩ := @selects_iff _ field prepare text _ row (.holding last) _ _ (fun operator hoperator =>
    ⟨_, readLookup_workload field hoperator hpath, rfl, rfl, fun v => rfl⟩) (workload_ne_own init) heq hne
  have hcolumn : nullable "workloads" = false := by decide +kernel
  have henclosing : enclosing (pathOf field.words) =
      if (names (joinDunder (init ++ ["contains"]))).getLast? = some "contains" then
        (names (joinDunder (init ++ ["contains"]))).dropLast else names (joinDunder (init ++ ["contains"])) := by
    rw [enclosing, hpath, List.dropLast_concat, names_workload]
    rfl
  have hstorable : storableScalar v = true := by
    by_contra hno
    simp only [lookupOf, names_workload, if_neg hno] at hl
    cases hl
  simp only [lookupOf, names_workload, if_pos hstorable] at hl
  obtain rfl := Option.some.inj hl
  -- where the path leads nowhere both conditions are NULL
  have hcompare : ∀ (test : Json → Bool) (found : Option Json),
      (Truth.not (QObject.compare test found)).holds = !(QObject.compare test found).holds ↔ found.isSome = true := by
    intro test found
    cases found with
    | none => exact iff_of_false Bool.false_ne_true Bool.false_ne_true
    | some value => simp [QObject.compare]
  rw [henclosing]
  simp only [Reports.Lookup.eval, hcolumn, if_true, Bool.false_and, Bool.false_eq_true, if_false]
  split_ifs
  · exact hcompare _ _
  · exact hcompare _ _

/-- `ne` selects the hosts that `eq` does not, where a workload field is tested in something that the host has. -/
theorem ne_complement_iff (hfield : Supported (pathOf field.words)) (hrow : Complete row)
    (heq : field.selects prepare "eq" text row = some eqSelects)
    (hne : field.selects prepare "ne" text row = some neSelects) :
    (neSelects = true ↔ eqSelects = false) ↔ field.Decided row := by
  have hnot : (neSelects = true ↔ eqSelects = false) ↔ neSelects = !eqSelects := by
    cases neSelects <;> cases eqSelects <;> decide
  rw [hnot, Field.Decided]
  generalize hpath : pathOf field.words = path at hfield
  cases hfield with
  | flat hcolumn hflat =>
    refine iff_of_true (ne_flat field prepare text hcolumn hflat hpath hrow heq hne) fun hhead => ?_
    exact absurd (Option.some.inj hhead) hflat
  | workload init last =>
    rw [← hpath, ne_workload field prepare text hpath heq hne, hpath]
    exact ⟨fun h _ => h, fun h => h rfl⟩

end Complement

def plainly : Preparation := fun _ scalar =>
  match scalar with
  | .text s => some fun value => value = .text s
  | .int n => some fun value => value = .int n
  | .bool b => some fun value => value = .bool b

theorem asciiWords {words : List String}
    (h : (words.all fun word => !word.toList.isEmpty && word.toList.all asciiTable.isWord) = true) :
    ∀ word ∈ words, word.toList ≠ [] ∧ ∀ c ∈ word.toList, asciiTable.isWord c = true := by
  simpa using h

def hostType : Field asciiTable where
  words := ["host_type"]
  word := asciiWords (by decide +kernel)
  nonempty := List.cons_ne_nil _ _

def controllerVersion : Field asciiTable where
  words := ["ansible", "controller_version"]
  word := asciiWords (by decide +kernel)
  nonempty := List.cons_ne_nil _ _

/-- The host has no type. -/
theorem ne_complement_hostType :
    ((true = true ↔ false = false) ↔ hostType.Decided (Satellite.inventoryOf "1234" 7)) ∧
      hostType.selects plainly "ne" "edge" (Satellite.inventoryOf "1234" 7) = some true := by
  have hne : hostType.selects plainly "ne" "edge" (Satellite.inventoryOf "1234" 7) = some true := by decide +kernel
  have hfield : Supported (pathOf hostType.words) := @Supported.flat "host_type" (by decide +kernel) (by decide +kernel)
  exact ⟨ne_complement_iff hostType plainly "edge" hfield (Satellite.complete_inventoryOf "1234" 7)
    (by decide +kernel) hne, hne⟩

/-- The host has no Ansible workload, and neither operator selects it. -/
theorem neither_controllerVersion :
    Supported (pathOf controllerVersion.words) ∧ Complete (Satellite.inventoryOf "1234" 7) ∧
      controllerVersion.selects plainly "eq" "4.2" (Satellite.inventoryOf "1234" 7) = some false ∧
        controllerVersion.selects plainly "ne" "4.2" (Satellite.inventoryOf "1234" 7) = some false :=
  ⟨.workload ["ansible"] "controller_version", Satellite.complete_inventoryOf "1234" 7, by decide +kernel,
    by decide +kernel⟩

end Advisor.Filters
