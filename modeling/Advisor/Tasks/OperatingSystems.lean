import Advisor.Filters.Crashes
import Advisor.Python.Dict
import Advisor.Python.Procedure
import Advisor.Python.Search
import Advisor.Tasks.Eligible

/-! The filter of systems by their operating systems, which goes through two other parameters of the request. -/

namespace Advisor.Tasks

open Python Procedure Django Relational Filters

structure QueryParams where
  params : Dict String (List String)
  mutable : Bool := false

abbrev Reading (α : Type) := Procedure FilterError QueryParams α

/-- A parameter of many values, with the text and the matches of its pattern if it has one. -/
structure ListParam where
  name : String
  pattern : Option (String × (String → Bool)) := none

section Params

def validateParamPart (param : ListParam) (value : String) : Except FilterError String :=
  match param.pattern with
  | some (text, accepts) =>
    if accepts value then .ok value
    else .error (.invalid param.name ("The value did not match the pattern '" ++ text ++ "'"))
  | none => .ok value

def QueryParams.getlist (q : QueryParams) (name : String) : Option (List String) := (q.params.get? name).map Prod.snd

def valueOfParam (param : ListParam) : Reading (Option (List String)) := do
  let values ← read (·.getlist param.name)
  match values with
  | none => return none
  | some values => do
    let parts ← lift ((csvList values).mapM (validateParamPart param))
    return some parts

def setParam (name value : String) : Reading Unit := fun q =>
  if q.mutable then (.ok (), { q with params := q.params.set name [value] }) else (.error (.raised .attributeError), q)

variable (table : CharTable)

def decimals (digits : List Char) : Bool := !digits.isEmpty && digits.all fun c => (table.decimal c).isSome

/-- `$` and `int` let a newline at the end pass. -/
def chomp (text : List Char) : List Char := if text.getLast? = some '\n' then text.dropLast else text

def isVersion (text : String) : Bool :=
  match text.toList.splitOn '.' with
  | [major, minor] => decimals table major && decimals table (chomp minor)
  | _ => false

def osNameQueryParam : ListParam := { name := "os_name" }

def osVersionQueryParam : ListParam := { name := "os_version", pattern := some ("^\\d+\\.\\d+$", isVersion table) }

def osQueryParam : ListParam := { name := "operating_system" }

def versionNumbers (version : String) : Except FilterError (Nat × Nat) :=
  match version.toList.splitOn '.' with
  | [major, minor] => do
    let major ← (intOf table (String.ofList major)).mapError .raised
    let minor ← (intOf table (String.ofList (chomp minor))).mapError .raised
    return (major, minor)
  | _ => .error (.raised .valueError)

end Params

section Filters

/-- `a | b` and `a & b`, where an empty `Q` is left out. -/
def orQ : Option HostQ → Option HostQ → Option HostQ
  | none, q => q
  | q, none => q
  | some a, some b => some (.either a b)

def andQ : Option HostQ → Option HostQ → Option HostQ
  | none, q => q
  | q, none => q
  | some a, some b => some (.both a b)

def acceptsQ (q : Option HostQ) (row : AdvisorInventoryHost) : Bool := (q.map (·.holds row)).getD true

variable (table : CharTable) (postgres : PostgresTexts)

def filterOnOsVersion : Reading (Option HostQ) := do
  match ← valueOfParam (osVersionQueryParam table) with
  | none => return none
  | some versions => versions.foldlM (fun versionFilter version => do
      let (major, minor) ← lift (versionNumbers table version)
      return orQ versionFilter (some (SystemsRequest.osVersionQ ((major : Int), (minor : Int))))) none

def filterOnOsName : Reading (Option HostQ) := do
  let osNames ← valueOfParam osNameQueryParam
  return (osNames.getD []).foldl (fun osNameFilter osName =>
    orQ osNameFilter (some (SystemsRequest.osNameQ postgres osName))) none

def badlyFormatted : String :=
  "Badly formatted operating_system filter.  Must be of the form <NAME>|<VERSION>"

def osParts (os : String) : List String := (os.toList.splitOn '|').map String.ofList

/-- One turn of the loop: the value goes into the parameters for the name and the version. -/
def filterOnOneOs (osFilter : Option HostQ) (os : String) : Reading (Option HostQ) :=
  match osParts os with
  | [name, version] => do
    write fun q => { q with mutable := true }
    setParam "os_name" name
    setParam "os_version" version
    let nameFilter ← filterOnOsName postgres
    let versionFilter ← filterOnOsVersion table
    return orQ osFilter (andQ nameFilter versionFilter)
  | _ => raise (.invalid osQueryParam.name badlyFormatted)

def filterOnOs : Reading (Option HostQ) := do
  let osValues ← valueOfParam osQueryParam
  (osValues.getD []).foldlM (filterOnOneOs table postgres) none

end Filters

section Specification

variable (table : CharTable) (postgres : PostgresTexts)

def numberOf (digits : List Char) : Nat := digits.foldl (fun n c => 10 * n + (table.decimal c).getD 0) 0

def QueryParams.osValues (q : QueryParams) : List String := csvList ((q.getlist osQueryParam.name).getD [])

/-- `<NAME>|<VERSION>`. -/
structure OsValue (os name : String) (major minor : List Char) (version : String) : Prop where
  parts : osParts os = [name, version]
  numbers : version.toList.splitOn '.' = [major, minor]
  major : decimals table major = true
  minor : decimals table (chomp minor) = true

def WellFormedOs (os : String) : Prop := ∃ name major minor version, OsValue table os name major minor version

def MatchesOs (os : String) (row : AdvisorInventoryHost) : Prop :=
  ∃ name major minor version, OsValue table os name major minor version ∧
    (∃ s, row.cell "os_name" = some (.text s) ∧ postgres.upper s = postgres.upper name) ∧
      row.cell "os_major" = some (.int (numberOf table major)) ∧
        row.cell "os_minor" = some (.int (numberOf table (chomp minor)))

def ReadableOs (os : String) : Prop :=
  ∀ name major minor version, OsValue table os name major minor version →
    major.length ≤ maxIntDigits ∧ (chomp minor).length ≤ maxIntDigits

/-- The hosts that match a value are accepted; without values all are. -/
def Selects (q : QueryParams) (filter : Option HostQ) : Prop :=
  ∀ row, acceptsQ filter row = true ↔ q.osValues = [] ∨ ∃ os ∈ q.osValues, MatchesOs table postgres os row

/-- The right hosts are accepted, and the parameters are what they were. -/
def Faithful (q : QueryParams) : Prop :=
  ∃ filter q', filterOnOs table postgres q = (.ok filter, q') ∧ Selects table postgres q filter ∧ q'.params.Same q.params

/-- The parameters for the name and the version hold those of the last value already. -/
def EndsAs (q : QueryParams) : Prop :=
  ∀ os name major minor version, q.osValues.getLast? = some os → OsValue table os name major minor version →
    q.getlist osNameQueryParam.name = some [name] ∧ q.getlist (osVersionQueryParam table).name = some [version]

end Specification

section Value

variable {table : CharTable} {postgres : PostgresTexts} {os name version : String} {major minor : List Char}

theorem osParts_eq (h : osParts os = [name, version]) : os.toList = name.toList ++ '|' :: version.toList := by
  obtain ⟨first, rest, hsplit, rfl, hrest⟩ := List.map_eq_cons_iff.mp h
  obtain ⟨second, rest', rfl, rfl, hnil⟩ := List.map_eq_cons_iff.mp hrest
  obtain rfl := List.map_eq_nil_iff.mp hnil
  have hjoin := @List.intercalate_splitOn _ os.toList _ _ '|'
  rw [hsplit] at hjoin
  rw [String.toList_ofList, String.toList_ofList, ← hjoin]
  simp [List.intercalate]

theorem OsValue.unique (h : OsValue table os name major minor version) {name' version' : String}
    {major' minor' : List Char} (h' : OsValue table os name' major' minor' version') :
    name = name' ∧ major = major' ∧ minor = minor' ∧ version = version' := by
  have hparts := h.parts.symm.trans h'.parts
  simp only [List.cons.injEq, and_true] at hparts
  obtain ⟨rfl, rfl⟩ := hparts
  have hnumbers := h.numbers.symm.trans h'.numbers
  simp only [List.cons.injEq, and_true] at hnumbers
  exact ⟨rfl, hnumbers.1, hnumbers.2, rfl⟩

theorem isVersion_eq (h : OsValue table os name major minor version) : isVersion table version = true := by
  rw [isVersion, h.numbers]
  simp [h.major, h.minor]

theorem intOf_decimals {digits : List Char} (h : decimals table digits = true) :
    intOf table (String.ofList digits) =
      if maxIntDigits < digits.length then .error .valueError else .ok (numberOf table digits) := by
  rw [decimals, Bool.and_eq_true, List.all_eq_true] at h
  have hdigits : digits.mapM table.decimal = some (digits.map fun c => (table.decimal c).getD 0) := by
    have hall := h.2
    clear h
    induction digits with
    | nil => rfl
    | cons c digits ih =>
      obtain ⟨d, hd⟩ := Option.isSome_iff_exists.mp (hall c (by simp))
      rw [List.mapM_cons, ih fun c hc => hall c (by simp [hc]), hd]
      simp [hd]
  simp only [intOf, String.toList_ofList, hdigits, numberOf, List.foldl_map]

theorem csvList_single {text : String} (h : ',' ∉ text.toList) : csvList [text] = [text] := by
  rw [csvList, List.flatMap_cons, List.flatMap_nil, List.append_nil, List.splitOn_eq_singleton h]
  simp

theorem valueOfParam_single {param : ListParam} {text : String} (h : ',' ∉ text.toList)
    (hvalid : validateParamPart param text = .ok text) {q : QueryParams} (hq : q.getlist param.name = some [text]) :
    valueOfParam param q = (.ok (some [text]), q) := by
  rw [valueOfParam, read_bind, hq]
  simp only [csvList_single h, List.mapM_cons, List.mapM_nil, hvalid]
  rfl

def QueryParams.touched (q : QueryParams) (name version : String) : QueryParams :=
  ⟨(q.params.set "os_name" [name]).set "os_version" [version], true⟩

theorem getlist_touched (q : QueryParams) (name version key : String) :
    (q.touched name version).getlist key =
      if "os_version" = key then some [version] else if "os_name" = key then some [name] else q.getlist key := by
  rw [QueryParams.getlist, QueryParams.touched]
  dsimp only
  rw [Dict.get?_set, Dict.get?_set]
  split_ifs <;> rfl

theorem filterOnOneOs_cases (h : OsValue table os name major minor version) (hcomma : ',' ∉ os.toList)
    (osFilter : Option HostQ) (q : QueryParams) :
    ((major.length ≤ maxIntDigits ∧ (chomp minor).length ≤ maxIntDigits) ∧
        filterOnOneOs table postgres osFilter os q =
          (.ok (orQ osFilter (some (.both (SystemsRequest.osNameQ postgres name)
            (SystemsRequest.osVersionQ (numberOf table major, numberOf table (chomp minor)))))), q.touched name version)) ∨
      (¬ (major.length ≤ maxIntDigits ∧ (chomp minor).length ≤ maxIntDigits) ∧
        ∃ e, filterOnOneOs table postgres osFilter os q = (.error e, q.touched name version)) := by
  have hchars := osParts_eq h.parts
  have hname : ',' ∉ name.toList := fun hmem => hcomma (by rw [hchars]; simp [hmem])
  have hversion : ',' ∉ version.toList := fun hmem => hcomma (by rw [hchars]; simp [hmem])
  have hosName : filterOnOsName postgres (q.touched name version) =
      (.ok (some (SystemsRequest.osNameQ postgres name)), q.touched name version) := by
    rw [filterOnOsName, bind_of_ok (valueOfParam_single hname rfl (getlist_touched q name version _))]
    rfl
  have hvalid : validateParamPart (osVersionQueryParam table) version = .ok version := by
    simp [validateParamPart, osVersionQueryParam, isVersion_eq h]
  have hosVersion : filterOnOsVersion table (q.touched name version) =
      (((versionNumbers table version).map fun numbers =>
        some (SystemsRequest.osVersionQ ((numbers.1 : Int), (numbers.2 : Int)))), q.touched name version) := by
    rw [filterOnOsVersion, bind_of_ok (valueOfParam_single hversion hvalid (getlist_touched q name version _))]
    cases hread : versionNumbers table version with
    | error e => simp only [List.foldlM_cons, hread]; rfl
    | ok numbers => simp only [List.foldlM_cons, hread]; rfl
  have hturn : filterOnOneOs table postgres osFilter os q =
      (filterOnOsVersion table >>= fun versionFilter => pure (orQ osFilter
        (andQ (some (SystemsRequest.osNameQ postgres name)) versionFilter))) (q.touched name version) := by
    rw [filterOnOneOs, h.parts]
    show (filterOnOsName postgres >>= fun nameFilter => filterOnOsVersion table >>= fun versionFilter =>
      pure (orQ osFilter (andQ nameFilter versionFilter))) (q.touched name version) = _
    rw [bind_of_ok hosName]
  have hnumbers : versionNumbers table version = do
      let major ← (intOf table (String.ofList major)).mapError .raised
      let minor ← (intOf table (String.ofList (chomp minor))).mapError .raised
      return (major, minor) := by
    rw [versionNumbers, h.numbers]
  rw [intOf_decimals h.major, intOf_decimals h.minor] at hnumbers
  by_cases hmajor : maxIntDigits < major.length
  · rw [if_pos hmajor] at hnumbers
    rw [hnumbers] at hosVersion
    exact .inr ⟨by omega, _, by rw [hturn, bind_of_error hosVersion]⟩
  by_cases hminor : maxIntDigits < (chomp minor).length
  · rw [if_neg hmajor, if_pos hminor] at hnumbers
    rw [hnumbers] at hosVersion
    exact .inr ⟨by omega, _, by rw [hturn, bind_of_error hosVersion]⟩
  · rw [if_neg hmajor, if_neg hminor] at hnumbers
    rw [hnumbers] at hosVersion
    exact .inl ⟨by omega, by rw [hturn, bind_of_ok hosVersion]; rfl⟩

theorem textLookup_holds {column : String} {test : String → Bool} {row : AdvisorInventoryHost} :
    (textLookup column test).holds row = true ↔ ∃ s, row.cell column = some (.text s) ∧ test s = true := by
  rw [QObject.holds_eq, textLookup, QObject.meaning]
  cases row.cell column with
  | none => simp
  | some value => cases value <;> simp

theorem integerIn_holds {column : String} {n : Int} {row : AdvisorInventoryHost} :
    (integerIn column [n]).holds row = true ↔ row.cell column = some (.int n) := by
  rw [QObject.holds_eq, integerIn, QObject.meaning]
  cases row.cell column with
  | none => simp
  | some value => cases value <;> simp

theorem holds_both (a b : HostQ) (row : AdvisorInventoryHost) :
    (QObject.both a b).holds row = (a.holds row && b.holds row) := by
  rw [QObject.holds_eq, QObject.meaning, ← QObject.holds_eq, ← QObject.holds_eq]

theorem osValue_holds (h : OsValue table os name major minor version) (row : AdvisorInventoryHost) :
    (QObject.both (SystemsRequest.osNameQ postgres name)
      (SystemsRequest.osVersionQ (numberOf table major, numberOf table (chomp minor)))).holds row = true ↔
      MatchesOs table postgres os row := by
  rw [SystemsRequest.osVersionQ, holds_both, holds_both, Bool.and_eq_true, Bool.and_eq_true, SystemsRequest.osNameQ,
    textLookup_holds, integerIn_holds, integerIn_holds]
  constructor
  · rintro ⟨⟨s, hcell, hname⟩, hmajor, hminor⟩
    exact ⟨name, major, minor, version, h, ⟨s, hcell, of_decide_eq_true hname⟩, hmajor, hminor⟩
  · rintro ⟨name', major', minor', version', h', ⟨s, hcell, hname⟩, hmajor, hminor⟩
    obtain ⟨rfl, rfl, rfl, rfl⟩ := h.unique h'
    exact ⟨⟨s, hcell, decide_eq_true hname⟩, hmajor, hminor⟩

theorem orQ_any (f : Option HostQ) (q : HostQ) (row : AdvisorInventoryHost) :
    (orQ f (some q)).any (·.holds row) = (f.any (·.holds row) || q.holds row) := by
  cases f with
  | none => rfl
  | some a =>
    show (QObject.either a q).holds row = (a.holds row || q.holds row)
    rw [QObject.holds_eq, QObject.meaning, ← QObject.holds_eq, ← QObject.holds_eq]

theorem orQ_isSome (f : Option HostQ) (q : HostQ) : (orQ f (some q)).isSome = true := by
  cases f <;> rfl

end Value

section Values

variable {table : CharTable} {postgres : PostgresTexts}

/-- What the loop makes of the values, from a filter and the parameters to others. -/
structure Gathered (table : CharTable) (postgres : PostgresTexts) (values : List String) (f : Option HostQ)
    (q : QueryParams) (filter : Option HostQ) (q' : QueryParams) : Prop where
  accepts : ∀ row, filter.any (·.holds row) = true ↔
    f.any (·.holds row) = true ∨ ∃ os ∈ values, MatchesOs table postgres os row
  started : filter.isSome = true ↔ f.isSome = true ∨ values ≠ []
  untouched : values = [] → q' = q
  last : ∀ os name major minor version, values.getLast? = some os → OsValue table os name major minor version →
    ∀ key, q'.getlist key = (q.touched name version).getlist key

theorem Gathered.cons {os name version : String} {major minor : List Char} {values : List String}
    {f filter : Option HostQ} {q q' : QueryParams} (h : OsValue table os name major minor version)
    (hrest : Gathered table postgres values (orQ f (some (.both (SystemsRequest.osNameQ postgres name)
      (SystemsRequest.osVersionQ (numberOf table major, numberOf table (chomp minor))))))
      (q.touched name version) filter q') :
    Gathered table postgres (os :: values) f q filter q' where
  accepts row := by
    rw [hrest.accepts, orQ_any, Bool.or_eq_true, osValue_holds h, or_assoc]
    simp only [List.mem_cons, exists_eq_or_imp]
  started := by
    rw [hrest.started, orQ_isSome]
    simp
  untouched hnil := absurd hnil (by simp)
  last os' name' major' minor' version' hlast h' key := by
    cases values with
    | nil =>
      obtain rfl : os = os' := by simpa using hlast
      obtain ⟨rfl, rfl, rfl, rfl⟩ := h.unique h'
      rw [hrest.untouched rfl]
    | cons second values =>
      rw [List.getLast?_cons_cons] at hlast
      rw [hrest.last _ _ _ _ _ hlast h' key]
      simp only [getlist_touched]
      split_ifs <;> rfl

theorem filterOnOneOs_fold {values : List String} (hwell : ∀ os ∈ values, WellFormedOs table os)
    (hcomma : ∀ os ∈ values, ',' ∉ os.toList) (f : Option HostQ) (q : QueryParams) :
    ((∀ os ∈ values, ReadableOs table os) ∧ ∃ filter q', Gathered table postgres values f q filter q' ∧
        values.foldlM (filterOnOneOs table postgres) f q = (.ok filter, q')) ∨
      ((¬ ∀ os ∈ values, ReadableOs table os) ∧
        ∃ e q', values.foldlM (filterOnOneOs table postgres) f q = (.error e, q')) := by
  induction values generalizing f q with
  | nil => exact .inl ⟨by simp, f, q, ⟨by simp, by simp, fun _ => rfl, by simp⟩, rfl⟩
  | cons os values ih =>
    obtain ⟨name, major, minor, version, h⟩ := hwell os List.mem_cons_self
    have hreadable : ReadableOs table os ↔ major.length ≤ maxIntDigits ∧ (chomp minor).length ≤ maxIntDigits := by
      refine ⟨fun hread => hread _ _ _ _ h, fun hread name' major' minor' version' h' => ?_⟩
      obtain ⟨rfl, rfl, rfl, rfl⟩ := h.unique h'
      exact hread
    rw [List.foldlM_cons, List.forall_mem_cons, hreadable]
    rcases @filterOnOneOs_cases table postgres _ _ _ _ _ h (hcomma os List.mem_cons_self) f q with
      ⟨hread, hturn⟩ | ⟨hread, e, hturn⟩
    · rw [bind_of_ok hturn]
      rcases ih (fun os' hmem => hwell os' (List.mem_cons_of_mem _ hmem))
        (fun os' hmem => hcomma os' (List.mem_cons_of_mem _ hmem)) (orQ f _) (q.touched name version) with
        ⟨hall, filter, q', hgathered, hrun⟩ | ⟨hnot, e, q', hrun⟩
      · exact .inl ⟨⟨hread, hall⟩, filter, q', hgathered.cons h, hrun⟩
      · exact .inr ⟨fun hall => hnot hall.2, e, q', hrun⟩
    · exact .inr ⟨fun hall => hread hall.1, e, q.touched name version, by rw [bind_of_error hturn]⟩

theorem valueOfParam_os (q : QueryParams) :
    ∃ osValues, valueOfParam osQueryParam q = (.ok osValues, q) ∧ osValues.getD [] = q.osValues := by
  rw [valueOfParam, read_bind, QueryParams.osValues]
  cases q.getlist osQueryParam.name with
  | none => exact ⟨none, rfl, rfl⟩
  | some values =>
    have hvalid : ∀ parts : List String, parts.mapM (validateParamPart osQueryParam) = .ok parts := by
      intro parts
      induction parts with
      | nil => rfl
      | cons part parts ih => rw [List.mapM_cons, ih]; rfl
    exact ⟨some (csvList values), by simp only [hvalid]; rfl, rfl⟩

theorem comma_of_osValues {q : QueryParams} {os : String} (h : os ∈ q.osValues) : ',' ∉ os.toList := by
  obtain ⟨item, -, hpart⟩ := List.mem_flatMap.mp h
  obtain ⟨part, hmem, rfl⟩ := List.mem_map.mp hpart
  rw [String.toList_ofList]
  exact not_mem_of_mem_splitOn hmem

theorem same_iff_getlist {q q' : QueryParams} :
    q'.params.Same q.params ↔ ∀ key, q'.getlist key = q.getlist key := by
  rw [Table.same_iff_get?]
  apply forall_congr'
  intro key
  constructor
  · intro h
    rw [QueryParams.getlist, QueryParams.getlist, h]
  · intro h
    rw [QueryParams.getlist, QueryParams.getlist] at h
    cases hget : q.params.get? key with
    | none =>
      rw [hget, Option.map_none, Option.map_eq_none_iff] at h
      exact h
    | some entry =>
      rw [hget, Option.map_some, Option.map_eq_some_iff] at h
      obtain ⟨entry', hget', hvalues⟩ := h
      have hkey := (Table.get?_eq_some.mp hget).2
      have hkey' := (Table.get?_eq_some.mp hget').2
      rw [hget']
      exact congrArg some (Prod.ext (hkey'.trans hkey.symm) hvalues)

theorem filterOnOs_cases {q : QueryParams} (hwell : ∀ os ∈ q.osValues, WellFormedOs table os) :
    ((∀ os ∈ q.osValues, ReadableOs table os) ∧ ∃ filter q', Gathered table postgres q.osValues none q filter q' ∧
        filterOnOs table postgres q = (.ok filter, q')) ∨
      ((¬ ∀ os ∈ q.osValues, ReadableOs table os) ∧ ∃ e q', filterOnOs table postgres q = (.error e, q')) := by
  obtain ⟨osValues, hvalue, hvalues⟩ := valueOfParam_os q
  have hrun : filterOnOs table postgres q = q.osValues.foldlM (filterOnOneOs table postgres) none q := by
    rw [filterOnOs, bind_of_ok hvalue, hvalues]
  rw [hrun]
  exact filterOnOneOs_fold hwell (fun os => comma_of_osValues) none q

theorem Gathered.selects {q q' : QueryParams} {filter : Option HostQ}
    (h : Gathered table postgres q.osValues none q filter q') : Selects table postgres q filter := by
  intro row
  have haccepts := h.accepts row
  have hstarted := h.started
  cases filter with
  | none =>
    have hnil : q.osValues = [] := by simpa using hstarted
    simp [acceptsQ, hnil]
  | some f =>
    have hnil : q.osValues ≠ [] := by simpa using hstarted
    simpa [acceptsQ, hnil] using haccepts

theorem Gathered.same_iff {q q' : QueryParams} {filter : Option HostQ}
    (hwell : ∀ os ∈ q.osValues, WellFormedOs table os) (h : Gathered table postgres q.osValues none q filter q') :
    q'.params.Same q.params ↔ EndsAs table q := by
  cases hlast : q.osValues.getLast? with
  | none =>
    rw [h.untouched (List.getLast?_eq_none_iff.mp hlast)]
    refine iff_of_true (fun _ => Iff.rfl) fun os _ _ _ _ hos => ?_
    rw [hlast] at hos
    cases hos
  | some os =>
    obtain ⟨name, major, minor, version, hos⟩ := hwell os (List.mem_of_getLast? hlast)
    have hends : EndsAs table q ↔ q.getlist "os_name" = some [name] ∧ q.getlist "os_version" = some [version] := by
      constructor
      · intro hends
        exact hends os name major minor version hlast hos
      · intro hlists os' name' major' minor' version' hlast' hos'
        obtain rfl : os = os' := by simpa [hlast] using hlast'
        obtain ⟨rfl, rfl, rfl, rfl⟩ := hos.unique hos'
        exact hlists
    rw [hends, same_iff_getlist]
    have hkeys := h.last os name major minor version hlast hos
    constructor
    · intro hsame
      constructor
      · rw [← hsame, hkeys, getlist_touched, if_neg (by decide), if_pos rfl]
      · rw [← hsame, hkeys, getlist_touched, if_pos rfl]
    · rintro ⟨hname, hversion⟩ key
      rw [hkeys, getlist_touched]
      split_ifs with hkey hkey'
      · rw [← hkey, hversion]
      · rw [← hkey', hname]
      · rfl

end Values

section Faithful

/-- Well-formed values select the right hosts when `int` reads their numbers, but the parameters for the name and the
version are left holding the last value's. -/
theorem filterOnOs_faithful_iff (table : CharTable) (postgres : PostgresTexts) (q : QueryParams)
    (hwell : ∀ os ∈ q.osValues, WellFormedOs table os) :
    ((∀ os ∈ q.osValues, ReadableOs table os) →
        ∃ filter q', filterOnOs table postgres q = (.ok filter, q') ∧ Selects table postgres q filter) ∧
      (Faithful table postgres q ↔ (∀ os ∈ q.osValues, ReadableOs table os) ∧ EndsAs table q) := by
  rcases @filterOnOs_cases table postgres q hwell with ⟨hread, filter, q', hgathered, hrun⟩ | ⟨hread, e, q', hrun⟩
  · refine ⟨fun _ => ⟨filter, q', hrun, hgathered.selects⟩, ?_⟩
    constructor
    · rintro ⟨filter', q'', hrun', -, hsame⟩
      rw [hrun, Prod.mk.injEq] at hrun'
      rw [← hrun'.2] at hsame
      exact ⟨hread, (hgathered.same_iff hwell).mp hsame⟩
    · rintro ⟨-, hends⟩
      exact ⟨filter, q', hrun, hgathered.selects, (hgathered.same_iff hwell).mpr hends⟩
  · refine ⟨fun hall => absurd hall hread, iff_of_false ?_ fun h => hread h.1⟩
    rintro ⟨filter', q'', hrun', -⟩
    rw [hrun] at hrun'
    cases hrun'

theorem osParts_rhel : OsValue asciiTable "RHEL|9.2" "RHEL" ['9'] ['2'] "9.2" where
  parts := by decide +kernel
  numbers := by decide +kernel
  major := by decide +kernel
  minor := by decide +kernel

def namedTwice : QueryParams where
  params := Dict.ofEntries [("operating_system", ["RHEL|9.2"]), ("os_name", ["RHEL"]), ("os_version", ["9.2"])]

theorem filterOnOs_namedTwice : Faithful asciiTable plainTexts namedTwice := by
  have hvalues : namedTwice.osValues = ["RHEL|9.2"] := by decide +kernel
  refine (filterOnOs_faithful_iff asciiTable plainTexts namedTwice ?_).2.mpr ⟨?_, ?_⟩
  · intro os hos
    rw [hvalues, List.mem_singleton] at hos
    subst hos
    exact ⟨_, _, _, _, osParts_rhel⟩
  · intro os hos name major minor version h
    rw [hvalues, List.mem_singleton] at hos
    subst hos
    obtain ⟨rfl, rfl, rfl, rfl⟩ := osParts_rhel.unique h
    decide +kernel
  · intro os name major minor version hos h
    rw [hvalues, List.getLast?_singleton, Option.some.injEq] at hos
    subst hos
    obtain ⟨rfl, rfl, rfl, rfl⟩ := osParts_rhel.unique h
    decide +kernel

/-- The request asks for one operating system, and asks for its name and version afterwards. -/
theorem os_left_in_query_params :
    let q : QueryParams := { params := Dict.ofEntries [("operating_system", ["RHEL|9.2"])] }
    (∀ os ∈ q.osValues, WellFormedOs asciiTable os ∧ ReadableOs asciiTable os) ∧
      q.getlist "os_name" = none ∧ (filterOnOs asciiTable plainTexts q).2.getlist "os_name" = some ["RHEL"] ∧
        ¬ Faithful asciiTable plainTexts q := by
  intro q
  have hvalues : q.osValues = ["RHEL|9.2"] := by decide +kernel
  have hbefore : q.getlist "os_name" = none := by decide +kernel
  have hafter : (filterOnOs asciiTable plainTexts q).2.getlist "os_name" = some ["RHEL"] := by decide +kernel
  refine ⟨?_, hbefore, hafter, ?_⟩
  · intro os hos
    rw [hvalues, List.mem_singleton] at hos
    subst hos
    refine ⟨⟨_, _, _, _, osParts_rhel⟩, fun name major minor version h => ?_⟩
    obtain ⟨rfl, rfl, rfl, rfl⟩ := osParts_rhel.unique h
    decide +kernel
  · rintro ⟨filter, q', hrun, -, hsame⟩
    have hname := same_iff_getlist.mp hsame "os_name"
    rw [hrun] at hafter
    rw [hbefore, hafter] at hname
    cases hname

end Faithful

end Advisor.Tasks
