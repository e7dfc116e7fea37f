import Advisor.Python.Dict

/-! Compiling the rule content of a repository. One walk over its directories reads the defaults of each plugin where
it stands, and the directories of rules take those that were read last. -/

namespace Advisor.Compile

open Python Relational

inductive Raised where
  | assertionError
  | typeError
  | osError
  | other
  deriving DecidableEq

abbrev File := Except Raised String

/-- The subdirectories of a directory, in the order in which `walk` lists them. -/
inductive Subdirs where
  | none
  | next (name : String) (files : List (String × File)) (dirs rest : Subdirs)

def Subdirs.names : Subdirs → List String
  | none => []
  | next name _ _ rest => name :: rest.names

structure Directory where
  path : String
  files : List (String × File)
  dirs : List String

def join (path name : String) : String :=
  if path.isEmpty || path.toList.getLast? = some '/' then path ++ name else path ++ "/" ++ name

def Subdirs.walk (parent : String) : Subdirs → List Directory
  | none => []
  | next name files dirs rest =>
    ⟨join parent name, files, dirs.names⟩ :: (dirs.walk (join parent name) ++ rest.walk parent)

/-- What the content directory holds. -/
structure Tree where
  files : List (String × File)
  dirs : Subdirs

def Tree.walk (tree : Tree) (contentDir : String) : List Directory :=
  ⟨contentDir, tree.files, tree.dirs.names⟩ :: tree.dirs.walk contentDir

namespace Directory

variable (directory : Directory)

def holds (name : String) : Bool := (directory.files.lookup name).isSome

/-- `path.exists`, which a subdirectory answers too. -/
def has (name : String) : Bool := directory.holds name || directory.dirs.contains name

def read (name : String) : Except Raised String := (directory.files.lookup name).getD (.error .osError)

def isPlugin : Bool := directory.holds "plugin.yaml"

def isRule : Bool := !directory.isPlugin && directory.holds "metadata.yaml"

theorem isPlugin_of_isRule {directory : Directory} (h : directory.isRule = true) : directory.isPlugin = false := by
  unfold isRule at h
  cases hplugin : directory.isPlugin with
  | false => rfl
  | true =>
    rw [hplugin] at h
    cases h

end Directory

def contentFields : List String := ["generic", "more_info", "reason", "resolution", "summary"]

def getFieldContent (directory : Directory) (field : String) : Except Raised (Option String) :=
  if directory.has (field ++ ".md") then (directory.read (field ++ ".md")).map some else .ok none

/-- A key that is not text stands for all that are equal to it. -/
inductive Key (κ : Type) where
  | text (text : String)
  | other (key : κ)
  deriving DecidableEq

inductive Value (α : Type) where
  | text (text : String)
  | other (value : α)
  deriving DecidableEq

abbrev Content (κ α : Type) := Dict (Key κ) (Value α)

/-- What `safe_load` reads: a mapping, or else something that is true or not, of which `dict` makes pairs or raises. -/
inductive Document (κ α : Type) where
  | mapping (data : Content κ α)
  | other (truthy : Bool) (pairs : Except Raised (List (Key κ × Value α)))

variable {κ α : Type} [DecidableEq κ]

def Content.updateWith (content : Content κ α) (pairs : List (Key κ × Value α)) : Content κ α :=
  pairs.foldl (fun content e => content.set e.1 e.2) content

namespace Document

def truthy : Document κ α → Bool
  | mapping data => !data.rows.isEmpty
  | other truthy _ => truthy

def pairs : Document κ α → Except Raised (List (Key κ × Value α))
  | mapping data => .ok data.rows
  | other _ pairs => pairs

def toDict : Document κ α → Except Raised (Content κ α)
  | mapping data => .ok data
  | other _ pairs => pairs.map Dict.ofEntries

def setItem (key : String) (text : String) : Document κ α → Except Raised (Document κ α)
  | mapping data => .ok (mapping (data.set (.text key) (.text text)))
  | other _ _ => .error .typeError

end Document

def addMarkdownField (directory : Directory) (baseData : Document κ α) (field : String) :
    Except Raised (Document κ α) := do
  match ← getFieldContent directory field with
  | none => return baseData
  | some content => baseData.setItem field content

/-- The fields are a set: in whatever order they come, they end up as the same items. -/
def addMarkdownFields (baseData : Document κ α) (directory : Directory) : Except Raised (Document κ α) :=
  contentFields.foldlM (addMarkdownField directory) baseData

section Generate

variable (safeLoad : String → Except Raised (Document κ α))

def readPluginContent (directory : Directory) : Except Raised (Document κ α) := do
  let pluginData ← safeLoad (← directory.read "plugin.yaml")
  addMarkdownFields pluginData directory

def readRuleContent (pluginData : Document κ α) (directory : Directory) : Except Raised (Document κ α) := do
  let ruleContent ← pluginData.toDict
  let metadata ← safeLoad (← directory.read "metadata.yaml")
  if !metadata.truthy then throw .assertionError
  let ruleContent := ruleContent.updateWith (← metadata.pairs)
  addMarkdownFields (.mapping ruleContent) directory

end Generate

section Paths

def basename (path : String) : String :=
  String.ofList (path.toList.reverse.takeWhile (· ≠ '/')).reverse

def dirname (path : String) : String :=
  let head := path.toList.reverse.dropWhile (· ≠ '/')
  String.ofList (if head.all (· = '/') then head else head.dropWhile (· = '/')).reverse

def rulePathToId (rulePath : String) : String := basename (dirname rulePath) ++ "|" ++ basename rulePath

def startswith (text part : String) : Bool := part.toList.isPrefixOf text.toList

end Paths

/-- Where the walk stands: the variables of the loop. -/
structure Progress (κ α : Type) [DecidableEq κ] where
  allRuleData : List (Document κ α) := []
  thisPluginDir : String := "no directory"
  pluginData : Document κ α := .mapping Table.empty

section Generate

variable (safeLoad : String → Except Raised (Document κ α))

def visit (progress : Progress κ α) (directory : Directory) : Except Raised (Progress κ α) := do
  if directory.isPlugin then
    let pluginData ← readPluginContent safeLoad directory
    return { progress with thisPluginDir := directory.path, pluginData }
  else if directory.holds "metadata.yaml" then
    if !startswith directory.path progress.thisPluginDir then throw .assertionError
    let ruleContent ← readRuleContent safeLoad progress.pluginData directory
    let ruleContent ← ruleContent.setItem "rule_id" (rulePathToId directory.path)
    return { progress with allRuleData := progress.allRuleData ++ [ruleContent] }
  else return progress

def generateRuleContent (tree : Tree) (contentDir : String) : Except Raised (List (Document κ α)) :=
  ((tree.walk contentDir).foldlM (visit safeLoad) {}).map (·.allRuleData)

end Generate

section Fields

variable (safeLoad : String → Except Raised (Document κ α))

def Directory.markdown? (directory : Directory) (field : String) : Option String :=
  (directory.files.lookup (field ++ ".md")).bind (·.toOption)

def Directory.markdownOf (directory : Directory) (fields : List String) : Key κ → Option (Value α)
  | .text field => if field ∈ fields then (directory.markdown? field).map .text else none
  | .other _ => none

def Document.value? (document : Document κ α) (key : Key κ) : Option (Value α) :=
  (document.toDict.toOption.bind (·.get? key)).map Prod.snd

def Directory.yaml? (directory : Directory) (name : String) (key : Key κ) : Option (Value α) :=
  ((directory.read name).bind safeLoad).toOption.bind (·.value? key)

/-- A Markdown file goes before the YAML file. -/
def Directory.field? (directory : Directory) (name : String) (key : Key κ) : Option (Value α) :=
  (directory.markdownOf contentFields key).or (directory.yaml? safeLoad name key)

end Fields

section Reading

theorem value?_setItem {document document' : Document κ α} {field text : String}
    (h : document.setItem field text = .ok document') (key : Key κ) :
    document'.value? key = if .text field = key then some (.text text) else document.value? key := by
  cases document with
  | other truthy pairs => cases h
  | mapping data =>
    obtain rfl := Except.ok.inj h
    show ((data.set (.text field) (.text text)).get? key).map Prod.snd = _
    rw [Dict.get?_set]
    split_ifs
    · rfl
    · rfl

theorem getFieldContent_ok {directory : Directory} {field : String} {content : Option String}
    (h : getFieldContent directory field = .ok content) :
    content = directory.markdown? field := by
  unfold getFieldContent at h
  unfold Directory.markdown?
  cases hlookup : directory.files.lookup (field ++ ".md") with
  | none =>
    split_ifs at h
    · rw [Directory.read, hlookup] at h
      cases h
    · exact (Except.ok.inj h).symm
  | some file =>
    have hhas : directory.has (field ++ ".md") = true := by simp [Directory.has, Directory.holds, hlookup]
    rw [if_pos hhas, Directory.read, hlookup, Option.getD_some] at h
    obtain ⟨text, rfl, rfl⟩ := map_eq_ok.mp h
    rfl

omit [DecidableEq κ] in
theorem markdownOf_cons (directory : Directory) (field : String) (fields : List String) (key : Key κ) :
    (directory.markdownOf (field :: fields) key : Option (Value α)) =
      (directory.markdownOf fields key).or (directory.markdownOf [field] key) := by
  cases key with
  | other key => rfl
  | text name =>
    simp only [Directory.markdownOf, List.mem_cons, List.not_mem_nil, or_false]
    by_cases hmem : name ∈ fields
    · rw [if_pos (Or.inr hmem), if_pos hmem]
      split_ifs
      · cases directory.markdown? name <;> rfl
      · rw [Option.or_none]
    · simp only [hmem, or_false, if_false, Option.none_or]

theorem value?_addMarkdownField {baseData document : Document κ α} {directory : Directory} {field : String}
    (h : addMarkdownField directory baseData field = .ok document) (key : Key κ) :
    document.value? key = (directory.markdownOf [field] key).or (baseData.value? key) := by
  obtain ⟨content, hcontent, h⟩ := bind_eq_ok.mp h
  have hfile := getFieldContent_ok hcontent
  have hother {name : String} (hname : field ≠ name) :
      (directory.markdownOf [field] (.text name : Key κ) : Option (Value α)) = none := by
    simp [Directory.markdownOf, hname.symm]
  cases content with
  | none =>
    obtain rfl := Except.ok.inj h
    cases key with
    | other key => rfl
    | text name =>
      by_cases hname : field = name
      · subst hname
        simp [Directory.markdownOf, ← hfile]
      · rw [hother hname, Option.none_or]
  | some text =>
    rw [value?_setItem h]
    cases key with
    | other key => rfl
    | text name =>
      by_cases hname : field = name
      · subst hname
        simp [Directory.markdownOf, ← hfile]
      · rw [hother hname, if_neg (by simpa using hname), Option.none_or]

theorem value?_addFields {fields : List String} {baseData document : Document κ α} {directory : Directory}
    (h : fields.foldlM (addMarkdownField directory) baseData = .ok document) (key : Key κ) :
    document.value? key = (directory.markdownOf fields key).or (baseData.value? key) := by
  induction fields generalizing baseData with
  | nil =>
    obtain rfl := Except.ok.inj h
    cases key <;> rfl
  | cons field fields ih =>
    rw [List.foldlM_cons] at h
    obtain ⟨next, hnext, h⟩ := bind_eq_ok.mp h
    rw [ih h, value?_addMarkdownField hnext, markdownOf_cons directory field fields, Option.or_assoc]

theorem mapping_addFields {fields : List String} {data : Content κ α} {document : Document κ α}
    {directory : Directory} (h : fields.foldlM (addMarkdownField directory) (.mapping data) = .ok document) :
    ∃ data', document = .mapping data' := by
  induction fields generalizing data with
  | nil =>
    obtain rfl := Except.ok.inj h
    exact ⟨data, rfl⟩
  | cons field fields ih =>
    rw [List.foldlM_cons] at h
    obtain ⟨next, hnext, h⟩ := bind_eq_ok.mp h
    obtain ⟨content, -, hset⟩ := bind_eq_ok.mp hnext
    cases content with
    | none =>
      obtain rfl := Except.ok.inj hset
      exact ih h
    | some text =>
      obtain rfl := Except.ok.inj hset
      exact ih h

theorem get?_updateWith (content : Content κ α) (pairs : List (Key κ × Value α)) (key : Key κ) :
    (content.updateWith pairs).get? key = ((Dict.ofEntries pairs).get? key).or (content.get? key) := by
  induction pairs using List.reverseRecOn with
  | nil => rfl
  | append_singleton pairs e ih =>
    have hconcat : content.updateWith (pairs ++ [e]) = (content.updateWith pairs).set e.1 e.2 := by
      simp [Content.updateWith]
    rw [hconcat, Dict.get?_set, ih, Dict.ofEntries_concat, Dict.get?_set]
    split_ifs
    · rfl
    · rfl

theorem get?_rows (data : Content κ α) (key : Key κ) : (Dict.ofEntries data.rows).get? key = data.get? key := by
  have hmem (e : Key κ × Value α) : e ∈ Dict.ofEntries data.rows ↔ e ∈ data := by
    constructor
    · exact Dict.mem_of_mem_ofEntries
    · intro he
      obtain ⟨a, hget, ha⟩ := Dict.exists_get?_ofEntries he
      have hsame : (e.1, a) = e := data.key_injOn ha he rfl
      rw [hsame] at hget
      exact Table.mem_iff_get?.mpr hget
  exact Table.same_iff_get?.mp hmem key

theorem value?_pairs {document : Document κ α} {pairs : List (Key κ × Value α)} (h : document.pairs = .ok pairs)
    (key : Key κ) : document.value? key = ((Dict.ofEntries pairs).get? key).map Prod.snd := by
  cases document with
  | mapping data =>
    obtain rfl := Except.ok.inj h
    rw [get?_rows]
    rfl
  | other truthy read =>
    obtain rfl : read = .ok pairs := h
    rfl

variable {safeLoad : String → Except Raised (Document κ α)} {directory : Directory}

theorem yaml?_of_ok {name text : String} {document : Document κ α} (hread : directory.read name = .ok text)
    (hload : safeLoad text = .ok document) (key : Key κ) :
    directory.yaml? safeLoad name key = document.value? key := by
  have hboth : (directory.read name).bind safeLoad = .ok document := by rw [hread]; exact hload
  rw [Directory.yaml?, hboth]
  rfl

theorem value?_readPluginContent {pluginData : Document κ α}
    (h : readPluginContent safeLoad directory = .ok pluginData) (key : Key κ) :
    pluginData.value? key = directory.field? safeLoad "plugin.yaml" key := by
  obtain ⟨text, hread, h⟩ := bind_eq_ok.mp h
  obtain ⟨document, hload, h⟩ := bind_eq_ok.mp h
  rw [value?_addFields h, Directory.field?, yaml?_of_ok hread hload]

theorem value?_readRuleContent {pluginData ruleContent : Document κ α}
    (h : readRuleContent safeLoad pluginData directory = .ok ruleContent) (key : Key κ) :
    ruleContent.value? key =
      (directory.field? safeLoad "metadata.yaml" key).or (pluginData.value? key) := by
  obtain ⟨defaults, hdefaults, h⟩ := bind_eq_ok.mp h
  obtain ⟨text, hread, h⟩ := bind_eq_ok.mp h
  obtain ⟨metadata, hload, h⟩ := bind_eq_ok.mp h
  cases htruthy : metadata.truthy with
  | false =>
    rw [htruthy] at h
    cases h
  | true =>
    rw [htruthy] at h
    obtain ⟨pairs, hpairs, h⟩ := bind_eq_ok.mp h
    have hvalue : (Document.mapping (defaults.updateWith pairs)).value? key =
        (metadata.value? key).or (pluginData.value? key) := by
      show ((defaults.updateWith pairs).get? key).map Prod.snd = _
      rw [get?_updateWith, value?_pairs hpairs, Document.value?, hdefaults]
      cases (Dict.ofEntries pairs).get? key <;> rfl
    rw [value?_addFields h, hvalue, Directory.field?, yaml?_of_ok hread hload, Option.or_assoc]

theorem mapping_readRuleContent {pluginData ruleContent : Document κ α}
    (h : readRuleContent safeLoad pluginData directory = .ok ruleContent) : ∃ data, ruleContent = .mapping data := by
  obtain ⟨defaults, -, h⟩ := bind_eq_ok.mp h
  obtain ⟨text, -, h⟩ := bind_eq_ok.mp h
  obtain ⟨metadata, -, h⟩ := bind_eq_ok.mp h
  cases htruthy : metadata.truthy with
  | false =>
    rw [htruthy] at h
    cases h
  | true =>
    rw [htruthy] at h
    obtain ⟨pairs, -, h⟩ := bind_eq_ok.mp h
    exact mapping_addFields h

end Reading

end Advisor.Compile
