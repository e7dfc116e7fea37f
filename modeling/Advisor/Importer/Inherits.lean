import Advisor.Importer.Compile
import Mathlib.Data.List.Infix

/-! When the fields that a rule does not have itself are those of the plugin it lies in: the walk knows the plugin it
read last, and only compares the texts of the paths. -/

namespace Advisor.Compile

open Python Relational

variable {κ α : Type} [DecidableEq κ]

section Spec

variable (safeLoad : String → Except Raised (Document κ α))

/-- A directory and the nearest one with a plugin file, at it or above it. -/
structure Scope where
  directory : Directory
  enclosing : Option Directory

def Directory.scope (directory : Directory) (enclosing : Option Directory) : Option Directory :=
  if directory.isPlugin then some directory else enclosing

def Subdirs.scopes (parent : String) (enclosing : Option Directory) : Subdirs → List Scope
  | none => []
  | next name files dirs rest =>
    let directory : Directory := ⟨join parent name, files, dirs.names⟩
    ⟨directory, directory.scope enclosing⟩ ::
      (dirs.scopes directory.path (directory.scope enclosing) ++ rest.scopes parent enclosing)

def Tree.scopes (tree : Tree) (contentDir : String) : List Scope :=
  let directory : Directory := ⟨contentDir, tree.files, tree.dirs.names⟩
  ⟨directory, directory.scope none⟩ :: tree.dirs.scopes contentDir (directory.scope none)

/-- The fields of a rule are its own, and else those of the plugin it lies in. -/
def Inherits (entry : Document κ α) (rule : Scope) : Prop :=
  ∃ plugin, rule.enclosing = some plugin ∧ ∀ key ≠ .text "rule_id",
    entry.value? key =
      (rule.directory.field? safeLoad "metadata.yaml" key).or (plugin.field? safeLoad "plugin.yaml" key)

/-- If the compilation returns, it has one entry for each directory of a rule. -/
def InheritsOwn (tree : Tree) (contentDir : String) : Prop :=
  ∀ entries, generateRuleContent safeLoad tree contentDir = .ok entries →
    List.Forall₂ (Inherits safeLoad) entries ((tree.scopes contentDir).filter (·.directory.isRule))

/-- A directory with the plugin that was read last before it, or at it. -/
structure Placed extends Scope where
  last : Option Directory

def place (last : Option Directory) : List Scope → List Placed
  | [] => []
  | scope :: rest =>
    ⟨scope, scope.directory.scope last⟩ :: place (scope.directory.scope last) rest

def Tree.placed (tree : Tree) (contentDir : String) : List Placed := place none (tree.scopes contentDir)

def lastPath (last : Option Directory) : String := (last.map (·.path)).getD "no directory"

def lastData (last : Option Directory) : Except Raised (Document κ α) :=
  match last with
  | none => .ok (.mapping Table.empty)
  | some plugin => readPluginContent safeLoad plugin

namespace Placed

variable (placed : Placed)

def readable : Bool :=
  if placed.directory.isPlugin then isOk (readPluginContent safeLoad placed.directory)
  else if placed.directory.isRule then
    startswith placed.directory.path (lastPath placed.last) &&
      isOk ((lastData safeLoad placed.last).bind fun pluginData => readRuleContent safeLoad pluginData placed.directory)
  else true

/-- The rule lies in a plugin, and what it does not have itself that plugin and the last one give alike. -/
def SameDefaults : Prop :=
  ∃ plugin, placed.enclosing = some plugin ∧ ∀ key ≠ .text "rule_id",
    placed.directory.field? safeLoad "metadata.yaml" key = none →
      placed.last.bind (·.field? safeLoad "plugin.yaml" key) = plugin.field? safeLoad "plugin.yaml" key

end Placed

/-- What the tree needs for `InheritsOwn`: a directory the compilation does not get past, or the same defaults for
each rule. -/
def OwnDefaults (tree : Tree) (contentDir : String) : Prop :=
  (∃ placed ∈ tree.placed contentDir, placed.readable safeLoad = false) ∨
    ∀ placed ∈ tree.placed contentDir, placed.directory.isRule = true → placed.SameDefaults safeLoad

end Spec

section Walking

variable (safeLoad : String → Except Raised (Document κ α))

def Takes (entry : Document κ α) (placed : Placed) : Prop :=
  ∀ key ≠ .text "rule_id", entry.value? key =
    (placed.directory.field? safeLoad "metadata.yaml" key).or (placed.last.bind (·.field? safeLoad "plugin.yaml" key))

/-- The variables of the loop are those of the plugin read last. -/
structure Progress.At (progress : Progress κ α) (last : Option Directory) : Prop where
  path : progress.thisPluginDir = lastPath last
  data : lastData safeLoad last = .ok progress.pluginData

variable {safeLoad} {last : Option Directory}

theorem Progress.At.value? {progress : Progress κ α} (h : progress.At safeLoad last) (key : Key κ) :
    progress.pluginData.value? key = last.bind (·.field? safeLoad "plugin.yaml" key) := by
  cases last with
  | none =>
    have hdata : Document.mapping Table.empty = progress.pluginData := Except.ok.inj h.data
    rw [← hdata]
    rfl
  | some plugin => exact value?_readPluginContent h.data key

/-- One directory: the variables are those of the plugin read last, and an entry is there for a rule. -/
theorem visit_ok {progress progress' : Progress κ α} {scope : Scope} (hat : progress.At safeLoad last)
    (h : visit safeLoad progress scope.directory = .ok progress') :
    (⟨scope, scope.directory.scope last⟩ : Placed).readable safeLoad = true ∧
      progress'.At safeLoad (scope.directory.scope last) ∧
        ∃ entries, progress'.allRuleData = progress.allRuleData ++ entries ∧
          List.Forall₂ (Takes safeLoad) entries
            ([⟨scope, scope.directory.scope last⟩].filter fun placed : Placed => placed.directory.isRule) := by
  unfold visit at h
  unfold Placed.readable
  cases hplugin : scope.directory.isPlugin with
  | true =>
    rw [hplugin, if_pos rfl] at h
    obtain ⟨pluginData, hread, h⟩ := bind_eq_ok.mp h
    obtain rfl := Except.ok.inj h
    have hrule : scope.directory.isRule = false := by simp [Directory.isRule, hplugin]
    have hscope : scope.directory.scope last = some scope.directory := by rw [Directory.scope, hplugin]; rfl
    refine ⟨?_, ?_, [], ?_, ?_⟩
    · rw [if_pos rfl]
      exact isOk_iff.mpr ⟨pluginData, hread⟩
    · rw [hscope]
      exact ⟨rfl, hread⟩
    · exact (List.append_nil _).symm
    · simp [hrule]
  | false =>
    rw [hplugin, if_neg Bool.false_ne_true] at h
    have hscope : scope.directory.scope last = last := by rw [Directory.scope, hplugin]; rfl
    have hrule : scope.directory.isRule = scope.directory.holds "metadata.yaml" := by simp [Directory.isRule, hplugin]
    rw [hscope, if_neg Bool.false_ne_true, hrule]
    cases hmetadata : scope.directory.holds "metadata.yaml" with
    | false =>
      rw [hmetadata] at h
      obtain rfl := Except.ok.inj h
      exact ⟨rfl, hat, [], (List.append_nil _).symm, by simp [hrule, hmetadata]⟩
    | true =>
      rw [hmetadata, if_pos rfl] at h
      cases hbegins : startswith scope.directory.path progress.thisPluginDir with
      | false =>
        rw [hbegins] at h
        cases h
      | true =>
        rw [hbegins] at h
        obtain ⟨ruleContent, hread, h⟩ := bind_eq_ok.mp h
        obtain ⟨entry, hset, h⟩ := bind_eq_ok.mp h
        obtain rfl := Except.ok.inj h
        refine ⟨?_, ⟨hat.path, hat.data⟩, [entry], rfl, ?_⟩
        · rw [if_pos rfl, Bool.and_eq_true, ← hat.path, hat.data]
          exact ⟨hbegins, isOk_iff.mpr ⟨ruleContent, hread⟩⟩
        · rw [List.filter_cons_of_pos (by rw [hrule, hmetadata]), List.filter_nil]
          refine .cons (fun key hkey => ?_) .nil
          rw [value?_setItem hset, if_neg hkey.symm, value?_readRuleContent hread, hat.value?]

theorem visit_of_readable {progress : Progress κ α} {scope : Scope} (hat : progress.At safeLoad last)
    (h : (⟨scope, scope.directory.scope last⟩ : Placed).readable safeLoad = true) :
    ∃ progress', visit safeLoad progress scope.directory = .ok progress' := by
  unfold Placed.readable at h
  unfold visit
  cases hplugin : scope.directory.isPlugin with
  | true =>
    rw [hplugin, if_pos rfl] at h
    obtain ⟨pluginData, hread⟩ := isOk_iff.mp h
    exact ⟨{ progress with thisPluginDir := scope.directory.path, pluginData }, by rw [if_pos rfl, hread]; rfl⟩
  | false =>
    have hscope : scope.directory.scope last = last := by rw [Directory.scope, hplugin]; rfl
    have hrule : scope.directory.isRule = scope.directory.holds "metadata.yaml" := by simp [Directory.isRule, hplugin]
    rw [hplugin, if_neg Bool.false_ne_true, hscope, hrule] at h
    rw [if_neg Bool.false_ne_true]
    cases hmetadata : scope.directory.holds "metadata.yaml" with
    | false => exact ⟨progress, rfl⟩
    | true =>
      rw [hmetadata, if_pos rfl, Bool.and_eq_true, ← hat.path, hat.data] at h
      obtain ⟨ruleContent, hread⟩ := isOk_iff.mp h.2
      obtain ⟨data, rfl⟩ := mapping_readRuleContent hread
      refine ⟨{ progress with allRuleData := progress.allRuleData ++
        [.mapping (data.set (.text "rule_id") (.text (rulePathToId scope.directory.path)))] }, ?_⟩
      rw [if_pos rfl, h.1]
      have hread' : readRuleContent safeLoad progress.pluginData scope.directory = .ok (.mapping data) := hread
      rw [hread']
      rfl

theorem walk_ok {scopes : List Scope} {progress progress' : Progress κ α} (hat : progress.At safeLoad last)
    (h : (scopes.map (·.directory)).foldlM (visit safeLoad) progress = .ok progress') :
    (∀ placed ∈ place last scopes, placed.readable safeLoad = true) ∧
      ∃ entries, progress'.allRuleData = progress.allRuleData ++ entries ∧
        List.Forall₂ (Takes safeLoad) entries
          ((place last scopes).filter fun placed : Placed => placed.directory.isRule) := by
  induction scopes generalizing last progress with
  | nil =>
    obtain rfl := Except.ok.inj h
    exact ⟨by simp [place], [], (List.append_nil _).symm, .nil⟩
  | cons scope rest ih =>
    rw [List.map_cons, List.foldlM_cons] at h
    obtain ⟨next, hnext, h⟩ := bind_eq_ok.mp h
    obtain ⟨hreadable, hnextAt, first, hfirst, htakes⟩ := visit_ok hat hnext
    obtain ⟨hreadables, entries, hentries, hrest⟩ := ih hnextAt h
    refine ⟨?_, first ++ entries, ?_, ?_⟩
    · rintro placed (_ | ⟨_, hmem⟩)
      · exact hreadable
      · exact hreadables placed hmem
    · rw [hentries, hfirst, List.append_assoc]
    · rw [place, ← List.singleton_append, List.filter_append]
      exact List.rel_append htakes hrest

theorem walk_of_readable {scopes : List Scope} {progress : Progress κ α} (hat : progress.At safeLoad last)
    (h : ∀ placed ∈ place last scopes, placed.readable safeLoad = true) :
    ∃ progress', (scopes.map (·.directory)).foldlM (visit safeLoad) progress = .ok progress' := by
  induction scopes generalizing last progress with
  | nil => exact ⟨progress, rfl⟩
  | cons scope rest ih =>
    obtain ⟨next, hnext⟩ := visit_of_readable hat (h _ List.mem_cons_self)
    obtain ⟨-, hnextAt, -⟩ := visit_ok hat hnext
    obtain ⟨progress', hrest⟩ := ih hnextAt fun placed hmem => h placed (List.mem_cons_of_mem _ hmem)
    exact ⟨progress', by rw [List.map_cons, List.foldlM_cons, hnext]; exact hrest⟩

theorem map_scopes (dirs : Subdirs) (parent : String) (enclosing : Option Directory) :
    (dirs.scopes parent enclosing).map (·.directory) = dirs.walk parent := by
  induction dirs generalizing parent enclosing with
  | none => rfl
  | next name files dirs rest ihdirs ihrest =>
    rw [Subdirs.scopes, Subdirs.walk, List.map_cons, List.map_append, ihdirs, ihrest]

theorem Tree.map_scopes (tree : Tree) (contentDir : String) :
    (tree.scopes contentDir).map (·.directory) = tree.walk contentDir := by
  rw [Tree.scopes, Tree.walk, List.map_cons, Compile.map_scopes]

theorem map_place (last : Option Directory) (scopes : List Scope) :
    (place last scopes).map (·.toScope) = scopes := by
  induction scopes generalizing last with
  | nil => rfl
  | cons scope rest ih => rw [place, List.map_cons, ih]

/-- The compilation returns exactly if it gets past each directory; the fields of a rule are then its own and those of
the plugin read last. -/
theorem generate_ok {tree : Tree} {contentDir : String} {entries : List (Document κ α)}
    (h : generateRuleContent safeLoad tree contentDir = .ok entries) :
    (∀ placed ∈ tree.placed contentDir, placed.readable safeLoad = true) ∧
      List.Forall₂ (Takes safeLoad) entries
        ((tree.placed contentDir).filter fun placed : Placed => placed.directory.isRule) := by
  obtain ⟨progress, hwalk, rfl⟩ := map_eq_ok.mp h
  rw [← Tree.map_scopes] at hwalk
  have hstart : ({} : Progress κ α).At safeLoad none := ⟨rfl, rfl⟩
  obtain ⟨hreadable, entries, hentries, htakes⟩ := walk_ok hstart hwalk
  refine ⟨hreadable, ?_⟩
  rw [hentries]
  exact htakes

theorem generate_of_readable {tree : Tree} {contentDir : String}
    (h : ∀ placed ∈ tree.placed contentDir, placed.readable safeLoad = true) :
    ∃ entries, generateRuleContent safeLoad tree contentDir = .ok entries := by
  have hstart : ({} : Progress κ α).At safeLoad none := ⟨rfl, rfl⟩
  obtain ⟨progress, hwalk⟩ := walk_of_readable hstart h
  rw [Tree.map_scopes] at hwalk
  exact ⟨progress.allRuleData, map_eq_ok.mpr ⟨progress, hwalk, rfl⟩⟩

/-- What a rule takes is its own plugin's exactly if both plugins give the same defaults. -/
theorem inherits_iff {entry : Document κ α} {placed : Placed} (h : Takes safeLoad entry placed) :
    Inherits safeLoad entry placed.toScope ↔ placed.SameDefaults safeLoad := by
  refine exists_congr fun plugin => and_congr_right fun _ => forall₂_congr fun key hkey => ?_
  rw [h key hkey]
  cases placed.directory.field? safeLoad "metadata.yaml" key with
  | none => simp
  | some value => simp

end Walking

section Defaults

variable {safeLoad : String → Except Raised (Document κ α)} {tree : Tree} {contentDir : String}

theorem filter_scopes (tree : Tree) (contentDir : String) :
    (tree.scopes contentDir).filter (·.directory.isRule) =
      ((tree.placed contentDir).filter fun placed : Placed => placed.directory.isRule).map (·.toScope) := by
  conv_lhs => rw [← map_place none (tree.scopes contentDir)]
  rw [List.filter_map]
  rfl

theorem inheritsOwn_of_sameDefaults
    (h : ∀ placed ∈ tree.placed contentDir, placed.readable safeLoad = true → placed.directory.isRule = true →
      placed.SameDefaults safeLoad) : InheritsOwn safeLoad tree contentDir := by
  intro entries hentries
  obtain ⟨hreadable, htakes⟩ := generate_ok hentries
  rw [filter_scopes, List.forall₂_map_right_iff]
  have hsame : ∀ placed ∈ (tree.placed contentDir).filter fun placed : Placed => placed.directory.isRule,
      placed.SameDefaults safeLoad := by
    intro placed hmem
    obtain ⟨hplaced, hrule⟩ := List.mem_filter.mp hmem
    exact h placed hplaced (hreadable placed hplaced) hrule
  have hboth := (List.forall₂_and_left _ _).mpr ⟨hsame, htakes.flip⟩
  exact (hboth.imp fun placed entry hp => (inherits_iff hp.2).mpr hp.1).flip

theorem sameDefaults_of_inheritsOwn (h : InheritsOwn safeLoad tree contentDir)
    (hreadable : ∀ placed ∈ tree.placed contentDir, placed.readable safeLoad = true) {placed : Placed}
    (hmem : placed ∈ tree.placed contentDir) (hrule : placed.directory.isRule = true) :
    placed.SameDefaults safeLoad := by
  obtain ⟨entries, hentries⟩ := generate_of_readable hreadable
  have hinherits := h entries hentries
  rw [filter_scopes, List.forall₂_map_right_iff] at hinherits
  have hsame := hinherits.flip.mp (fun placed entry hi ht => And.intro ((inherits_iff ht).mp hi) ht)
    (generate_ok hentries).2.flip
  exact ((List.forall₂_and_left _ _).mp hsame).1 placed (List.mem_filter.mpr ⟨hmem, hrule⟩)

end Defaults

theorem inheritsOwn_iff (safeLoad : String → Except Raised (Document κ α)) (tree : Tree) (contentDir : String) :
    InheritsOwn safeLoad tree contentDir ↔ OwnDefaults safeLoad tree contentDir := by
  constructor
  · intro h
    by_cases hreadable : ∀ placed ∈ tree.placed contentDir, placed.readable safeLoad = true
    · exact Or.inr fun placed hmem hrule => sameDefaults_of_inheritsOwn h hreadable hmem hrule
    · push Not at hreadable
      obtain ⟨placed, hmem, hfails⟩ := hreadable
      exact Or.inl ⟨placed, hmem, by simpa using hfails⟩
  · rintro (⟨placed, hmem, hfails⟩ | hsame)
    · intro entries hentries
      rw [(generate_ok hentries).1 placed hmem] at hfails
      cases hfails
    · exact inheritsOwn_of_sameDefaults fun placed hmem _ hrule => hsame placed hmem hrule

section Names

/-- No name has a slash, and none starts that of a later sibling. -/
def Subdirs.Clear : Subdirs → Prop
  | none => True
  | next name _ dirs rest =>
    (name ≠ "" ∧ '/' ∉ name.toList) ∧ (∀ other ∈ rest.names, ¬ name.toList <+: other.toList) ∧ dirs.Clear ∧ rest.Clear

def joined (path : String) : List Char :=
  if path.isEmpty || path.toList.getLast? = some '/' then path.toList else path.toList ++ ['/']

theorem toList_join (path name : String) : (join path name).toList = joined path ++ name.toList := by
  unfold join joined
  split_ifs
  · exact String.toList_append
  · simp

theorem joined_join {path name : String} (hname : name ≠ "" ∧ '/' ∉ name.toList) :
    joined (join path name) = (join path name).toList ++ ['/'] := by
  have hne : name.toList ≠ [] := by simpa using hname.1
  unfold joined
  refine if_neg ?_
  rw [Bool.or_eq_true, decide_eq_true_eq, not_or]
  constructor
  · rw [String.isEmpty_iff, ← String.toList_inj, toList_join]
    simp [hne]
  · rw [toList_join, List.getLast?_append_of_ne_nil _ hne]
    intro hlast
    exact hname.2 (List.mem_of_getLast? hlast)

theorem path_of_mem {parent name : String} (hname : name ≠ "" ∧ '/' ∉ name.toList) {path : String} {inner : List Char}
    (h : path.toList = joined (join parent name) ++ inner) :
    path.toList = joined parent ++ (name.toList ++ '/' :: inner) := by
  rw [h, joined_join hname, toList_join]
  simp

theorem path_of_mem_walk {dirs : Subdirs} (hclear : dirs.Clear) {parent : String} {directory : Directory}
    (h : directory ∈ dirs.walk parent) :
    ∃ name ∈ dirs.names, ∃ tail, directory.path.toList = joined parent ++ (name.toList ++ tail) ∧
      (tail = [] ∨ tail.head? = some '/') := by
  induction dirs generalizing parent with
  | none => cases h
  | next name files dirs rest ihdirs ihrest =>
    obtain ⟨hname, -, hdirs, hrest⟩ := hclear
    rw [Subdirs.walk, List.mem_cons, List.mem_append] at h
    rcases h with rfl | h | h
    · exact ⟨name, List.mem_cons_self, [], by rw [toList_join, List.append_nil], Or.inl rfl⟩
    · obtain ⟨inner, -, tail, hpath, -⟩ := ihdirs hdirs h
      exact ⟨name, List.mem_cons_self, '/' :: (inner.toList ++ tail), path_of_mem hname hpath, Or.inr rfl⟩
    · obtain ⟨other, hother, htail⟩ := ihrest hrest h
      exact ⟨other, List.mem_cons_of_mem _ hother, htail⟩

theorem prefix_of_prefix_append {name other tail : List Char} (hname : '/' ∉ name)
    (htail : tail = [] ∨ tail.head? = some '/') (h : name <+: other ++ tail) : name <+: other := by
  rcases List.prefix_or_prefix_of_prefix h (List.prefix_append other tail) with hbegins | ⟨middle, rfl⟩
  · exact hbegins
  · rw [List.prefix_append_right_inj] at h
    cases middle with
    | nil => simp
    | cons c middle =>
      obtain ⟨rest, rfl⟩ := h
      rcases htail with hnil | hslash
      · cases hnil
      · obtain rfl : c = '/' := Option.some.inj hslash
        exact absurd (List.mem_append_right _ List.mem_cons_self) hname

def lastOf (last : Option Directory) (scopes : List Scope) : Option Directory :=
  scopes.foldl (fun last scope => scope.directory.scope last) last

theorem place_append (last : Option Directory) (scopes scopes' : List Scope) :
    place last (scopes ++ scopes') = place last scopes ++ place (lastOf last scopes) scopes' := by
  induction scopes generalizing last with
  | nil => rfl
  | cons scope rest ih => rw [List.cons_append, place, place, ih, List.cons_append]; rfl

theorem lastOf_cases (last : Option Directory) (scopes : List Scope) :
    lastOf last scopes = last ∨ ∃ plugin ∈ scopes.map (·.directory), lastOf last scopes = some plugin := by
  induction scopes generalizing last with
  | nil => exact Or.inl rfl
  | cons scope rest ih =>
    show lastOf (scope.directory.scope last) rest = last ∨ ∃ plugin ∈ _, lastOf (scope.directory.scope last) rest = _
    rcases ih (scope.directory.scope last) with hsame | ⟨plugin, hmem, hlast⟩
    · rw [hsame]
      unfold Directory.scope
      split_ifs
      · exact Or.inr ⟨scope.directory, List.mem_cons_self, rfl⟩
      · exact Or.inl rfl
    · exact Or.inr ⟨plugin, List.mem_cons_of_mem _ hmem, hlast⟩

theorem startswith_later {rest : Subdirs} (hrest : rest.Clear) {parent name : String} (hname : '/' ∉ name.toList)
    (hothers : ∀ other ∈ rest.names, ¬ name.toList <+: other.toList) {path : String} {tail : List Char}
    (hpath : path.toList = joined parent ++ (name.toList ++ tail)) {directory : Directory}
    (h : directory ∈ rest.walk parent) : startswith directory.path path = false := by
  obtain ⟨other, hother, tail', hpath', htail'⟩ := path_of_mem_walk hrest h
  rw [← Bool.not_eq_true]
  intro hstarts
  unfold startswith at hstarts
  rw [List.isPrefixOf_iff_prefix, hpath, hpath', List.prefix_append_right_inj] at hstarts
  have hstart : name.toList <+: other.toList ++ tail' := (List.prefix_append _ _).trans hstarts
  exact hothers other hother (prefix_of_prefix_append hname htail' hstart)

/-- Where the path of a rule starts with that of the plugin read last, the rule lies in it. -/
theorem last_eq_enclosing {dirs : Subdirs} (hclear : dirs.Clear) {parent : String}
    {last enclosing : Option Directory}
    (hlast : last = enclosing ∨ ∀ directory ∈ dirs.walk parent, startswith directory.path (lastPath last) = false) :
    ∀ placed ∈ place last (dirs.scopes parent enclosing), placed.directory.isRule = true →
      startswith placed.directory.path (lastPath placed.last) = true → placed.last = placed.enclosing := by
  induction dirs generalizing parent last enclosing with
  | none =>
    intro placed hmem
    cases hmem
  | next name files dirs rest ihdirs ihrest =>
    obtain ⟨hname, hothers, hdirs, hrest⟩ := hclear
    intro placed hmem hrule hstarts
    generalize hhere : (⟨join parent name, files, dirs.names⟩ : Directory) = here
    have hpath : here.path = join parent name := by rw [← hhere]
    have hwalk : Subdirs.walk parent (.next name files dirs rest) =
        here :: (dirs.walk here.path ++ rest.walk parent) := by rw [Subdirs.walk, hhere, hpath]
    have hscopes : Subdirs.scopes parent enclosing (.next name files dirs rest) =
        ⟨here, here.scope enclosing⟩ ::
          (dirs.scopes here.path (here.scope enclosing) ++ rest.scopes parent enclosing) := by
      rw [Subdirs.scopes, hhere]
    rw [hwalk] at hlast
    rw [hscopes, place, List.mem_cons, place_append, List.mem_append] at hmem
    rcases hmem with rfl | hmem | hmem
    · have hplugin : here.isPlugin = false := Directory.isPlugin_of_isRule hrule
      have hscope (other : Option Directory) : here.scope other = other := by rw [Directory.scope, hplugin]; rfl
      simp only [hscope] at hstarts ⊢
      rcases hlast with hsame | hapart
      · exact hsame
      · rw [hapart here List.mem_cons_self] at hstarts
        cases hstarts
    · refine ihdirs hdirs ?_ placed hmem hrule hstarts
      cases hplugin : here.isPlugin with
      | true => exact Or.inl (by simp [Directory.scope, hplugin])
      | false =>
        simp only [Directory.scope, hplugin, Bool.false_eq_true, if_false]
        exact hlast.imp_right fun hapart directory hin =>
          hapart directory (List.mem_cons_of_mem _ (List.mem_append_left _ hin))
    · refine ihrest hrest ?_ placed hmem hrule hstarts
      rcases lastOf_cases (here.scope last) (dirs.scopes here.path (here.scope enclosing)) with
        hsame | ⟨plugin, hin, hplugin⟩
      · rw [hsame]
        cases hplugin : here.isPlugin with
        | true =>
          refine Or.inr fun directory hin => ?_
          simp only [Directory.scope, hplugin, if_true]
          have hplace : here.path.toList = joined parent ++ (name.toList ++ []) := by
            rw [hpath, toList_join, List.append_nil]
          exact startswith_later hrest hname.2 hothers hplace hin
        | false =>
          simp only [Directory.scope, hplugin, Bool.false_eq_true, if_false]
          exact hlast.imp_right fun hapart directory hin =>
            hapart directory (List.mem_cons_of_mem _ (List.mem_append_right _ hin))
      · rw [hplugin]
        refine Or.inr fun directory hin' => ?_
        rw [map_scopes, hpath] at hin
        obtain ⟨inner, -, tail, hplace, -⟩ := path_of_mem_walk hdirs hin
        exact startswith_later hrest hname.2 hothers (path_of_mem hname hplace) hin'

/-- If no name starts that of a later sibling, each rule gets the defaults of the plugin it lies in. -/
theorem inheritsOwn_of_clear {safeLoad : String → Except Raised (Document κ α)} {tree : Tree} {contentDir : String}
    (hclear : tree.dirs.Clear)
    (hpaths : ∀ directory ∈ tree.walk contentDir, startswith directory.path "no directory" = false) :
    InheritsOwn safeLoad tree contentDir := by
  refine inheritsOwn_of_sameDefaults fun placed hmem hreadable hrule => ?_
  have hplugin : placed.directory.isPlugin = false := Directory.isPlugin_of_isRule hrule
  have hstarts : startswith placed.directory.path (lastPath placed.last) = true := by
    rw [Placed.readable, hplugin, if_neg Bool.false_ne_true, if_pos hrule, Bool.and_eq_true] at hreadable
    exact hreadable.1
  have hlast : placed.last = placed.enclosing := by
    rcases List.mem_cons.mp hmem with rfl | hbelow
    · rfl
    · exact last_eq_enclosing hclear (Or.inl rfl) placed hbelow hrule hstarts
  cases henclosing : placed.enclosing with
  | some plugin => exact ⟨plugin, henclosing, fun key _ _ => by rw [hlast, henclosing]; rfl⟩
  | none =>
    have hwalk : placed.directory ∈ tree.walk contentDir := by
      rw [← tree.map_scopes contentDir, ← map_place none (tree.scopes contentDir), List.map_map]
      exact List.mem_map.mpr ⟨placed, hmem, rfl⟩
    rw [hlast, henclosing] at hstarts
    exact absurd ((hpaths _ hwalk).symm.trans hstarts) Bool.false_ne_true

end Names

def oneLine (text : String) : Except Raised (Document Unit Unit) :=
  match text.toList.dropWhile (· ≠ ':') with
  | ':' :: ' ' :: value =>
    .ok (.mapping (Table.single (.text (String.ofList (text.toList.takeWhile (· ≠ ':'))), .text (String.ofList value))))
  | _ => .error .other

/-- A plugin, and beside it a rule in a directory without one, whose name starts with that of the plugin. -/
def strayRule : Tree where
  files := []
  dirs := .next "test" [("plugin.yaml", .ok "product_code: RHEL")] .none
    (.next "test2" [] (.next "RULE" [("metadata.yaml", .ok "impact: DoS")] .none .none) .none)

/-- The rule gets the defaults of the plugin that it does not lie in. -/
theorem strayRule_inherits : ¬ InheritsOwn oneLine strayRule "content" := by
  intro h
  have hreturns : isOk (generateRuleContent oneLine strayRule "content") = true := by decide +kernel
  have hstray : ((strayRule.scopes "content").filter (·.directory.isRule)).map (·.enclosing.isSome) = [false] := by
    decide +kernel
  obtain ⟨entries, hentries⟩ := isOk_iff.mp hreturns
  have hinherits := h entries hentries
  generalize (strayRule.scopes "content").filter (·.directory.isRule) = rules at hinherits hstray
  obtain ⟨rule, rfl, hnone⟩ := List.map_eq_singleton_iff.mp hstray
  cases hinherits with
  | cons hrule _ =>
    obtain ⟨plugin, hplugin, -⟩ := hrule
    rw [hplugin] at hnone
    cases hnone

end Advisor.Compile
