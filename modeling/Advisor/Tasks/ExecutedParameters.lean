import Mathlib.Data.List.Pairwise
import Advisor.Tasks.Content
import Advisor.Tasks.Execute

/-! The parameters of an executed task: one pass checks what a request supplies, another one stores it. Both index the
task's parameters by their keys, which nothing keeps different. -/

namespace Advisor.Tasks

open Python Procedure Django Relational

def offer (parameter : Content.TaskParameter) : OfferedParameter where
  parameter :=
    { id := parameter.id
      key := parameter.key
      required := parameter.required
      default := parameter.default
      index := parameter.index }
  values := parameter.values
  multiValued := parameter.multiValued

/-- What the queries for a task's parameters give: the one that checks a request is ordered by key, and what comes first
among equal keys is the database's choice; the one that stores is ordered by index. -/
structure ParameterQueries (store : Content.Store) where
  title : Nat → String
  byKey : Nat → List Content.TaskParameter
  byIndex : Nat → List Content.TaskParameter
  byKey_perm : ∀ task, (byKey task).Perm (store.parametersOf task)
  byIndex_perm : ∀ task, (byIndex task).Perm (store.parametersOf task)
  byIndex_sorted : ∀ task, (byIndex task).Pairwise (·.index < ·.index)

namespace ParameterQueries

variable {store : Content.Store} (queries : ParameterQueries store)

def checking : TaskDetails := ⟨queries.title, fun task => (queries.byKey task).map offer⟩

def storing : TaskDetails := ⟨queries.title, fun task => (queries.byIndex task).map offer⟩

end ParameterQueries

def AllowedValues (parameter : Content.TaskParameter) (value : String) : Prop :=
  ∀ part ∈ (if parameter.multiValued then value.splitOn "," else [value]), part ∈ parameter.values.1

def DifferentKeys (parameters : List Content.TaskParameter) (row other : ExecutedTaskParameter) : Prop :=
  ∀ parameter ∈ parameters, ∀ second ∈ parameters,
    parameter.id = row.parameter → second.id = other.parameter → parameter.key ≠ second.key

/-- The stored parameters are the supplied ones and the defaults of the others that are required and have one. -/
structure Exact (parameters : List Content.TaskParameter) (given : List (String × String))
    (stored : List ExecutedTaskParameter) : Prop where
  ofTask : ∀ row ∈ stored, ∃ parameter ∈ parameters, parameter.id = row.parameter
  pairs : ∀ key value, (∃ parameter ∈ parameters, parameter.key = key ∧ ⟨parameter.id, value⟩ ∈ stored) ↔
    (key, value) ∈ given ∨ key ∉ given.map (·.1) ∧
      ∃ parameter ∈ parameters, parameter.key = key ∧ parameter.required = true ∧ parameter.default = some value
  once : stored.Pairwise (DifferentKeys parameters)
  allowed : ∀ supplied ∈ given, ∀ parameter ∈ parameters, parameter.key = supplied.1 →
    ⟨parameter.id, supplied.2⟩ ∈ stored → AllowedValues parameter supplied.2
  required : ∀ parameter ∈ parameters, parameter.required = true →
    ∃ second ∈ parameters, second.key = parameter.key ∧ ∃ value, ⟨second.id, value⟩ ∈ stored

/-- The parameter of the key that has the highest index. -/
structure IsLast (parameters : List Content.TaskParameter) (key : String) (parameter : Content.TaskParameter) : Prop where
  mem : parameter ∈ parameters
  ofKey : parameter.key = key
  last : ∀ second ∈ parameters, second.key = key → second.index ≤ parameter.index

section Checked

variable {lib : TaskLibrary} {offered : List OfferedParameter} {given : List (String × String)}

def CheckedParameters.Clean (checked : CheckedParameters) : Prop :=
  checked.unrecognised = [] ∧ checked.duplicated = [] ∧ checked.unmatched = []

theorem insert_ne_nil (key : String) (l : List String) : l.insert key ≠ [] :=
  List.ne_nil_of_mem (List.mem_insert_self)

theorem checkParameter_clean {checked : CheckedParameters} {supplied : String × String}
    (h : (checkParameter lib offered checked supplied).Clean) :
    checked.Clean ∧ supplied.1 ∉ checked.provided ∧
      (∃ parameter, offered.reverse.find? (·.parameter.key = supplied.1) = some parameter ∧
        unmatchedValues lib parameter supplied = []) ∧
        (checkParameter lib offered checked supplied).provided = checked.provided.insert supplied.1 := by
  rw [checkParameter] at h ⊢
  cases hfound : offered.reverse.find? (·.parameter.key = supplied.1) with
  | none =>
    rw [hfound] at h
    exact absurd h.1 (insert_ne_nil _ _)
  | some parameter =>
    rw [hfound] at h
    dsimp only at h ⊢
    by_cases hprovided : checked.provided.contains supplied.1 = true
    · rw [if_pos hprovided] at h
      exact absurd h.2.1 (insert_ne_nil _ _)
    · rw [if_neg hprovided] at h ⊢
      obtain ⟨hun, hdup, hmatch⟩ := h
      obtain ⟨hold, hnew⟩ := List.append_eq_nil_iff.mp hmatch
      exact ⟨⟨hun, hdup, hold⟩, by simpa using hprovided, ⟨parameter, rfl, hnew⟩, rfl⟩

theorem checkParameter_fold {checked : CheckedParameters}
    (h : (given.foldl (checkParameter lib offered) checked).Clean) :
    checked.Clean ∧ (given.map (·.1)).Nodup ∧ (∀ supplied ∈ given, supplied.1 ∉ checked.provided) ∧
      (∀ supplied ∈ given, ∃ parameter, offered.reverse.find? (·.parameter.key = supplied.1) = some parameter ∧
        unmatchedValues lib parameter supplied = []) ∧
        ∀ key, key ∈ (given.foldl (checkParameter lib offered) checked).provided ↔
          key ∈ checked.provided ∨ key ∈ given.map (·.1) := by
  induction given generalizing checked with
  | nil => exact ⟨h, List.nodup_nil, by simp, by simp, by simp⟩
  | cons supplied rest ih =>
    rw [List.foldl_cons] at h ⊢
    obtain ⟨hturn, hnodup, hfresh, hfound, hprovided⟩ := ih h
    obtain ⟨hclean, hnew, hparameter, hadd⟩ := checkParameter_clean hturn
    rw [hadd] at hfresh hprovided
    simp only [List.mem_insert_iff, not_or] at hfresh hprovided
    refine ⟨hclean, ?_, ?_, ?_, ?_⟩
    · rw [List.map_cons, List.nodup_cons]
      refine ⟨?_, hnodup⟩
      intro hmem
      obtain ⟨other, hother, heq⟩ := List.mem_map.mp hmem
      exact (hfresh other hother).1 heq
    · exact List.forall_mem_cons.mpr ⟨hnew, fun other hother => (hfresh other hother).2⟩
    · exact List.forall_mem_cons.mpr ⟨hparameter, hfound⟩
    · intro key
      rw [hprovided, List.map_cons, List.mem_cons]
      tauto

/-- What a request whose parameters are accepted supplies, and what it leaves to defaults. -/
structure AcceptedParameters (lib : TaskLibrary) (offered : List OfferedParameter) (given : List (String × String)) :
    Prop where
  once : (given.map (·.1)).Nodup
  found : ∀ supplied ∈ given, ∃ parameter, offered.reverse.find? (·.parameter.key = supplied.1) = some parameter ∧
    unmatchedValues lib parameter supplied = []
  missing : ∀ entry ∈ offered, entry.parameter.required = true → entry.parameter.default = none →
    entry.parameter.key ∈ given.map (·.1)

theorem accepted_of_validateParameters {slug : String} {supplied : Option (List (String × String))}
    (h : validateParameters lib slug offered supplied = .ok ()) : AcceptedParameters lib offered (supplied.getD []) := by
  rw [validateParameters] at h
  dsimp only at h
  by_cases hun : ((supplied.getD []).foldl (checkParameter lib offered) {}).unrecognised ≠ []
  · rw [if_pos hun] at h
    cases h
  rw [if_neg hun] at h
  by_cases hdup : ((supplied.getD []).foldl (checkParameter lib offered) {}).duplicated ≠ []
  · rw [if_pos hdup] at h
    cases h
  rw [if_neg hdup] at h
  by_cases hmatch : ((supplied.getD []).foldl (checkParameter lib offered) {}).unmatched ≠ []
  · rw [if_pos hmatch] at h
    cases h
  rw [if_neg hmatch] at h
  simp only [ne_eq, not_not] at hun hdup hmatch
  obtain ⟨-, honce, -, hfound, hprovided⟩ :=
    @checkParameter_fold lib offered (supplied.getD []) {} ⟨hun, hdup, hmatch⟩
  refine ⟨honce, hfound, fun entry hentry hrequired hdefault => ?_⟩
  have hseen : entry.parameter.key ∈ ((supplied.getD []).foldl (checkParameter lib offered) {}).provided := by
    by_contra hnot
    rw [if_pos (List.ne_nil_of_mem (List.mem_filter.mpr ⟨hentry, by simp [hrequired, hdefault, hnot]⟩))] at h
    cases h
  exact ((hprovided _).mp hseen).resolve_left List.not_mem_nil

end Checked

section Stored

variable {l : List Content.TaskParameter} {given : List (String × String)}

def parameterIdFor (l : List Content.TaskParameter) (key : String) : Nat :=
  ((l.reverse.find? (·.key = key)).map (·.id)).getD 0

theorem isLast_of_find? (hindex : l.Pairwise (·.index < ·.index)) {key : String} {parameter : Content.TaskParameter}
    (h : l.reverse.find? (·.key = key) = some parameter) : IsLast l key parameter := by
  induction l with
  | nil => cases h
  | cons first rest ih =>
    obtain ⟨hfirst, hrest⟩ := List.pairwise_cons.mp hindex
    rw [List.reverse_cons, List.find?_append] at h
    cases hfound : rest.reverse.find? (·.key = key) with
    | some later =>
      rw [hfound, Option.some_or, Option.some.injEq] at h
      subst h
      obtain ⟨hmem, hkey, hlast⟩ := ih hrest hfound
      refine ⟨List.mem_cons_of_mem _ hmem, hkey, List.forall_mem_cons.mpr ⟨fun _ => ?_, hlast⟩⟩
      have hlt := hfirst later hmem
      omega
    | none =>
      rw [hfound, Option.none_or, List.find?_singleton] at h
      split_ifs at h with hkey
      cases h
      refine ⟨List.mem_cons_self, by simpa using hkey, List.forall_mem_cons.mpr ⟨fun _ => le_rfl, ?_⟩⟩
      intro second hsecond heq
      have hmiss := List.find?_eq_none.mp hfound second (List.mem_reverse.mpr hsecond)
      exact absurd (by simpa using heq) hmiss

theorem IsLast.unique (hindex : l.Pairwise (·.index < ·.index)) {key : String} {a b : Content.TaskParameter}
    (ha : IsLast l key a) (hb : IsLast l key b) : a = b := by
  have hle := ha.last b hb.mem hb.ofKey
  have hge := hb.last a ha.mem ha.ofKey
  have hnodup : (l.map (·.index)).Nodup := List.pairwise_map.mpr (hindex.imp fun hlt => Nat.ne_of_lt hlt)
  exact List.inj_on_of_nodup_map hnodup ha.mem hb.mem (by omega)

def suppliedRows (l : List Content.TaskParameter) (given : List (String × String)) : List ExecutedTaskParameter :=
  given.map fun supplied => ⟨parameterIdFor l supplied.1, supplied.2⟩

def defaultRow (given : List (String × String)) (parameter : Content.TaskParameter) : Option ExecutedTaskParameter :=
  if parameter.required && !(given.map (·.1)).contains parameter.key then
    parameter.default.map (⟨parameter.id, ·⟩)
  else none

def defaultRows (l : List Content.TaskParameter) (given : List (String × String)) : List ExecutedTaskParameter :=
  l.filterMap (defaultRow given)

theorem createTaskParameters_eq (h : ∀ supplied ∈ given, ∃ parameter ∈ l, parameter.key = supplied.1) :
    createTaskParameters ((l.map offer).map (·.parameter)) given =
      if ((suppliedRows l given ++ defaultRows l given).map (·.parameter)).Nodup then
        .ok (suppliedRows l given ++ defaultRows l given)
      else .error .integrityError := by
  have hfind : ∀ key, ((l.map offer).map (·.parameter)).reverse.find? (·.key = key) =
      (l.reverse.find? (·.key = key)).map fun parameter => (offer parameter).parameter := by
    intro key
    rw [List.map_map, ← List.map_reverse, List.find?_map]
    rfl
  have hextra : (((l.map offer).map (·.parameter)).filterMap fun parameter =>
      if parameter.required && !(given.map (·.1)).contains parameter.key then
        parameter.default.map (⟨parameter.id, ·⟩)
      else none) = defaultRows l given := by
    rw [List.map_map, List.filterMap_map]
    rfl
  rw [createTaskParameters, mapM_ok (g := fun supplied => ⟨parameterIdFor l supplied.1, supplied.2⟩)]
  · dsimp only [Bind.bind, Except.bind]
    rw [hextra]
    rfl
  · intro supplied hsupplied
    obtain ⟨parameter, hparameter, hkey⟩ := h supplied hsupplied
    have hsome : (l.reverse.find? (·.key = supplied.1)).isSome := by
      rw [List.find?_isSome]
      exact ⟨parameter, List.mem_reverse.mpr hparameter, by simpa using hkey⟩
    obtain ⟨last, hlast⟩ := Option.isSome_iff_exists.mp hsome
    simp only [hfind, hlast, parameterIdFor]
    rfl

/-- The queried parameters, and keys among theirs that are supplied once. -/
structure Ready (l : List Content.TaskParameter) (given : List (String × String)) : Prop where
  ids : (l.map (·.id)).Nodup
  index : l.Pairwise (·.index < ·.index)
  found : ∀ supplied ∈ given, ∃ parameter ∈ l, parameter.key = supplied.1
  once : (given.map (·.1)).Nodup
  required : ∀ parameter ∈ l, parameter.required = true → parameter.default = none → parameter.key ∈ given.map (·.1)

theorem Ready.eq_of_id (h : Ready l given) {a b : Content.TaskParameter} (ha : a ∈ l) (hb : b ∈ l) (hid : a.id = b.id) :
    a = b := List.inj_on_of_nodup_map h.ids ha hb hid

theorem Ready.exists_isLast (h : Ready l given) {supplied : String × String} (hsupplied : supplied ∈ given) :
    ∃ parameter, IsLast l supplied.1 parameter ∧ parameterIdFor l supplied.1 = parameter.id := by
  obtain ⟨parameter, hparameter, hkey⟩ := h.found supplied hsupplied
  have hsome : (l.reverse.find? (·.key = supplied.1)).isSome := by
    rw [List.find?_isSome]
    exact ⟨parameter, List.mem_reverse.mpr hparameter, by simpa using hkey⟩
  obtain ⟨last, hlast⟩ := Option.isSome_iff_exists.mp hsome
  exact ⟨last, isLast_of_find? h.index hlast, by rw [parameterIdFor, hlast]; rfl⟩

theorem mem_suppliedRows (h : Ready l given) {row : ExecutedTaskParameter} :
    row ∈ suppliedRows l given ↔
      ∃ supplied ∈ given, ∃ parameter, IsLast l supplied.1 parameter ∧ row = ⟨parameter.id, supplied.2⟩ := by
  rw [suppliedRows, List.mem_map]
  constructor
  · rintro ⟨supplied, hsupplied, rfl⟩
    obtain ⟨parameter, hlast, hid⟩ := h.exists_isLast hsupplied
    exact ⟨supplied, hsupplied, parameter, hlast, by rw [hid]⟩
  · rintro ⟨supplied, hsupplied, parameter, hlast, rfl⟩
    obtain ⟨parameter', hlast', hid⟩ := h.exists_isLast hsupplied
    exact ⟨supplied, hsupplied, by rw [hid, hlast.unique h.index hlast']⟩

theorem defaultRow_eq_some {parameter : Content.TaskParameter} {row : ExecutedTaskParameter} :
    defaultRow given parameter = some row ↔ parameter.required = true ∧ parameter.key ∉ given.map (·.1) ∧
      ∃ value, parameter.default = some value ∧ row = ⟨parameter.id, value⟩ := by
  rw [defaultRow]
  by_cases hcond : (parameter.required && !(given.map (·.1)).contains parameter.key) = true
  · rw [if_pos hcond, Option.map_eq_some_iff]
    simp only [Bool.and_eq_true, Bool.not_eq_true', List.contains_eq_mem, decide_eq_false_iff_not] at hcond
    simp only [hcond, not_false_iff, true_and, eq_comm]
  · rw [if_neg hcond]
    simp only [Bool.and_eq_true, Bool.not_eq_true', List.contains_eq_mem, decide_eq_false_iff_not] at hcond
    exact iff_of_false (by simp) fun hrow => hcond ⟨hrow.1, hrow.2.1⟩

theorem mem_defaultRows {row : ExecutedTaskParameter} :
    row ∈ defaultRows l given ↔ ∃ parameter ∈ l, parameter.required = true ∧ parameter.key ∉ given.map (·.1) ∧
      ∃ value, parameter.default = some value ∧ row = ⟨parameter.id, value⟩ := by
  rw [defaultRows, List.mem_filterMap]
  simp only [defaultRow_eq_some]

theorem DifferentKeys.ne {row other : ExecutedTaskParameter} (h : DifferentKeys l row other)
    (hrow : ∃ parameter ∈ l, parameter.id = row.parameter) : row.parameter ≠ other.parameter := by
  obtain ⟨parameter, hmem, hid⟩ := hrow
  exact fun heq => h parameter hmem parameter hmem hid (hid.trans heq) rfl

theorem suppliedRows_pairwise (h : Ready l given) : (suppliedRows l given).Pairwise (DifferentKeys l) := by
  rw [suppliedRows, List.pairwise_map]
  refine (List.pairwise_map.mp h.once).imp_of_mem ?_
  intro first second hfirst hsecond hne a ha b hb hida hidb heq
  obtain ⟨p, hp, hpid⟩ := h.exists_isLast hfirst
  obtain ⟨q, hq, hqid⟩ := h.exists_isLast hsecond
  obtain rfl := h.eq_of_id ha hp.mem (hida.trans hpid)
  obtain rfl := h.eq_of_id hb hq.mem (hidb.trans hqid)
  exact hne (hp.ofKey.symm.trans (heq.trans hq.ofKey))

theorem supplied_default (h : Ready l given) {row other : ExecutedTaskParameter} (hrow : row ∈ suppliedRows l given)
    (hother : other ∈ defaultRows l given) : DifferentKeys l row other := by
  obtain ⟨supplied, hsupplied, p, hp, rfl⟩ := (mem_suppliedRows h).mp hrow
  obtain ⟨q, hq, -, hnot, value, -, rfl⟩ := mem_defaultRows.mp hother
  intro a ha b hb hida hidb heq
  obtain rfl := h.eq_of_id ha hp.mem hida
  obtain rfl := h.eq_of_id hb hq hidb
  exact hnot (List.mem_map.mpr ⟨supplied, hsupplied, hp.ofKey.symm.trans heq⟩)

theorem parameterRows_nodup (h : Ready l given) :
    ((suppliedRows l given ++ defaultRows l given).map (·.parameter)).Nodup := by
  have hofTask : ∀ row ∈ suppliedRows l given, ∃ parameter ∈ l, parameter.id = row.parameter := by
    intro row hrow
    obtain ⟨supplied, -, parameter, hlast, rfl⟩ := (mem_suppliedRows h).mp hrow
    exact ⟨parameter, hlast.mem, rfl⟩
  rw [List.Nodup, List.pairwise_map, List.pairwise_append]
  refine ⟨(suppliedRows_pairwise h).imp_of_mem fun hrow _ hdiff => hdiff.ne (hofTask _ hrow), ?_, ?_⟩
  · rw [defaultRows, List.pairwise_filterMap]
    refine (List.pairwise_map.mp h.ids).imp ?_
    intro p q hne row hrow other hother
    obtain ⟨-, -, value, -, rfl⟩ := defaultRow_eq_some.mp hrow
    obtain ⟨-, -, value', -, rfl⟩ := defaultRow_eq_some.mp hother
    exact hne
  · intro row hrow other hother
    exact (supplied_default h hrow hother).ne (hofTask row hrow)

/-- No two parameters of one key that is not supplied are required and have a default. -/
def OneDefaultEach (l : List Content.TaskParameter) (given : List (String × String)) : Prop :=
  ∀ parameter ∈ l, ∀ second ∈ l, parameter.key = second.key → parameter.key ∉ given.map (·.1) →
    parameter.required = true → second.required = true → parameter.default ≠ none → second.default ≠ none →
      parameter = second

theorem once_iff (h : Ready l given) :
    (suppliedRows l given ++ defaultRows l given).Pairwise (DifferentKeys l) ↔ OneDefaultEach l given := by
  rw [List.pairwise_append]
  constructor
  · rintro ⟨-, hdefaults, -⟩ p hp q hq hkey hnot hpreq hqreq hpdef hqdef
    obtain ⟨a, ha⟩ := Option.ne_none_iff_exists'.mp hpdef
    obtain ⟨b, hb⟩ := Option.ne_none_iff_exists'.mp hqdef
    by_contra hne
    have : Std.Symm (DifferentKeys l) :=
      ⟨fun _ _ hdiff x hx y hy hidx hidy heq => hdiff y hy x hx hidy hidx heq.symm⟩
    have hrow := mem_defaultRows.mpr ⟨p, hp, hpreq, hnot, a, ha, rfl⟩
    have hother := mem_defaultRows.mpr ⟨q, hq, hqreq, hkey ▸ hnot, b, hb, rfl⟩
    have hrows : (⟨p.id, a⟩ : ExecutedTaskParameter) ≠ ⟨q.id, b⟩ := by
      intro heq
      exact hne (h.eq_of_id hp hq (congrArg (·.parameter) heq))
    exact hdefaults.forall hrow hother hrows p hp q hq rfl rfl hkey
  · intro hone
    refine ⟨suppliedRows_pairwise h, ?_, fun row hrow other hother => supplied_default h hrow hother⟩
    rw [defaultRows, List.pairwise_filterMap]
    refine (List.pairwise_map.mp h.ids).imp_of_mem ?_
    intro p q hp hq hne row hrow other hother a ha b hb hida hidb heq
    obtain ⟨hpreq, hnot, value, hpdef, rfl⟩ := defaultRow_eq_some.mp hrow
    obtain ⟨hqreq, -, value', hqdef, rfl⟩ := defaultRow_eq_some.mp hother
    obtain rfl := h.eq_of_id ha hp hida
    obtain rfl := h.eq_of_id hb hq hidb
    exact hne (congrArg (·.id) (hone _ hp _ hq heq hnot hpreq hqreq (by simp [hpdef]) (by simp [hqdef])))

theorem mem_parameterRows (h : Ready l given) {row : ExecutedTaskParameter} :
    row ∈ suppliedRows l given ++ defaultRows l given ↔
      (∃ supplied ∈ given, ∃ parameter, IsLast l supplied.1 parameter ∧ row = ⟨parameter.id, supplied.2⟩) ∨
        ∃ parameter ∈ l, parameter.required = true ∧ parameter.key ∉ given.map (·.1) ∧
          ∃ value, parameter.default = some value ∧ row = ⟨parameter.id, value⟩ := by
  rw [List.mem_append, mem_suppliedRows h, mem_defaultRows]

theorem rows_pairs (h : Ready l given) (key value : String) :
    (∃ parameter ∈ l, parameter.key = key ∧ ⟨parameter.id, value⟩ ∈ suppliedRows l given ++ defaultRows l given) ↔
      (key, value) ∈ given ∨ key ∉ given.map (·.1) ∧
        ∃ parameter ∈ l, parameter.key = key ∧ parameter.required = true ∧ parameter.default = some value := by
  constructor
  · rintro ⟨parameter, hparameter, rfl, hrow⟩
    rcases (mem_parameterRows h).mp hrow with ⟨supplied, hsupplied, p, hp, heq⟩ | ⟨p, hp, hrequired, hnot, v, hdefault, heq⟩
    · obtain ⟨hid, rfl⟩ := ExecutedTaskParameter.mk.injEq _ _ _ _ ▸ heq
      obtain rfl := h.eq_of_id hparameter hp.mem hid
      exact .inl (by rwa [hp.ofKey])
    · obtain ⟨hid, rfl⟩ := ExecutedTaskParameter.mk.injEq _ _ _ _ ▸ heq
      obtain rfl := h.eq_of_id hparameter hp hid
      exact .inr ⟨hnot, parameter, hparameter, rfl, hrequired, hdefault⟩
  · rintro (hgiven | ⟨hnot, parameter, hparameter, rfl, hrequired, hdefault⟩)
    · obtain ⟨parameter, hlast, -⟩ := h.exists_isLast hgiven
      exact ⟨parameter, hlast.mem, hlast.ofKey, (mem_parameterRows h).mpr (.inl ⟨_, hgiven, parameter, hlast, rfl⟩)⟩
    · exact ⟨parameter, hparameter, rfl,
        (mem_parameterRows h).mpr (.inr ⟨parameter, hparameter, hrequired, hnot, value, hdefault, rfl⟩)⟩

theorem rows_required (h : Ready l given) {parameter : Content.TaskParameter} (hparameter : parameter ∈ l)
    (hrequired : parameter.required = true) :
    ∃ second ∈ l, second.key = parameter.key ∧
      ∃ value, ⟨second.id, value⟩ ∈ suppliedRows l given ++ defaultRows l given := by
  by_cases hgiven : parameter.key ∈ given.map (·.1)
  · obtain ⟨supplied, hsupplied, hkey⟩ := List.mem_map.mp hgiven
    obtain ⟨last, hlast, -⟩ := h.exists_isLast hsupplied
    exact ⟨last, hlast.mem, hlast.ofKey.trans hkey, supplied.2,
      (mem_parameterRows h).mpr (.inl ⟨supplied, hsupplied, last, hlast, rfl⟩)⟩
  · cases hdefault : parameter.default with
    | none => exact absurd (h.required parameter hparameter hrequired hdefault) hgiven
    | some value =>
      exact ⟨parameter, hparameter, rfl, value,
        (mem_parameterRows h).mpr (.inr ⟨parameter, hparameter, hrequired, hgiven, value, hdefault, rfl⟩)⟩

theorem supplied_isLast (h : Ready l given) {supplied : String × String} {parameter : Content.TaskParameter}
    {value : String} (hsupplied : supplied ∈ given) (hparameter : parameter ∈ l) (hkey : parameter.key = supplied.1)
    (hrow : ⟨parameter.id, value⟩ ∈ suppliedRows l given ++ defaultRows l given) : IsLast l supplied.1 parameter := by
  rcases (mem_parameterRows h).mp hrow with ⟨other, -, p, hp, heq⟩ | ⟨p, hp, -, hnot, v, -, heq⟩
  · obtain ⟨hid, -⟩ := ExecutedTaskParameter.mk.injEq _ _ _ _ ▸ heq
    obtain rfl := h.eq_of_id hparameter hp.mem hid
    rwa [← hkey, hp.ofKey]
  · obtain ⟨hid, -⟩ := ExecutedTaskParameter.mk.injEq _ _ _ _ ▸ heq
    obtain rfl := h.eq_of_id hparameter hp hid
    exact absurd (List.mem_map.mpr ⟨supplied, hsupplied, hkey.symm⟩) hnot

theorem exact_iff (h : Ready l given) :
    Exact l given (suppliedRows l given ++ defaultRows l given) ↔ OneDefaultEach l given ∧
      ∀ supplied ∈ given, ∀ parameter, IsLast l supplied.1 parameter → AllowedValues parameter supplied.2 := by
  constructor
  · intro hexact
    refine ⟨(once_iff h).mp hexact.once, fun supplied hsupplied parameter hlast => ?_⟩
    exact hexact.allowed supplied hsupplied parameter hlast.mem hlast.ofKey
      ((mem_parameterRows h).mpr (.inl ⟨supplied, hsupplied, parameter, hlast, rfl⟩))
  · rintro ⟨hone, hallowed⟩
    refine
      { ofTask := fun row hrow => ?_
        pairs := rows_pairs h
        once := (once_iff h).mpr hone
        allowed := fun supplied hsupplied parameter hparameter hkey hrow =>
          hallowed supplied hsupplied parameter (supplied_isLast h hsupplied hparameter hkey hrow)
        required := fun parameter hparameter hrequired => rows_required h hparameter hrequired }
    rcases (mem_parameterRows h).mp hrow with ⟨supplied, -, p, hp, rfl⟩ | ⟨p, hp, -, -, value, -, rfl⟩
    · exact ⟨p, hp.mem, rfl⟩
    · exact ⟨p, hp, rfl⟩

end Stored

section Execution

def ExactlyStored {store : Content.Store} (queries : ParameterQueries store) (request : ExecuteRequest) (task : Task) :
    Prop :=
  ∃ stored, request.storedParameters queries.storing task = .ok stored ∧
    Exact (queries.byIndex task.id) (request.parameters.getD []) stored

variable {lib : TaskLibrary} {store : Content.Store} {queries : ParameterQueries store} {request : ExecuteRequest}
  {s : State} {task : Task}

theorem accepted_of_validate {details : TaskDetails} (h : validate lib details request s = .ok task) :
    AcceptedParameters lib (details.parameters task.id) (request.parameters.getD []) := by
  rw [validate] at h
  cases hfind : s.tasks.rows.find? (·.slug = request.slug) with
  | none =>
    rw [hfind] at h
    cases h
  | some found =>
    rw [hfind] at h
    dsimp only at h
    by_cases hhosts : request.hosts = []
    · rw [if_pos hhosts] at h
      cases h
    · rw [if_neg hhosts, bind_eq_ok] at h
      obtain ⟨_, -, h⟩ := h
      obtain ⟨_, hparameters, heq⟩ := bind_eq_ok.mp h
      cases heq
      exact accepted_of_validateParameters hparameters

theorem ready_of_accepted (h : AcceptedParameters lib (queries.checking.parameters task.id) (request.parameters.getD [])) :
    Ready (queries.byIndex task.id) (request.parameters.getD []) := by
  have hsame : ∀ parameter, parameter ∈ queries.byIndex task.id ↔ parameter ∈ queries.byKey task.id := fun parameter =>
    (queries.byIndex_perm task.id).mem_iff.trans (queries.byKey_perm task.id).mem_iff.symm
  have hids : ((store.parametersOf task.id).map (·.id)).Nodup := store.parameters.unique.sublist (List.filter_sublist.map _)
  refine ⟨((queries.byIndex_perm task.id).map _).nodup_iff.mpr hids, queries.byIndex_sorted task.id, ?_, h.once, ?_⟩
  · intro supplied hsupplied
    obtain ⟨entry, hentry, -⟩ := h.found supplied hsupplied
    obtain ⟨parameter, hparameter, rfl⟩ := List.mem_map.mp (List.mem_reverse.mp (List.mem_of_find?_eq_some hentry))
    have hkey := List.find?_some hentry
    exact ⟨parameter, (hsame parameter).mpr hparameter, of_decide_eq_true hkey⟩
  · intro parameter hparameter hrequired hdefault
    exact h.missing (offer parameter) (List.mem_map.mpr ⟨parameter, (hsame parameter).mp hparameter, rfl⟩) hrequired hdefault

theorem storedParameters_eq (h : Ready (queries.byIndex task.id) (request.parameters.getD [])) :
    request.storedParameters queries.storing task =
      if ∀ supplied ∈ request.parameters.getD [], supplied.2.length ≤ 250 then
        .ok (suppliedRows (queries.byIndex task.id) (request.parameters.getD []) ++
          defaultRows (queries.byIndex task.id) (request.parameters.getD []))
      else .error .dataError := by
  have hlengths : (∀ row ∈ suppliedRows (queries.byIndex task.id) (request.parameters.getD []) ++
        defaultRows (queries.byIndex task.id) (request.parameters.getD []), row.value.length ≤ 250) ↔
      ∀ supplied ∈ request.parameters.getD [], supplied.2.length ≤ 250 := by
    constructor
    · intro hrows supplied hsupplied
      obtain ⟨parameter, hlast, -⟩ := h.exists_isLast hsupplied
      exact hrows _ ((mem_parameterRows h).mpr (.inl ⟨supplied, hsupplied, parameter, hlast, rfl⟩))
    · intro hsupplied row hrow
      rcases (mem_parameterRows h).mp hrow with ⟨supplied, hmem, p, -, rfl⟩ | ⟨p, -, -, -, value, hdefault, rfl⟩
      · exact hsupplied supplied hmem
      · exact p.default_length value hdefault
  have hcreated := createTaskParameters_eq h.found
  rw [if_pos (parameterRows_nodup h)] at hcreated
  rw [ExecuteRequest.storedParameters, ParameterQueries.storing]
  dsimp only
  rw [hcreated]
  show (if _ then _ else _) = _
  simp only [hlengths]
  rfl

theorem exists_exact_iff (h : validate lib queries.checking request s = .ok task) :
    ExactlyStored queries request task ↔
      (∀ supplied ∈ request.parameters.getD [], supplied.2.length ≤ 250) ∧
        OneDefaultEach (queries.byIndex task.id) (request.parameters.getD []) ∧
          ∀ supplied ∈ request.parameters.getD [], ∀ parameter, IsLast (queries.byIndex task.id) supplied.1 parameter →
            AllowedValues parameter supplied.2 := by
  have hready := ready_of_accepted (accepted_of_validate h)
  rw [ExactlyStored, storedParameters_eq hready, ← exact_iff hready]
  by_cases hlength : ∀ supplied ∈ request.parameters.getD [], supplied.2.length ≤ 250
  · rw [if_pos hlength]
    constructor
    · rintro ⟨stored, heq, hexact⟩
      cases heq
      exact ⟨hlength, hexact⟩
    · exact fun hexact => ⟨_, rfl, hexact.2⟩
  · rw [if_neg hlength]
    refine iff_of_false ?_ fun hexact => hlength hexact.1
    rintro ⟨stored, heq, -⟩
    cases heq

theorem allowed_of_unmatched {parameter : Content.TaskParameter} {supplied : String × String}
    (h : unmatchedValues lib (offer parameter) supplied = []) : AllowedValues parameter supplied.2 := by
  intro part hpart
  by_contra hnot
  rw [unmatchedValues, List.map_eq_nil_iff, List.filter_eq_nil_iff] at h
  exact h part hpart (by simpa [offer] using hnot)

/-- With different keys only the length of a value can be in the way. -/
theorem storedParameters_exact_of_keys (h : validate lib queries.checking request s = .ok task)
    (hkeys : ((store.parametersOf task.id).map (·.key)).Nodup) :
    ExactlyStored queries request task ↔
      ∀ supplied ∈ request.parameters.getD [], supplied.2.length ≤ 250 := by
  have hindex := queries.byIndex_perm task.id
  have hunique : ∀ a ∈ queries.byIndex task.id, ∀ b ∈ queries.byIndex task.id, a.key = b.key → a = b := fun a ha b hb =>
    List.inj_on_of_nodup_map hkeys (hindex.mem_iff.mp ha) (hindex.mem_iff.mp hb)
  have hallowed : ∀ supplied ∈ request.parameters.getD [], ∀ parameter,
      IsLast (queries.byIndex task.id) supplied.1 parameter → AllowedValues parameter supplied.2 := by
    intro supplied hsupplied parameter hlast
    obtain ⟨entry, hentry, hmatched⟩ := (accepted_of_validate h).found supplied hsupplied
    obtain ⟨checked, hchecked, rfl⟩ := List.mem_map.mp (List.mem_reverse.mp (List.mem_of_find?_eq_some hentry))
    have hfound := List.find?_some hentry
    have hkey : checked.key = supplied.1 := of_decide_eq_true hfound
    have hmem := hindex.mem_iff.mpr ((queries.byKey_perm task.id).mem_iff.mp hchecked)
    rw [hunique parameter hlast.mem checked hmem (hlast.ofKey.trans hkey.symm)]
    exact allowed_of_unmatched hmatched
  rw [exists_exact_iff h]
  exact ⟨fun hall => hall.1, fun hlength => ⟨hlength, fun a ha b hb heq _ _ _ _ _ => hunique a ha b hb heq, hallowed⟩⟩

/-- What an accepted request stores is exactly what it should unless a value is too long for its column, or the task
has parameters of one key of which two have a default to store or the last does not allow what is supplied. With
different keys only the length is left. -/
theorem storedParameters_exact_iff (lib : TaskLibrary) (store : Content.Store) (queries : ParameterQueries store)
    (request : ExecuteRequest) (s : State) (task : Task) (h : validate lib queries.checking request s = .ok task) :
    (ExactlyStored queries request task ↔
      (∀ supplied ∈ request.parameters.getD [], supplied.2.length ≤ 250) ∧
        OneDefaultEach (queries.byIndex task.id) (request.parameters.getD []) ∧
          ∀ supplied ∈ request.parameters.getD [], ∀ parameter, IsLast (queries.byIndex task.id) supplied.1 parameter →
            AllowedValues parameter supplied.2) ∧
      (((store.parametersOf task.id).map (·.key)).Nodup →
        (ExactlyStored queries request task ↔
          ∀ supplied ∈ request.parameters.getD [], supplied.2.length ≤ 250)) :=
  ⟨exists_exact_iff h, storedParameters_exact_of_keys h⟩

def ParameterQueries.ofRows (store : Content.Store) (h : store.parameters.rows.Pairwise (·.index < ·.index)) :
    ParameterQueries store where
  title _ := ""
  byKey := store.parametersOf
  byIndex := store.parametersOf
  byKey_perm _ := List.Perm.refl _
  byIndex_perm _ := List.Perm.refl _
  byIndex_sorted _ := h.filter _

def pingTask : Task := ⟨1, "ping", .ansible, true, 3600, sampleTask.timeout_lt⟩

def pingState : State where
  inventory := .single ⟨"1234", 7, 0, []⟩
  tasks := .single pingTask
  executedTasks := .empty
  jobs := .empty
  storable := storable_empty

def pingRequest (parameters : Option (List (String × String))) : ExecuteRequest where
  slug := "ping"
  hosts := [7]
  parameters
  name := none
  orgId := "1234"
  user := "tester"
  visible _ := true

def countQueries : ParameterQueries Content.pingStore := .ofRows _ (List.pairwise_singleton _ _)

theorem storedParameters_count :
    ExactlyStored countQueries (pingRequest (some [("COUNT", "2")])) pingTask := by
  refine (storedParameters_exact_iff sampleLibrary _ countQueries (pingRequest (some [("COUNT", "2")])) pingState pingTask
    (by rfl)).1.mpr ⟨?_, ?_, ?_⟩
  · decide
  · intro parameter hparameter second hsecond _ _ _ _ _ _
    rw [List.mem_singleton.mp hparameter, List.mem_singleton.mp hsecond]
  · intro supplied hsupplied parameter hlast
    rw [List.mem_singleton.mp hsupplied, List.mem_singleton.mp hlast.mem]
    show ∀ part ∈ ["2"], part ∈ ["1", "2"]
    decide

def verboseData (verbose : Bool) : Content.ParameterData where
  key := "VERBOSE"
  title := "Verbose"
  values := some ⟨["no", "yes"], by decide⟩
  default := some (if verbose then "yes" else "no")
  description := "How much to tell"
  required := true
  index := some (if verbose then 2 else 1)
  key_length := by decide
  title_length := by decide
  default_length := by
    cases verbose <;> decide
  index_lt := by
    cases verbose <;> decide

def storedTwice : Except Exception Content.Task × Content.Store :=
  Content.update Content.pingTask (Content.pingData [verboseData false, verboseData true]) Content.emptyStore

def twiceQueries : ParameterQueries storedTwice.2 := .ofRows _ (by decide +kernel)

/-- A request without parameters then stores the key twice. -/
theorem verbose_stored_twice :
    isOk storedTwice.1 = true ∧
      isOk (validate sampleLibrary twiceQueries.checking (pingRequest none) pingState) = true ∧
        (pingRequest none).storedParameters twiceQueries.storing pingTask =
          .ok [⟨1, "no"⟩, ⟨2, "yes"⟩] ∧
        ¬ ExactlyStored twiceQueries (pingRequest none) pingTask := by
  have hrun : (pingRequest none).storedParameters twiceQueries.storing pingTask =
      .ok [⟨1, "no"⟩, ⟨2, "yes"⟩] := by decide +kernel
  refine ⟨by decide +kernel, by decide +kernel, hrun, ?_⟩
  rintro ⟨stored, heq, hexact⟩
  obtain rfl := Except.ok.inj (hrun.symm.trans heq)
  have hdiff := (List.pairwise_cons.mp hexact.once).1 _ (List.mem_singleton.mpr rfl)
  have hkeys : (twiceQueries.byIndex 1).map (fun parameter => (parameter.id, parameter.key)) =
      [(1, "VERBOSE"), (2, "VERBOSE")] := by decide +kernel
  have hfirst : (1, "VERBOSE") ∈ [(1, "VERBOSE"), (2, "VERBOSE")] := List.mem_cons_self
  have hsecond : (2, "VERBOSE") ∈ [(1, "VERBOSE"), (2, "VERBOSE")] := List.mem_cons_of_mem _ List.mem_cons_self
  rw [← hkeys] at hfirst hsecond
  obtain ⟨first, hmem, heq⟩ := List.mem_map.mp hfirst
  obtain ⟨second, hmem', heq'⟩ := List.mem_map.mp hsecond
  exact hdiff first hmem second hmem' (congrArg Prod.fst heq) (congrArg Prod.fst heq')
    ((congrArg Prod.snd heq).trans (congrArg Prod.snd heq').symm)

end Execution

end Advisor.Tasks
