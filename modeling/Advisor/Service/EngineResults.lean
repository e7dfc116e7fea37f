import Advisor.Python.Raise
import Advisor.Service.Call

/-! Results of the engine that lack something: how they are walked through, and what is said of those that
are rejected. -/

namespace Advisor.Service

open Python Procedure

/-- `traverse_keys` takes the keys it follows from the list it is given; the keys left are returned with the item. -/
def traverseKeys (d : Json) (keys : List String) : Except Exception (Json × List String) :=
  match keys with
  | [] => .error .indexError
  | key :: keys => do
    let item ← d.getD key .null
    if keys.isEmpty then return (item, keys)
    else if !item.truthy then return (.null, keys)
    else traverseKeys item keys

def keyPaths : List (String × List String) :=
  [("engine_reports", ["results", "reports"]), ("system_data", ["results", "system"]),
    ("platform_data", ["input", "platform_metadata"]), ("request_id", ["input", "platform_metadata", "request_id"]),
    ("inventory_uuid", ["input", "host", "id"]), ("org_id", ["input", "platform_metadata", "org_id"])]

/-- What was found at a path, and what is left of the path after it. -/
structure Found where
  key : String
  item : Json
  left : List String

def findPath (engineResults : Json) (entry : String × List String) : Except Exception Found := do
  let (item, left) ← traverseKeys engineResults entry.2
  return ⟨entry.1, item, left⟩

structure Handled where
  db : State
  logged : List String

def missingLine (paths : List (List String)) : String :=
  "Key paths not found/null in engine results at paths: " ++ ",".intercalate (paths.map "/".intercalate)

def badPayload (engineResults : Json) (nulls : List Found) : Procedure Exception Handled Bool := do
  let _ ← lift (traverseKeys engineResults ["input", "host", "account"])
  write fun s => { s with logged := s.logged ++ [missingLine (nulls.map (·.left))] }
  return false

/-- `process` is what is done with results that lack nothing. -/
def handleEngineResults (process : List Found → Procedure Exception Handled Bool) (engineResults : Json) :
    Procedure Exception Handled Bool := do
  let data ← lift (keyPaths.mapM (findPath engineResults))
  let nulls := data.filter fun found => found.item = .null
  if nulls.isEmpty then process data else badPayload engineResults nulls

def resolve : Json → List String → Option Json
  | v, [] => if v = .null then none else some v
  | .dict items, key :: keys => (items.lookup key).bind fun item => resolve item keys
  | _, _ :: _ => none

/-- A value on the way that is no object and not taken for none. -/
def blocked : Json → List String → Bool
  | .dict items, key :: keys =>
    !keys.isEmpty && ((items.lookup key).getD .null).truthy && blocked ((items.lookup key).getD .null) keys
  | _, _ :: _ => true
  | _, [] => false

def unresolved (engineResults : Json) : List (List String) :=
  (keyPaths.map Prod.snd).filter fun path => (resolve engineResults path).isNone

/-- The results are refused without an exception, nothing is written, and the log names what is missing. -/
def Rejects (process : List Found → Procedure Exception Handled Bool) (engineResults : Json) (s : Handled) : Prop :=
  handleEngineResults process engineResults s =
    (.ok false, { s with logged := s.logged ++ [missingLine (unresolved engineResults)] })

theorem resolve_of_not_truthy {v : Json} {key : String} {keys : List String} (h : v.truthy = false) :
    resolve v (key :: keys) = none := by
  cases v with
  | dict items =>
    cases items with
    | nil => rfl
    | cons item items => cases h
  | _ => rfl

theorem traverseKeys_cases {keys : List String} (hne : keys ≠ []) (d : Json) :
    (blocked d keys = true ∧ traverseKeys d keys = .error .attributeError) ∨
      blocked d keys = false ∧ ∃ left, left <:+ keys.tail ∧
        traverseKeys d keys = .ok ((resolve d keys).getD .null, left) := by
  induction keys generalizing d with
  | nil => exact absurd rfl hne
  | cons key keys ih =>
    rw [traverseKeys]
    cases d with
    | dict items =>
      simp only [Json.getD, blocked, resolve]
      generalize hitem : (items.lookup key).getD .null = item
      have hresolve : ∀ keys, ((items.lookup key).bind fun item => resolve item keys) =
          if (items.lookup key).isSome then resolve item keys else none := by
        intro keys
        cases hlookup : items.lookup key with
        | none => rfl
        | some found =>
          rw [hlookup, Option.getD_some] at hitem
          rw [hitem]
          rfl
      rw [hresolve]
      cases keys with
      | nil =>
        refine Or.inr ⟨rfl, [], List.suffix_refl _, ?_⟩
        cases hlookup : items.lookup key with
        | none =>
          rw [hlookup] at hitem
          rw [← hitem]
          rfl
        | some found =>
          by_cases hnull : item = .null
          · rw [hnull]
            rfl
          · simp only [resolve, if_neg hnull, Option.isSome_some, if_true, Option.getD_some]
            rfl
      | cons next rest =>
        simp only [bind, Except.bind, List.isEmpty_cons, Bool.false_eq_true, if_false, Bool.not_false, Bool.true_and]
        cases htruthy : item.truthy with
        | false =>
          refine Or.inr ⟨rfl, next :: rest, List.suffix_refl _, ?_⟩
          rw [resolve_of_not_truthy htruthy, ite_self]
          rfl
        | true =>
          have hsome : (items.lookup key).isSome = true := by
            cases hlookup : items.lookup key with
            | some found => rfl
            | none =>
              rw [hlookup] at hitem
              rw [← hitem] at htruthy
              cases htruthy
          rw [if_pos hsome]
          simp only [Bool.not_true, Bool.false_eq_true, if_false, Bool.true_and]
          rcases ih (by simp) item with h | ⟨hblocked, left, hleft, hrun⟩
          · exact Or.inl h
          · exact Or.inr ⟨hblocked, left, hleft.trans (List.suffix_cons next rest), hrun⟩
    | _ => exact Or.inl ⟨rfl, rfl⟩

variable {engineResults : Json} {process : List Found → Procedure Exception Handled Bool} {s : Handled}

def leftOf (engineResults : Json) (path : List String) : List String :=
  ((traverseKeys engineResults path).toOption.map Prod.snd).getD []

theorem resolve_ne_null (d : Json) (keys : List String) : resolve d keys ≠ some .null := by
  induction keys generalizing d with
  | nil =>
    rw [resolve]
    split_ifs with hnull
    · exact (Option.some_ne_none _).symm
    · exact fun h => hnull (Option.some.inj h)
  | cons key keys ih =>
    cases d with
    | dict items =>
      rw [resolve]
      intro h
      obtain ⟨item, -, hitem⟩ := Option.bind_eq_some_iff.mp h
      exact ih item hitem
    | _ => exact (Option.some_ne_none _).symm

theorem findPath_ok {entry : String × List String} (hne : entry.2 ≠ []) (h : blocked engineResults entry.2 = false) :
    findPath engineResults entry =
      .ok ⟨entry.1, (resolve engineResults entry.2).getD .null, leftOf engineResults entry.2⟩ := by
  rcases traverseKeys_cases hne engineResults with ⟨hblocked, -⟩ | ⟨-, left, -, hrun⟩
  · rw [h] at hblocked
    cases hblocked
  · rw [findPath, leftOf, hrun]
    rfl

theorem findPath_error {entry : String × List String} (hne : entry.2 ≠ []) (h : blocked engineResults entry.2 = true) :
    findPath engineResults entry = .error .attributeError := by
  rcases traverseKeys_cases hne engineResults with ⟨-, hrun⟩ | ⟨hblocked, -⟩
  · rw [findPath, hrun]
    rfl
  · rw [h] at hblocked
    cases hblocked

theorem keyPaths_ne_nil : ∀ entry ∈ keyPaths, entry.2 ≠ [] := by decide

theorem leftOf_length {path : List String} (hpath : path ∈ keyPaths.map Prod.snd) (h : blocked engineResults path = false) :
    ("/".intercalate (leftOf engineResults path)).length < ("/".intercalate path).length := by
  have hshort : ∀ path ∈ keyPaths.map Prod.snd, ∀ left ∈ path.tail.tails,
      ("/".intercalate left).length < ("/".intercalate path).length := by decide +kernel
  obtain ⟨entry, hentry, rfl⟩ := List.mem_map.mp hpath
  rcases traverseKeys_cases (keyPaths_ne_nil entry hentry) engineResults with ⟨hblocked, -⟩ | ⟨-, left, hleft, hrun⟩
  · rw [h] at hblocked
    cases hblocked
  · have hfound : leftOf engineResults entry.2 = left := by
      rw [leftOf, hrun]
      rfl
    rw [hfound]
    exact hshort entry.2 hpath left ((List.mem_tails _ _).mpr hleft)

theorem intercalate_length_lt {α : Type} {sep : String} {f g : α → String} {l : List α} (hne : l ≠ [])
    (h : ∀ a ∈ l, (f a).length < (g a).length) :
    (sep.intercalate (l.map f)).length < (sep.intercalate (l.map g)).length := by
  induction l with
  | nil => exact absurd rfl hne
  | cons a l ih =>
    have ha := h a (by simp)
    cases l with
    | nil => simpa using ha
    | cons b l =>
      have hrest := ih (by simp) fun c hc => h c (by simp [hc])
      simp only [List.map_cons, String.intercalate_cons_cons, String.length_append] at hrest ⊢
      omega

theorem missingLine_leftOf_ne {paths : List (List String)} (hne : paths ≠ [])
    (h : ∀ path ∈ paths, path ∈ keyPaths.map Prod.snd ∧ blocked engineResults path = false) :
    missingLine (paths.map (leftOf engineResults)) ≠ missingLine paths := by
  intro heq
  have hcomp : (paths.map (leftOf engineResults)).map "/".intercalate =
      paths.map fun path => "/".intercalate (leftOf engineResults path) := List.map_map
  have hjoined : ",".intercalate ((paths.map (leftOf engineResults)).map "/".intercalate) =
      ",".intercalate (paths.map "/".intercalate) := (String.append_right_inj _).mp heq
  have hlt : (",".intercalate (paths.map fun path => "/".intercalate (leftOf engineResults path))).length <
      (",".intercalate (paths.map "/".intercalate)).length :=
    intercalate_length_lt hne fun path hpath => leftOf_length (h path hpath).1 (h path hpath).2
  rw [← hcomp, hjoined] at hlt
  exact lt_irrefl _ hlt

theorem mem_unresolved {path : List String} (h : path ∈ unresolved engineResults) : path ∈ keyPaths.map Prod.snd :=
  (List.mem_filter.mp h).1

theorem nulls_left (h : ∀ path ∈ keyPaths.map Prod.snd, blocked engineResults path = false) :
    ∃ data, keyPaths.mapM (findPath engineResults) = .ok data ∧
      (data.filter fun found => found.item = .null).map (·.left) =
        (unresolved engineResults).map (leftOf engineResults) := by
  let found := fun (entry : String × List String) =>
    (⟨entry.1, (resolve engineResults entry.2).getD .null, leftOf engineResults entry.2⟩ : Found)
  refine ⟨keyPaths.map found, mapM_ok fun entry hentry => ?_, ?_⟩
  · exact findPath_ok (keyPaths_ne_nil entry hentry) (h entry.2 (List.mem_map_of_mem hentry))
  · have hnull : ∀ entry, decide ((found entry).item = .null) = (resolve engineResults entry.2).isNone := by
      intro entry
      rw [Bool.eq_iff_iff, decide_eq_true_iff, Option.isNone_iff_eq_none]
      constructor
      · intro hitem
        cases hresolve : resolve engineResults entry.2 with
        | none => rfl
        | some item =>
          simp only [found, hresolve, Option.getD_some] at hitem
          exact absurd (hitem ▸ hresolve) (resolve_ne_null engineResults entry.2)
      · intro hresolve
        simp only [found, hresolve, Option.getD_none]
    rw [List.filter_map, List.map_map, unresolved, List.filter_map, List.map_map]
    have hfilter : ((fun found => decide (found.item = .null)) ∘ found) =
        ((fun path => (resolve engineResults path).isNone) ∘ Prod.snd) := funext hnull
    rw [hfilter]
    rfl

theorem account_ok (h : ∀ path ∈ keyPaths.map Prod.snd, blocked engineResults path = false) :
    ∃ account, traverseKeys engineResults ["input", "host", "account"] = .ok account := by
  have hid := h ["input", "host", "id"] (by decide)
  have hne : ["input", "host", "account"] ≠ [] := by decide
  have haccount := traverseKeys_cases hne engineResults
  rcases haccount with ⟨hblocked, -⟩ | ⟨-, left, -, hrun⟩
  · exfalso
    have hsame : blocked engineResults ["input", "host", "account"] = blocked engineResults ["input", "host", "id"] := by
      cases engineResults with
      | dict items =>
        simp only [blocked, List.isEmpty_cons]
        generalize (items.lookup "input").getD .null = input
        cases input with
        | dict items =>
          simp only [blocked, List.isEmpty_cons]
          generalize (items.lookup "host").getD .null = host
          cases host <;> rfl
        | _ => rfl
      | _ => rfl
    rw [hsame, hid] at hblocked
    cases hblocked
  · exact ⟨_, hrun⟩

variable (process s) in
theorem handleEngineResults_blocked {path : List String} (hpath : path ∈ keyPaths.map Prod.snd)
    (h : blocked engineResults path = true) :
    ∃ e, handleEngineResults process engineResults s = (.error e, s) := by
  obtain ⟨entry, hentry, rfl⟩ := List.mem_map.mp hpath
  cases hdata : keyPaths.mapM (findPath engineResults) with
  | error e =>
    rw [handleEngineResults, hdata]
    exact ⟨e, rfl⟩
  | ok data =>
    obtain ⟨found, hfound⟩ := mapM_isOk ⟨data, hdata⟩ entry hentry
    rw [findPath_error (keyPaths_ne_nil entry hentry) h] at hfound
    cases hfound

theorem handleEngineResults_walked (hmissing : unresolved engineResults ≠ [])
    (h : ∀ path ∈ keyPaths.map Prod.snd, blocked engineResults path = false) :
    handleEngineResults process engineResults s =
      (.ok false, { s with
        logged := s.logged ++ [missingLine ((unresolved engineResults).map (leftOf engineResults))] }) := by
  obtain ⟨data, hdata, hleft⟩ := nulls_left h
  obtain ⟨account, haccount⟩ := account_ok h
  have hnulls : (data.filter fun found => found.item = .null).isEmpty = false := by
    rw [Bool.eq_false_iff, Ne, List.isEmpty_iff]
    intro hnil
    rw [hnil, List.map_nil, eq_comm, List.map_eq_nil_iff] at hleft
    exact hmissing hleft
  rw [handleEngineResults, hdata, lift_ok_bind]
  simp only [hnulls, Bool.false_eq_true, if_false, badPayload, haccount, lift_ok_bind, write_bind, hleft]
  rfl

/-- Results that lack something are never rejected under the full names of what is missing. Nothing is written, and
no exception is raised exactly if no path goes through a value that is no object and not empty. -/
theorem handleEngineResults_incomplete (process : List Found → Procedure Exception Handled Bool) (s : Handled)
    (hmissing : unresolved engineResults ≠ []) :
    ¬Rejects process engineResults s ∧ (handleEngineResults process engineResults s).2.db = s.db ∧
      ((handleEngineResults process engineResults s).1 = .ok false ↔
        ∀ path ∈ keyPaths.map Prod.snd, blocked engineResults path = false) := by
  by_cases h : ∀ path ∈ keyPaths.map Prod.snd, blocked engineResults path = false
  · have hrun : handleEngineResults process engineResults s = _ := handleEngineResults_walked hmissing h
    rw [Rejects, hrun]
    refine ⟨fun heq => ?_, rfl, iff_of_true rfl h⟩
    have hlogged : missingLine ((unresolved engineResults).map (leftOf engineResults)) =
        missingLine (unresolved engineResults) := by simpa using heq
    exact missingLine_leftOf_ne hmissing (fun path hpath => ⟨mem_unresolved hpath, h path (mem_unresolved hpath)⟩) hlogged
  · push Not at h
    obtain ⟨path, hpath, hblocked⟩ := h
    rw [Bool.ne_false_iff] at hblocked
    obtain ⟨e, hrun⟩ := handleEngineResults_blocked process s hpath hblocked
    rw [Rejects, hrun]
    refine ⟨by simp, rfl, iff_of_false (by simp) fun hfree => ?_⟩
    rw [hfree path hpath] at hblocked
    cases hblocked

theorem handleEngineResults_incomplete_empty :
    ¬Rejects (fun _ => pure true) (.dict []) ⟨State.empty, []⟩ ∧
      (handleEngineResults (fun _ => pure true) (.dict []) ⟨State.empty, []⟩).2.db = State.empty ∧
      ((handleEngineResults (fun _ => pure true) (.dict []) ⟨State.empty, []⟩).1 = .ok false ↔
        ∀ path ∈ keyPaths.map Prod.snd, blocked (.dict []) path = false) :=
  handleEngineResults_incomplete (fun _ => pure true) ⟨State.empty, []⟩ (by decide)

/-- Results that are a text raise. -/
theorem text_results_raise :
    unresolved (.dict [("results", .str "none")]) ≠ [] ∧
      ¬Rejects (fun _ => pure true) (.dict [("results", .str "none")]) ⟨State.empty, []⟩ := by
  have hraises : (handleEngineResults (fun _ => pure true) (.dict [("results", .str "none")])
      ⟨State.empty, []⟩).1.toOption = none := by decide +kernel
  refine ⟨by decide, fun h => ?_⟩
  rw [h] at hraises
  cases hraises

end Advisor.Service
