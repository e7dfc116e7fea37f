import Advisor.Tasks.Requirements

/-! The systems listed for a task against all systems with their unmet requirements: the two lists differ on the
implied requirement of a known OS, which only one of them has. -/

namespace Advisor.Tasks

open Python Procedure Django Relational

section Eligible

variable (postgres : PostgresTexts) (satellites : SatelliteRhcs) (request : SystemsRequest) (s : SystemsState)

def SystemsRequest.asking (allSystems : Bool) : SystemsRequest := { request with allSystems }

def listed : List ListedSystem :=
  match (systems postgres satellites request s).1 with
  | .ok found => found
  | .error _ => []

/-- A host is listed without `all_systems` if with it the host has no unmet requirement, and no list changes the
stored tasks. -/
def EligibleAgrees (row : AdvisorInventoryHost) : Prop :=
  ((∃ system ∈ listed postgres satellites (request.asking false) s, system.host = row) ↔
    ∃ system ∈ listed postgres satellites (request.asking true) s, system.host = row ∧ system.requirements = []) ∧
  ∀ allSystems, (systems postgres satellites (request.asking allSystems) s).2.tasks = s.tasks

/-- The host and the task of the request, where there are such and the filters accept the host: it has a known OS, or
the task names no requirement, or it cannot run the task for another reason. -/
def KnownOsOrUnable (row : AdvisorInventoryHost) : Prop :=
  ∀ task, activeTask request.slug s = some task → row ∈ s.inventory → request.accepts postgres s.inventory row →
    knownOsFilter.holds row ∨ task.filters = [] ∨ ¬ (systemConnectedFilter postgres satellites).holds row ∨
      ∃ req ∈ required postgres satellites task.filters, ¬ req.filter.holds row

end Eligible

section Lists

variable {postgres : PostgresTexts} {satellites : SatelliteRhcs} {request : SystemsRequest} {s : SystemsState}
  {task : FilteredTask} {row : AdvisorInventoryHost} {reqs : List Requirement} {names : List String}

theorem alerts_eq_nil : alerts reqs row = [] ↔ ∀ req ∈ reqs, req.filter.holds row := by
  rw [alerts, List.filterMap_eq_nil_iff]
  refine forall_congr' fun req => imp_congr_right fun _ => ?_
  rw [QObject.holds_not]
  cases req.filter.holds row <;> simp

theorem required_append (more : List String) :
    required postgres satellites (names ++ more) = required postgres satellites names ++ required postgres satellites more :=
  List.filterMap_append

def impliedFilters (names : List String) : List String :=
  (if names = [] then [] else names ++ ["known_os"]) ++ ["system_connected"]

theorem systems_eq (htask : activeTask request.slug s = some task) (allSystems : Bool) :
    systems postgres satellites (request.asking allSystems) s =
      (.ok ((s.inventory.rows.filter fun row => request.accepts postgres s.inventory row &&
        applySystemConnectedFilter postgres satellites (request.asking allSystems) row &&
        systemRequirementsFilter postgres satellites (request.asking allSystems) task.filters row).map
          (listSystem postgres satellites (required postgres satellites (impliedFilters task.filters)))),
        { s with filters := impliedFilters task.filters }) := by
  have hobject : getObject (request.asking allSystems).slug s = (.ok (), { s with filters := task.filters }) := by
    unfold getObject
    rw [read_bind]
    simp only [SystemsRequest.asking, htask]
    rfl
  unfold systems
  rw [bind_of_ok hobject]
  rfl

theorem refused (htask : activeTask request.slug s = none) (allSystems : Bool) :
    systems postgres satellites (request.asking allSystems) s = (.error .notFound, s) := by
  have hobject : getObject (request.asking allSystems).slug s = (.error .notFound, s) := by
    unfold getObject
    rw [read_bind]
    simp only [SystemsRequest.asking, htask]
    rfl
  exact bind_of_error hobject

theorem mem_listed (htask : activeTask request.slug s = some task) (allSystems : Bool) (p : List String → Prop) :
    (∃ system ∈ listed postgres satellites (request.asking allSystems) s, system.host = row ∧ p system.requirements) ↔
      row ∈ s.inventory ∧ (request.accepts postgres s.inventory row &&
        applySystemConnectedFilter postgres satellites (request.asking allSystems) row &&
        systemRequirementsFilter postgres satellites (request.asking allSystems) task.filters row) = true ∧
      p (alerts (required postgres satellites (impliedFilters task.filters)) row) := by
  unfold listed
  simp only [systems_eq htask, List.mem_map, List.mem_filter]
  constructor
  · rintro ⟨_, ⟨host, hhost, rfl⟩, rfl, hp⟩
    exact ⟨hhost.1, hhost.2, hp⟩
  · rintro ⟨hmem, haccepted, hp⟩
    exact ⟨_, ⟨row, ⟨hmem, haccepted⟩, rfl⟩, rfl, hp⟩

theorem implied_met :
    (∀ req ∈ required postgres satellites (impliedFilters names), req.filter.holds row) ↔
      (systemConnectedFilter postgres satellites).holds row = true ∧
        (∀ req ∈ required postgres satellites names, req.filter.holds row) ∧ (names = [] ∨ knownOsFilter.holds row) := by
  have hconnected : required postgres satellites ["system_connected"] =
      [⟨"System must be connected via RHC or Satellite", systemConnectedFilter postgres satellites⟩] := rfl
  have hknown : required postgres satellites ["known_os"] = [⟨"System must have a known OS", knownOsFilter⟩] := rfl
  rw [impliedFilters, required_append, hconnected, List.forall_mem_append, List.forall_mem_singleton]
  by_cases hnames : names = []
  · simp [hnames, required]
  · rw [if_neg hnames, required_append, hknown, List.forall_mem_append, List.forall_mem_singleton,
      or_iff_right hnames]
    exact and_comm

theorem listed_false (htask : activeTask request.slug s = some task) :
    (∃ system ∈ listed postgres satellites (request.asking false) s, system.host = row) ↔
      row ∈ s.inventory ∧ request.accepts postgres s.inventory row = true ∧
        (systemConnectedFilter postgres satellites).holds row = true ∧
        ∀ req ∈ required postgres satellites task.filters, req.filter.holds row := by
  have hlisted := @mem_listed postgres satellites request s task row htask false fun _ => True
  simp only [and_true] at hlisted
  rw [hlisted]
  refine and_congr_right fun _ => ?_
  simp only [applySystemConnectedFilter, systemRequirementsFilter, SystemsRequest.asking, Bool.false_or,
    Bool.and_eq_true, List.all_eq_true, and_assoc]

theorem listed_true (htask : activeTask request.slug s = some task) :
    (∃ system ∈ listed postgres satellites (request.asking true) s, system.host = row ∧ system.requirements = []) ↔
      row ∈ s.inventory ∧ request.accepts postgres s.inventory row = true ∧
        (systemConnectedFilter postgres satellites).holds row = true ∧
        (∀ req ∈ required postgres satellites task.filters, req.filter.holds row) ∧
        (task.filters = [] ∨ knownOsFilter.holds row) := by
  rw [mem_listed htask true (· = []), alerts_eq_nil, implied_met]
  refine and_congr_right fun _ => ?_
  simp only [applySystemConnectedFilter, systemRequirementsFilter, SystemsRequest.asking, Bool.true_or, Bool.and_true]

theorem listed_refused (htask : activeTask request.slug s = none) (allSystems : Bool) :
    listed postgres satellites (request.asking allSystems) s = [] := by
  rw [listed, refused htask]

/-- Neither list saves the task it has changed in memory. -/
theorem systems_tasks (allSystems : Bool) :
    (systems postgres satellites (request.asking allSystems) s).2.tasks = s.tasks := by
  cases htask : activeTask request.slug s with
  | none => rw [refused htask]
  | some task => rw [systems_eq htask]

end Lists

/-- When the systems listed for a task are those without unmet requirements. -/
theorem eligibleAgrees_iff (postgres : PostgresTexts) (satellites : SatelliteRhcs) (request : SystemsRequest)
    (s : SystemsState) (row : AdvisorInventoryHost) :
    EligibleAgrees postgres satellites request s row ↔ KnownOsOrUnable postgres satellites request s row := by
  rw [EligibleAgrees, and_iff_left systems_tasks]
  cases htask : activeTask request.slug s with
  | none =>
    rw [listed_refused htask, listed_refused htask]
    refine iff_of_true (by simp) fun task hsome => ?_
    rw [htask] at hsome
    cases hsome
  | some task =>
    rw [listed_false htask, listed_true htask]
    constructor
    · intro hagrees other hother hmem haccepts
      obtain rfl : task = other := Option.some.inj (htask.symm.trans hother)
      by_cases hconnected : (systemConnectedFilter postgres satellites).holds row = true
      · by_cases hall : ∀ req ∈ required postgres satellites task.filters, req.filter.holds row
        · obtain ⟨-, -, -, -, hknown⟩ := hagrees.mp ⟨hmem, haccepts, hconnected, hall⟩
          exact hknown.elim (fun h => Or.inr (Or.inl h)) Or.inl
        · simp only [not_forall, exists_prop] at hall
          exact Or.inr (Or.inr (Or.inr hall))
      · exact Or.inr (Or.inr (Or.inl hconnected))
    · intro hcondition
      constructor
      · rintro ⟨hmem, haccepts, hconnected, hall⟩
        refine ⟨hmem, haccepts, hconnected, hall, ?_⟩
        rcases hcondition task htask hmem haccepts with h | h | h | ⟨req, hreq, h⟩
        · exact Or.inr h
        · exact Or.inl h
        · exact absurd hconnected h
        · exact absurd (hall req hreq) h
      · rintro ⟨hmem, haccepts, hconnected, hall, -⟩
        exact ⟨hmem, haccepts, hconnected, hall⟩

section UnknownOs

def bootcHost : AdvisorInventoryHost where
  orgId := "1234567"
  inventoryId := 7
  updated := 0
  columns := [("rhc_client_id", some (.uuid 8)), ("bootc_booted_image_digest", some (.text "sha256:7a")),
    ("per_reporter_staleness",
      some (.json (.dict [("puptoo", .dict [("stale_warning_timestamp", .str "2031-01-01T00:00:00+00:00")])])))]

theorem hour_lt : 3600 < 2 ^ 31 := by decide

def bootcUpgrade : FilteredTask where
  id := 1
  slug := "bootc-upgrade"
  type := .ansible
  active := true
  timeout := 3600
  timeout_lt := hour_lt
  filters := ["bootc_image", "not_rhelai_image"]

def bootcState : SystemsState where
  tasks := .single bootcUpgrade
  inventory := .single bootcHost

def plainTexts : PostgresTexts where
  text value := match value with
    | .str s => some s
    | _ => none
  uuid _ := none
  upper s := s
  jsonGreater value now := match value with
    | .str s => now < s
    | _ => false

def bootcRequest : SystemsRequest := { slug := "bootc-upgrade", orgId := "1234567", now := "2025-01-01 00:00:00+00:00" }

theorem unknownOs_disagrees :
    ¬ ∀ (postgres : PostgresTexts) (satellites : SatelliteRhcs) (request : SystemsRequest) (s : SystemsState),
      ∀ row ∈ s.inventory, request.accepts postgres s.inventory row →
        EligibleAgrees postgres satellites request s row := by
  intro h
  have haccepts : bootcRequest.accepts plainTexts bootcState.inventory bootcHost = true := by decide +kernel
  have hagrees := h plainTexts .empty bootcRequest bootcState bootcHost (Table.mem_single.mpr rfl) haccepts
  have hlisted : (listed plainTexts .empty (bootcRequest.asking false) bootcState).map (·.host) = [bootcHost] := by
    decide +kernel
  have halerts : (listed plainTexts .empty (bootcRequest.asking true) bootcState).map (·.requirements) =
      [["System must have a known OS"]] := by
    decide +kernel
  have hhost : bootcHost ∈ (listed plainTexts .empty (bootcRequest.asking false) bootcState).map (·.host) := by
    rw [hlisted]
    exact List.mem_singleton.mpr rfl
  obtain ⟨system, hsystem, -, hnone⟩ := hagrees.1.mp (List.mem_map.mp hhost)
  have hmem := List.mem_map_of_mem (f := (·.requirements)) hsystem
  rw [halerts, hnone] at hmem
  exact absurd (List.mem_singleton.mp hmem) (by simp)

end UnknownOs

end Advisor.Tasks
