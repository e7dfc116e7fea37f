import Advisor.Access.Decision

/-! What a request that was let in may see: the way it was let in says which hosts its queries find. -/

namespace Advisor.Access

open Python Django Relational Streaming

variable (settings : Settings) (services : Services)

def InGroup (group : Json) (row : AdvisorInventoryHost) : Prop :=
  group = .null ∧ row.cell "workspace_id" = none ∨ ∃ u, uuidOf group = .ok u ∧ row.cell "workspace_id" = some (.uuid u)

/-- How the service for the permissions of users lets a request in, with the groups it leaves on it. -/
inductive GrantedToUser (app : String) (view : View) (method : String) (identity : Json) : Option (List Json) → Prop
  | unchecked : settings.rbacEnabled = false → GrantedToUser app view method identity none
  | rbac {resource : String} {scope : ResourceScope} {sought : RBACPermission} {data body : Json} {elapsed : Nat}
      {roleList : List Json} {hostGroups : Option (List Json)} :
      getResource view = .ok (resource, scope) →
      RBACPermission.init (.str (soughtPermissionOf app resource method)) = .ok sought →
      services.rbac identity = (some ⟨200, some body⟩, elapsed) → body.item "data" = .ok data →
      iterate data = .ok roleList → (∃ role ∈ roleList, carries sought role = true) →
      findHostGroups services.loads roleList [] = .ok hostGroups → GrantedToUser app view method identity hostGroups
  | kesselOrg {resource workspaceId : String} {sought : RBACPermission} {orgId : Json} {subject : SubjectRef}
      {stub : Stub} :
      getResource view = .ok (resource, .org) →
      RBACPermission.init (.str (soughtPermissionOf app resource method)) = .ok sought →
      identity.field? "org_id" = some orgId → getWorkspaceId services orgId = some workspaceId →
      identityToSubject services identity = .ok subject → services.kessel = some stub →
      stub.check (Workspace.toRef workspaceId) (assignedPermission sought) subject = .ok .true →
      GrantedToUser app view method identity none
  | kesselWorkspace {resource : String} {subject : SubjectRef} {stub : Stub} {ids : List String} :
      getResource view = .ok (resource, .workspace) → identityToSubject services identity = .ok subject →
      services.kessel = some stub →
      getResources stub services.pages workspaceObjectType "inventory_host_view" subject 1000 true = .ok (some ids) →
      ids ≠ [] → GrantedToUser app view method identity (some (ids.map .str))

/-- Why a row may be seen by a request with an identity. -/
inductive Entitled (view : View) (method : String) (identity : Json) (row : AdvisorInventoryHost) : Prop
  | user (hostGroups : Option (List Json)) : GrantedToUser settings services "advisor" view method identity hostGroups →
      (∀ groups, hostGroups = some groups → groups ≠ [] → ∃ group ∈ groups, InGroup group row) →
      Entitled view method identity row
  | certificate (system : List (String × Json)) (cn : String) (owner : Uuid) :
      identity.field? "system" = some (.dict system) → system.lookup "cn" = some (.str cn) →
      Uuid.ofText cn = some owner → row.cell "owner_id" = some (.uuid owner) → Entitled view method identity row

variable {settings services}

theorem holds_equals {column : String} {value : Value} {row : AdvisorInventoryHost} :
    ((Reports.Condition.equals column value).onRow row).holds = true ↔ row.cell column = some value := by
  show (Truth.eq (row.cell column) (some value)).holds = true ↔ _
  cases row.cell column with
  | none => simp [Truth.eq, Truth.holds]
  | some found => simp [Truth.eq_some]

theorem holds_isNull {column : String} {row : AdvisorInventoryHost} :
    ((Reports.Condition.isNull column true).onRow row).holds = true ↔ row.cell column = none := by
  show (Truth.isNull (row.cell column)).holds = true ↔ _
  cases row.cell column <;> simp [Truth.isNull]

theorem holds_both {a b : Reports.Condition} {row : AdvisorInventoryHost} :
    ((Reports.Condition.both a b).onRow row).holds = true ↔ (a.onRow row).holds = true ∧ (b.onRow row).holds = true := by
  show (Truth.and (a.onRow row) (b.onRow row)).holds = true ↔ _
  rw [Truth.holds_and, Bool.and_eq_true]

theorem holds_either {a b : Reports.Condition} {row : AdvisorInventoryHost} :
    ((Reports.Condition.either a b).onRow row).holds = true ↔ (a.onRow row).holds = true ∨ (b.onRow row).holds = true := by
  show (Truth.or (a.onRow row) (b.onRow row)).holds = true ↔ _
  rw [Truth.holds_or, Bool.or_eq_true]

theorem holds_anyOf {conditions : List Reports.Condition} {row : AdvisorInventoryHost} :
    ((Reports.Condition.anyOf conditions).onRow row).holds = true ↔
      conditions = [] ∨ ∃ condition ∈ conditions, (condition.onRow row).holds = true := by
  induction conditions with
  | nil => exact iff_of_true rfl (.inl rfl)
  | cons a rest ih =>
    cases rest with
    | nil => simp [Reports.Condition.anyOf]
    | cons b rest =>
      show ((Reports.Condition.either a (Reports.Condition.anyOf (b :: rest))).onRow row).holds = true ↔ _
      rw [holds_either, ih]
      simp

theorem holds_allOf {conditions : List Reports.Condition} {row : AdvisorInventoryHost} :
    ((Reports.Condition.allOf conditions).onRow row).holds = true ↔
      ∀ condition ∈ conditions, (condition.onRow row).holds = true := by
  induction conditions with
  | nil => exact iff_of_true rfl (by simp)
  | cons a rest ih =>
    show ((Reports.Condition.both a (Reports.Condition.allOf rest)).onRow row).holds = true ↔ _
    rw [holds_both, ih]
    simp

def GroupsAllow (hostGroups : List (Option Uuid)) (row : AdvisorInventoryHost) : Prop :=
  hostGroups = [] ∨ ∃ group ∈ hostGroups, row.cell "workspace_id" = group.map .uuid

def namesFilter (groupNames : List String) : Reports.Condition :=
  Reports.Condition.anyOf (groupNames.map fun name =>
    if name = "" then Reports.Condition.equals "workspace_ungrouped" (.bool true)
    else Reports.Condition.equals "workspace_name" (.text name))

theorem holds_getHostGroupFilter (filters : Reports.HostFilters) (row : AdvisorInventoryHost) :
    ((Reports.getHostGroupFilter filters).onRow row).holds = true ↔
      GroupsAllow filters.hostGroups row ∧ ((namesFilter filters.groupNames).onRow row).holds = true := by
  unfold Reports.getHostGroupFilter
  split_ifs with hnone
  · rw [hnone.1, hnone.2]
    exact iff_of_true rfl ⟨.inl rfl, rfl⟩
  · rw [holds_both, holds_anyOf, List.map_eq_nil_iff]
    refine and_congr (or_congr Iff.rfl ?_) Iff.rfl
    simp only [List.mem_map, exists_exists_and_eq_and]
    refine exists_congr fun group => and_congr_right fun _ => ?_
    cases group with
    | none => exact holds_isNull
    | some id => exact holds_equals

/-- With the groups of the request set aside, the other conditions are the same. -/
theorem holds_condition (filters : Reports.HostFilters) (row : AdvisorInventoryHost) :
    (filters.condition.onRow row).holds = true ↔
      ({ filters with hostGroups := [] }.condition.onRow row).holds = true ∧ GroupsAllow filters.hostGroups row := by
  have hgroup : ((Reports.getHostGroupFilter filters).onRow row).holds = true ↔
      ((Reports.getHostGroupFilter { filters with hostGroups := [] }).onRow row).holds = true ∧
        GroupsAllow filters.hostGroups row := by
    rw [holds_getHostGroupFilter, holds_getHostGroupFilter]
    constructor
    · rintro ⟨hgroups, hnames⟩
      exact ⟨⟨.inl rfl, hnames⟩, hgroups⟩
    · rintro ⟨⟨-, hnames⟩, hgroups⟩
      exact ⟨hgroups, hnames⟩
  unfold Reports.HostFilters.condition
  rw [holds_allOf, holds_allOf]
  simp only [List.mem_cons, List.not_mem_nil, or_false, forall_eq_or_imp, forall_eq, hgroup]
  tauto

variable {castTime : Reports.CastTime} {tables : Reports.Tables}

theorem mem_forAccount_groups (request : Reports.Request) (row : AdvisorInventoryHost) :
    row ∈ Reports.forAccount castTime tables request ↔
      row ∈ Reports.forAccount castTime tables { request with hostGroups := [] } ∧ GroupsAllow request.hostGroups row := by
  unfold Reports.forAccount
  by_cases horg : request.orgId = ""
  · simp [horg]
  · rw [if_neg horg, if_neg horg, List.mem_filter, List.mem_filter]
    have hwhere : (Reports.forAccountWhere castTime tables request row).holds = true ↔
        (Reports.forAccountWhere castTime tables { request with hostGroups := [] } row).holds = true ∧
          GroupsAllow request.hostGroups row := by
      simp only [Reports.forAccountWhere, Truth.holds_and, Bool.and_eq_true]
      rw [holds_condition]
      constructor
      · rintro ⟨htags, ⟨hcondition, hgroups⟩, hrest⟩
        exact ⟨⟨htags, hcondition, hrest⟩, hgroups⟩
      · rintro ⟨⟨htags, hcondition, hrest⟩, hgroups⟩
        exact ⟨htags, ⟨hcondition, hgroups⟩, hrest⟩
    rw [hwhere, and_assoc]

/-- A row that a query finds is of the organisation, of its groups, and of the system that asks, if one does. -/
theorem forAccount_spec {request : Reports.Request} {row : AdvisorInventoryHost}
    (h : row ∈ Reports.forAccount castTime tables request) :
    row.orgId = request.orgId ∧ GroupsAllow request.hostGroups row ∧
      ∀ owner, request.authSystem = some owner → row.cell "owner_id" = some (.uuid owner) := by
  refine ⟨?_, ((mem_forAccount_groups request row).mp h).2, fun owner howner => ?_⟩
  · unfold Reports.forAccount at h
    split_ifs at h
    · cases h
    · have hwhere := (List.mem_filter.mp h).2
      simp only [Reports.forAccountWhere, Truth.holds_and, Bool.and_eq_true] at hwhere
      simpa [Truth.eq_some] using hwhere.2.2.2.2.2
  · unfold Reports.forAccount at h
    split_ifs at h
    · cases h
    · have hwhere := (List.mem_filter.mp h).2
      simp only [Reports.forAccountWhere, Truth.holds_and, Bool.and_eq_true] at hwhere
      have hcondition := hwhere.2.1
      unfold Reports.HostFilters.condition at hcondition
      rw [holds_allOf] at hcondition
      have hcert := hcondition (Reports.certAuthQ request.toHostFilters) (by simp)
      unfold Reports.certAuthQ at hcert
      rw [howner] at hcert
      exact holds_equals.mp hcert

section Granted

variable {view : View} {method : String} {identity : Json} {attributes after : Attributes}

theorem check_granted {client : Option Stub} {resource : ResourceRef} {relation : String} {subject : SubjectRef}
    (h : Kessel.check client resource relation subject = .ok true) :
    ∃ stub, client = some stub ∧ stub.check resource relation subject = .ok .true := by
  unfold Kessel.check at h
  cases client with
  | none => cases h
  | some stub =>
    obtain ⟨allowed, hallowed, hverdict⟩ := bind_eq_ok.mp h
    refine ⟨stub, rfl, ?_⟩
    rw [hallowed, of_decide_eq_true (Except.ok.inj hverdict)]

theorem hostGroupsFor_granted {client : Option Stub} {pages : Nat} {subject : SubjectRef} {result : KesselResult}
    (h : Kessel.hostGroupsFor client pages subject = .ok (some result)) (htrue : result.truthy = true) :
    ∃ stub ids, client = some stub ∧ ids ≠ [] ∧ result = .hostGroups ids ∧
      getResources stub pages workspaceObjectType "inventory_host_view" subject 1000 true = .ok (some ids) := by
  unfold Kessel.hostGroupsFor at h
  cases client with
  | none =>
    cases h
    cases htrue
  | some stub =>
    obtain ⟨listing, hlisting, hresult⟩ := bind_eq_ok.mp h
    obtain ⟨ids, rfl, rfl⟩ := Option.map_eq_some_iff.mp (Except.ok.inj hresult)
    refine ⟨stub, ids, rfl, ?_, rfl, hlisting⟩
    rintro rfl
    cases htrue

theorem kessel_granted {scope : ResourceScope} {sought : RBACPermission} {result : KesselResult} {resource app : String}
    (hview : getResource view = .ok (resource, scope)) (hscope : scope ≠ .host) (henabled : settings.rbacEnabled = true)
    (hsought : RBACPermission.init (.str (soughtPermissionOf app resource method)) = .ok sought)
    (h : hasKesselPermission settings services scope sought identity none = .ok result) (htrue : result.truthy = true) :
    (result = .verdict true ∧ GrantedToUser settings services app view method identity none) ∨
      ∃ ids, result = .hostGroups ids ∧ ids ≠ [] ∧
        GrantedToUser settings services app view method identity (some (ids.map .str)) := by
  unfold hasKesselPermission at h
  rw [henabled, if_neg (by simp)] at h
  split_ifs at h with hurl
  cases scope with
  | org =>
    simp only at h
    split at h
    · cases h
      cases htrue
    · rename_i orgId horg
      split at h
      · rename_i workspaceId subject hworkspace hsubject
        split_ifs at h with hempty
        · cases h
          cases htrue
        · split at h
          · rename_i verdict hcheck
            cases h
            obtain rfl : verdict = true := htrue
            obtain ⟨stub, hstub, hallowed⟩ := check_granted hcheck
            exact .inl ⟨rfl, .kesselOrg hview hsought horg hworkspace hsubject hstub hallowed⟩
          · cases h
            cases htrue
      · cases h
        cases htrue
  | workspace =>
    simp only at h
    split at h
    · cases h
      cases htrue
    · rename_i subject hsubject
      split at h
      · cases h
        cases htrue
      · cases h
      · rename_i found hfound
        cases h
        obtain ⟨stub, ids, hstub, hids, rfl, hread⟩ := hostGroupsFor_granted hfound htrue
        exact .inr ⟨ids, rfl, hids, .kesselWorkspace hview hsubject hstub hread hids⟩
  | host => exact absurd rfl hscope

theorem rbac_granted {scope : ResourceScope} {answer : Answer} {resource app : String}
    (hview : getResource view = .ok (resource, scope)) (henabled : settings.rbacEnabled = true)
    (h : hasRbacPermission services.loads settings.toRbacSettings (services.rbac identity)
      (soughtPermissionOf app resource method) = .ok answer) (htrue : answer.granted = true) :
    GrantedToUser settings services app view method identity answer.hostGroups := by
  unfold hasRbacPermission at h
  rw [henabled, if_neg (by simp)] at h
  split_ifs at h with hurl
  split at h
  · cases h
  · cases h
    cases htrue
  · rename_i sought response elapsed hsought hfetched
    split_ifs at h with h500 h200
    · cases h
      cases htrue
    · split at h
      · cases h
      · rename_i body hbody
        rw [mapError_eq_ok] at h
        unfold answerOf at h
        obtain ⟨haskey, -, h⟩ := bind_eq_ok.mp h
        split_ifs at h with hkey
        · cases h
          cases htrue
        · obtain ⟨data, hdata, h⟩ := bind_eq_ok.mp h
          obtain ⟨roleList, hroles, h⟩ := bind_eq_ok.mp h
          obtain ⟨hostGroups, hgroups, h⟩ := bind_eq_ok.mp h
          obtain ⟨found, hfound, h⟩ := bind_eq_ok.mp h
          cases found with
          | none =>
            cases h
            cases htrue
          | some matched =>
            cases h
            have hcarried := ((matchingPermission_iff roleList).mp ⟨matched, hfound⟩).1
            have hresponse : services.rbac identity = (some ⟨200, some body⟩, elapsed) := by
              rw [hfetched, ← h200, ← hbody]
            exact .rbac hview hsought hresponse hdata hroles hcarried hgroups
    · cases h
      cases htrue

/-- What the class for users does to a request without groups. -/
structure UserSpec (settings : Settings) (services : Services) (app : String) (view : View) (method : String)
    (identity : Json) (attributes : Attributes) (allowed : Bool) (after : Attributes) : Prop where
  authSystem : after.authSystem = attributes.authSystem
  granted : allowed = true → attributes.hostGroups = none → (∀ resource, getResource view ≠ .ok (resource, .host)) →
    GrantedToUser settings services app view method identity after.hostGroups

theorem askKessel_spec {scope : ResourceScope} {resource app : String} {userData : Json} {allowed : Bool}
    (hview : getResource view = .ok (resource, scope)) (henabled : settings.rbacEnabled = true)
    (h : askKessel settings services scope (soughtPermissionOf app resource method) identity userData attributes =
      .ok (allowed, after)) : UserSpec settings services app view method identity attributes allowed after := by
  unfold askKessel at h
  obtain ⟨hasId, -, h⟩ := bind_eq_ok.mp h
  split_ifs at h with hid hhost
  · cases h
    exact ⟨rfl, nofun⟩
  · cases h
    refine ⟨rfl, fun _ _ hscope => ?_⟩
    subst hhost
    exact absurd hview (hscope resource)
  · obtain ⟨sought, hsought, h⟩ := bind_eq_ok.mp h
    obtain ⟨result, hresult, h⟩ := bind_eq_ok.mp h
    rw [mapError_eq_ok] at hsought
    cases result with
    | verdict verdict =>
      cases h
      refine ⟨rfl, fun hallowed hnone _ => ?_⟩
      rw [hallowed] at hresult
      rcases kessel_granted hview hhost henabled hsought hresult rfl with ⟨-, hgranted⟩ | ⟨ids, hids, -⟩
      · rw [← hnone] at hgranted
        exact hgranted
      · cases hids
    | hostGroups ids =>
      cases h
      refine ⟨rfl, fun hallowed _ _ => ?_⟩
      rcases kessel_granted hview hhost henabled hsought hresult hallowed with ⟨hverdict, -⟩ | ⟨_, hids, -, hgranted⟩
      · cases hverdict
      · cases hids
        exact hgranted

theorem askRbac_spec {scope : ResourceScope} {resource app : String} {allowed : Bool}
    (hview : getResource view = .ok (resource, scope)) (henabled : settings.rbacEnabled = true)
    (h : askRbac settings services (soughtPermissionOf app resource method) identity attributes = .ok (allowed, after)) :
    UserSpec settings services app view method identity attributes allowed after := by
  unfold askRbac at h
  obtain ⟨username, -, h⟩ := bind_eq_ok.mp h
  obtain ⟨answer, hanswer, h⟩ := bind_eq_ok.mp h
  rw [mapError_eq_ok] at hanswer
  cases h
  refine ⟨rfl, fun hallowed hnone _ => ?_⟩
  show GrantedToUser settings services app view method identity (answer.hostGroups.or attributes.hostGroups)
  rw [hnone, Option.or_none]
  exact rbac_granted hview henabled hanswer hallowed

theorem insights_spec {app : String} {allowed : Bool}
    (h : insightsRBACPermission settings services app view method identity attributes = .ok (allowed, after)) :
    UserSpec settings services app view method identity attributes allowed after := by
  unfold insightsRBACPermission at h
  obtain ⟨⟨resource, scope⟩, hview, h⟩ := bind_eq_ok.mp h
  simp only at h
  by_cases hdenied : resource = "denied"
  · rw [if_pos hdenied] at h
    cases h
    exact ⟨rfl, nofun⟩
  · rw [if_neg hdenied] at h
    obtain ⟨checked, -, h⟩ := bind_eq_ok.mp h
    cases checked with
    | error message =>
      cases h
      exact ⟨rfl, nofun⟩
    | ok userData =>
      simp only at h
      split_ifs at h with hdisabled hkessel
      · cases h
        refine ⟨rfl, fun _ hnone _ => ?_⟩
        rw [show ({ attributes with rbacMessage := "RBAC not enabled" } : Attributes).hostGroups = none from hnone]
        exact .unchecked (by simpa using hdisabled)
      · exact askKessel_spec hview (by simpa using hdisabled) h
      · exact askRbac_spec hview (by simpa using hdisabled) h

theorem cert_spec {allowed : Bool} (h : certAuthPermission view method identity attributes = .ok (allowed, after)) :
    allowed = true → ∃ system cn owner, identity.field? "system" = some (.dict system) ∧
      system.lookup "cn" = some (.str cn) ∧ Uuid.ofText cn = some owner ∧ after.authSystem = some cn := by
  rintro rfl
  unfold certAuthPermission at h
  by_cases hnull : identity = .null
  · rw [if_pos hnull] at h
    cases h
  · rw [if_neg hnull] at h
    obtain ⟨hasSystem, -, h⟩ := bind_eq_ok.mp h
    by_cases hsystem : (!hasSystem) = true
    · rw [if_pos hsystem] at h
      cases h
    · rw [if_neg hsystem] at h
      obtain ⟨value, hvalue, h⟩ := bind_eq_ok.mp h
      rw [mapError_eq_ok, Json.item_eq_ok] at hvalue
      split at h
      · rename_i system
        split at h
        · cases h
        · rename_i cn hcn
          split_ifs at h with huuid
          · cases h
          · cases h
            obtain ⟨owner, howner⟩ := Option.isSome_iff_exists.mp (by simpa [Option.isSome_iff_ne_none] using huuid : (Uuid.ofText cn).isSome)
            exact ⟨system, cn, owner, hvalue, hcn, howner, rfl⟩
        · cases h
      · cases h

theorem default_spec (h : defaultAdvisorPermission settings services view method identity {} = .ok (true, after))
    (hscope : ∀ resource, getResource view ≠ .ok (resource, .host)) :
    GrantedToUser settings services "advisor" view method identity after.hostGroups ∨
      ∃ system cn owner, identity.field? "system" = some (.dict system) ∧ system.lookup "cn" = some (.str cn) ∧
        Uuid.ofText cn = some owner ∧ after.authSystem = some cn := by
  unfold defaultAdvisorPermission PermissionClass.or at h
  obtain ⟨⟨allowed, middle⟩, hinsights, h⟩ := bind_eq_ok.mp h
  have hspec := insights_spec hinsights
  simp only at h
  by_cases hallowed : allowed = true
  · rw [if_pos hallowed] at h
    cases h
    exact .inl (hspec.granted hallowed rfl hscope)
  · rw [if_neg hallowed] at h
    exact .inr (cert_spec h rfl)

end Granted

section Request

variable {view : View} {method : String} {header : Option String} {identity : Json} {attributes : Attributes}
  {parameters request : Reports.Request}

theorem authenticate_org {orgId : Json} (h : authenticate services header = .ok (orgId, identity)) :
    ∃ value, identity.field? "org_id" = some value := by
  unfold authenticate at h
  obtain ⟨found, -, h⟩ := bind_eq_ok.mp h
  cases found with
  | none => cases h
  | some found =>
    simp only at h
    split at h
    · cases h
    · rename_i value hvalue
      obtain ⟨length, -, h⟩ := bind_eq_ok.mp h
      split_ifs at h with hlong htype
      cases h
      exact ⟨value, hvalue⟩

theorem initial_default {allowed : Bool}
    (h : initial services [defaultAdvisorPermission settings services] view method header =
      .ok (allowed, identity, attributes)) :
    (∃ orgId, authenticate services header = .ok (orgId, identity)) ∧
      defaultAdvisorPermission settings services view method identity {} = .ok (allowed, attributes) := by
  unfold initial at h
  obtain ⟨⟨orgId, authenticated⟩, hauthenticate, h⟩ := bind_eq_ok.mp h
  obtain ⟨⟨verdict, after⟩, hchecked, h⟩ := bind_eq_ok.mp h
  cases h
  rw [List.foldlM_cons] at hchecked
  obtain ⟨state, hdefault, hdone⟩ := bind_eq_ok.mp hchecked
  cases hdone
  exact ⟨⟨orgId, hauthenticate⟩, hdefault⟩

/-- The parameters of a query beside the organisation, the groups and the system are those of the request. -/
theorem queryRequest_spec (h : queryRequest services identity attributes parameters = .ok request) :
    ∃ orgId hostGroups, requestToOrg identity = .ok orgId ∧ (attributes.hostGroups.getD []).mapM groupOf = .ok hostGroups ∧
      request = { parameters with
        orgId := if orgId.truthy then text services orgId else ""
        hostGroups
        authSystem := attributes.authSystem.bind Uuid.ofText } := by
  unfold queryRequest at h
  obtain ⟨orgId, horg, h⟩ := bind_eq_ok.mp h
  obtain ⟨hostGroups, hgroups, h⟩ := bind_eq_ok.mp h
  cases h
  exact ⟨orgId, hostGroups, horg, hgroups, rfl⟩

theorem requestToOrg_field {orgId : Json} (h : identity.field? "org_id" = some orgId) :
    requestToOrg identity = .ok orgId := by
  unfold requestToOrg
  rw [Json.hasKey_of_field h, h]
  exact Json.item_eq_ok.mpr h

theorem groupOf_eq {group : Json} (h : group ≠ .null) : groupOf group = (uuidOf group).map some := by
  cases group with
  | null => exact absurd rfl h
  | _ => rfl

theorem inGroup_of_groupOf {group : Json} {found : Option Uuid} {row : AdvisorInventoryHost}
    (h : groupOf group = .ok found) (hcell : row.cell "workspace_id" = found.map .uuid) : InGroup group row := by
  by_cases hnull : group = .null
  · subst hnull
    cases h
    exact .inl ⟨rfl, hcell⟩
  · rw [groupOf_eq hnull] at h
    obtain ⟨u, hu, rfl⟩ := map_eq_ok.mp h
    exact .inr ⟨u, hu, hcell⟩

/-- Whoever is let in finds hosts of the own organisation alone, and those alone that the way in is for. -/
theorem entitled_of_visible (hscope : ∀ resource, getResource view ≠ .ok (resource, .host))
    (hlet : initial services [defaultAdvisorPermission settings services] view method header =
      .ok (true, identity, attributes))
    (hquery : queryRequest services identity attributes parameters = .ok request) {row : AdvisorInventoryHost}
    (hrow : row ∈ Reports.forAccount castTime tables request) :
    (∃ orgId, identity.field? "org_id" = some orgId ∧ row.orgId = text services orgId) ∧
      Entitled settings services view method identity row := by
  obtain ⟨⟨_, hauthenticate⟩, hdefault⟩ := initial_default hlet
  obtain ⟨value, hvalue⟩ := authenticate_org hauthenticate
  obtain ⟨orgId, hostGroups, horg, hgroups, rfl⟩ := queryRequest_spec hquery
  obtain ⟨hown, hallow, hsystem⟩ := forAccount_spec hrow
  rw [requestToOrg_field hvalue] at horg
  cases horg
  constructor
  · refine ⟨value, hvalue, ?_⟩
    by_cases htruthy : value.truthy = true
    · rw [hown]
      exact if_pos htruthy
    · -- without an organisation there is no query
      exfalso
      unfold Reports.forAccount at hrow
      rw [if_pos (if_neg htruthy)] at hrow
      cases hrow
  · rcases default_spec hdefault hscope with hgranted | ⟨system, cn, owner, hfield, hcn, howner, hauth⟩
    · refine .user attributes.hostGroups hgranted fun groups hsome hne => ?_
      rw [hsome, Option.getD_some] at hgroups
      rcases hallow with hnone | ⟨found, hfound, hcell⟩
      · exfalso
        obtain ⟨first, rest, rfl⟩ := List.exists_cons_of_ne_nil hne
        have hlengths := (mapM_forall₂ hgroups).length_eq
        rw [show hostGroups = [] from hnone] at hlengths
        cases hlengths
      · obtain ⟨group, hgroup, hgroupOf⟩ := (mapM_mem hgroups).mp hfound
        exact ⟨group, hgroup, inGroup_of_groupOf hgroupOf hcell⟩
    · refine .certificate system cn owner hfield hcn howner (hsystem owner ?_)
      show attributes.authSystem.bind Uuid.ofText = some owner
      rw [hauth]
      exact howner

end Request

section Systems

def systemViewSet (name : String) (action : Option String) : View where
  name
  action
  basename := some "system"
  resourceName := some "recommendation-results"
  resourceScope := some .workspace
  methods := [("list", {}), ("retrieve", {}), ("reports", {})]

theorem getResource_systemViewSet (name : String) (action : Option String) :
    getResource (systemViewSet name action) = .ok ("recommendation-results", .workspace) := by
  unfold getResource
  cases h : (systemViewSet name action).methods.lookup (systemViewSet name action).viewName with
  | none => rfl
  | some viewMethod =>
    obtain ⟨before, after, hsplit, -⟩ := List.lookup_eq_some_iff.mp h
    have hmem : ((systemViewSet name action).viewName, viewMethod) ∈ (systemViewSet name action).methods := by
      rw [hsplit]
      exact List.mem_append_right _ List.mem_cons_self
    simp only [systemViewSet, List.mem_cons, List.not_mem_nil, or_false, Prod.mk.injEq] at hmem
    rcases hmem with ⟨-, rfl⟩ | ⟨-, rfl⟩ | ⟨-, rfl⟩ <;> rfl

theorem init_sought (method : String) : ∃ sought,
    RBACPermission.init (.str (soughtPermissionOf "advisor" "recommendation-results" method)) = .ok sought := by
  rw [← isOk_iff]
  unfold soughtPermissionOf
  by_cases hsafe : safeMethods.contains method = true
  · rw [if_pos hsafe]
    decide +kernel
  · rw [if_neg hsafe]
    decide +kernel

/-- The relations service decides, and `listing` is all it has for the user who asks. -/
structure Asked (settings : Settings) (services : Services) (header : Option String) (identity : Json)
    (listing : List String) : Prop where
  enabled : settings.rbacEnabled = true
  url : settings.rbacUrl ≠ ""
  kessel : (settings.kesselEnabled && settings.kesselFlag) = true
  authenticated : ∃ orgId, authenticate services header = .ok (orgId, identity)
  user : ∃ userData, checkIdentity identity = .ok (.ok userData) ∧ userData.hasKey "user_id" = .ok true
  noSystem : identity.hasKey "system" = .ok false
  served : ∃ subject stub rest, identityToSubject services identity = .ok subject ∧ services.kessel = some stub ∧
    Serves (stub.streamedListObjects workspaceObjectType "inventory_host_view" subject 1000) rest ∧ rest none = listing
  read : listing.length < services.pages

variable {header : Option String} {identity : Json} {listing : List String}

theorem insights_asked (h : Asked settings services header identity listing) (name : String) (action : Option String)
    (method : String) : ∃ permission, insightsRBACPermission settings services "advisor" (systemViewSet name action) method
      identity {} = .ok (finished permission (!listing.isEmpty) { hostGroups := some (listing.map .str) }) := by
  obtain ⟨userData, huser, huserId⟩ := h.user
  obtain ⟨subject, stub, rest, hsubject, hstub, hserves, hlisting⟩ := h.served
  obtain ⟨sought, hsought⟩ := init_sought method
  refine ⟨soughtPermissionOf "advisor" "recommendation-results" method, ?_⟩
  have hgroups : Kessel.hostGroupsFor (some stub) services.pages subject = .ok (some (.hostGroups listing)) := by
    rw [← hlisting]
    exact Kessel.hostGroupsFor_eq hserves (by rw [hlisting]; exact h.read)
  have hkessel : hasKesselPermission settings services .workspace sought identity none = .ok (.hostGroups listing) := by
    unfold hasKesselPermission
    rw [h.enabled, if_neg (by simp), if_neg h.url]
    simp only [hsubject, hstub, hgroups]
  unfold insightsRBACPermission
  simp only [getResource_systemViewSet, bind, Except.bind, huser, Except.mapError, h.enabled, h.kessel]
  rw [if_neg (by decide)]
  simp only [Bool.not_true, Bool.false_eq_true, if_false, if_true]
  unfold askKessel
  simp only [huserId, hsought, hkessel, bind, Except.bind, Except.mapError]
  rfl

theorem cert_asked (h : Asked settings services header identity listing) (view : View) (method : String)
    (attributes : Attributes) : ∃ after, certAuthPermission view method identity attributes = .ok (false, after) := by
  have hdict : identity ≠ .null := by
    rintro rfl
    have hnone := h.noSystem
    cases hnone
  unfold certAuthPermission
  rw [if_neg hdict, h.noSystem]
  exact ⟨_, rfl⟩

theorem initial_asked (h : Asked settings services header identity listing) (name : String) (action : Option String)
    (method : String) : ∃ attributes, initial services [defaultAdvisorPermission settings services]
      (systemViewSet name action) method header = .ok (!listing.isEmpty, identity, attributes) ∧
        (listing ≠ [] → attributes.hostGroups = some (listing.map .str) ∧ attributes.authSystem = none) := by
  obtain ⟨orgId, hauthenticated⟩ := h.authenticated
  obtain ⟨permission, hinsights⟩ := insights_asked h name action method
  have hinitial : initial services [defaultAdvisorPermission settings services] (systemViewSet name action) method header =
      (defaultAdvisorPermission settings services (systemViewSet name action) method identity {}).map
        fun state => (state.1, identity, state.2) := by
    unfold initial
    rw [hauthenticated]
    simp only [bind, Except.bind, List.foldlM_cons, List.foldlM_nil, if_true]
    cases defaultAdvisorPermission settings services (systemViewSet name action) method identity {} <;> rfl
  have hdefault : defaultAdvisorPermission settings services (systemViewSet name action) method identity {} =
      if !listing.isEmpty then .ok (finished permission (!listing.isEmpty) { hostGroups := some (listing.map .str) })
      else certAuthPermission (systemViewSet name action) method identity
        (finished permission (!listing.isEmpty) { hostGroups := some (listing.map .str) }).2 := by
    unfold defaultAdvisorPermission PermissionClass.or
    rw [hinsights]
    cases listing <;> rfl
  rw [hinitial, hdefault]
  cases listing with
  | nil =>
    obtain ⟨after, hafter⟩ := cert_asked h (systemViewSet name action) method
      (finished permission false { hostGroups := some [] }).2
    refine ⟨after, ?_, fun hne => absurd rfl hne⟩
    exact congrArg (fun result => result.map fun state : Bool × Attributes => (state.1, identity, state.2)) hafter
  | cons id listing => exact ⟨_, rfl, fun _ => ⟨rfl, rfl⟩⟩

theorem groups_listed (hids : ∀ id ∈ listing, (Uuid.ofText id).isSome) :
    ∃ hostGroups, (listing.map Json.str).mapM groupOf = .ok hostGroups ∧
      ∀ group, group ∈ hostGroups ↔ ∃ id ∈ listing, ∃ u, Uuid.ofText id = some u ∧ group = some u := by
  have hgroupOf : ∀ id ∈ listing, ∃ u, Uuid.ofText id = some u ∧ groupOf (.str id) = .ok (some u) := by
    intro id hid
    obtain ⟨u, hu⟩ := Option.isSome_iff_exists.mp (hids id hid)
    refine ⟨u, hu, ?_⟩
    rw [groupOf_eq (by simp), uuidOf, hu]
    rfl
  obtain ⟨hostGroups, hgroups⟩ := mapM_of_isOk (f := groupOf) (l := listing.map Json.str) (by
    intro group hgroup
    obtain ⟨id, hid, rfl⟩ := List.mem_map.mp hgroup
    obtain ⟨u, -, hu⟩ := hgroupOf id hid
    exact ⟨_, hu⟩)
  refine ⟨hostGroups, hgroups, fun group => ?_⟩
  rw [mapM_mem hgroups]
  constructor
  · rintro ⟨_, hmem, hgroup⟩
    obtain ⟨id, hid, rfl⟩ := List.mem_map.mp hmem
    obtain ⟨u, hu, hok⟩ := hgroupOf id hid
    exact ⟨id, hid, u, hu, (Except.ok.inj (hok.symm.trans hgroup)).symm⟩
  · rintro ⟨id, hid, u, hu, rfl⟩
    obtain ⟨u', hu', hok⟩ := hgroupOf id hid
    cases hu.symm.trans hu'
    exact ⟨_, List.mem_map_of_mem hid, hok⟩

variable (castTime tables) in
/-- A user is let in to the systems exactly if the listing has a workspace, however it comes in pages, and finds those of
the organisation's systems that are in a workspace listed. -/
theorem visible_iff_listed (h : Asked settings services header identity listing)
    (hids : ∀ id ∈ listing, (Uuid.ofText id).isSome) (name : String) (action : Option String) (method : String)
    (parameters : Reports.Request) :
    ∃ attributes orgId, identity.field? "org_id" = some orgId ∧
      initial services [defaultAdvisorPermission settings services] (systemViewSet name action) method header =
        .ok (!listing.isEmpty, identity, attributes) ∧
      (listing ≠ [] → ∃ request, queryRequest services identity attributes parameters = .ok request ∧
        ∀ row, row ∈ Reports.forAccount castTime tables request ↔
          row ∈ Reports.forAccount castTime tables { parameters with
            orgId := if orgId.truthy then text services orgId else ""
            hostGroups := []
            authSystem := none } ∧
          ∃ id ∈ listing, ∃ u, Uuid.ofText id = some u ∧ row.cell "workspace_id" = some (.uuid u)) := by
  obtain ⟨attributes, hinitial, hattributes⟩ := initial_asked h name action method
  obtain ⟨_, hauthenticated⟩ := h.authenticated
  obtain ⟨orgId, horg⟩ := authenticate_org hauthenticated
  refine ⟨attributes, orgId, horg, hinitial, fun hne => ?_⟩
  obtain ⟨hgroups, hsystem⟩ := hattributes hne
  obtain ⟨hostGroups, hmap, hmem⟩ := groups_listed hids
  refine ⟨_, by
    unfold queryRequest
    rw [requestToOrg_field horg, hgroups, Option.getD_some, hmap, hsystem]
    rfl, fun row => ?_⟩
  rw [mem_forAccount_groups]
  refine and_congr Iff.rfl ?_
  constructor
  · rintro (hnone | ⟨group, hgroup, hcell⟩)
    · exfalso
      obtain ⟨id, hid⟩ := List.exists_mem_of_ne_nil _ hne
      obtain ⟨u, hu⟩ := Option.isSome_iff_exists.mp (hids id hid)
      have hlisted := (hmem (some u)).mpr ⟨id, hid, u, hu, rfl⟩
      rw [show hostGroups = [] from hnone] at hlisted
      cases hlisted
    · obtain ⟨id, hid, u, hu, rfl⟩ := (hmem group).mp hgroup
      exact ⟨id, hid, u, hu, hcell⟩
  · rintro ⟨id, hid, u, hu, hcell⟩
    exact .inr ⟨some u, (hmem _).mpr ⟨id, hid, u, hu, rfl⟩, hcell⟩

def twoPages : Stub where
  check _ _ _ := .ok .unspecified
  streamedListObjects _ _ _ _ token :=
    if token = some "next" then .ok [⟨"00000000-0000-0000-0000-000000000008", some ""⟩]
    else .ok [⟨"00000000-0000-0000-0000-000000000007", some "next"⟩]

def testingIdentity : Json :=
  .dict [("org_id", .str "1234567"), ("type", .str "User"),
    ("user", .dict [("username", .str "testing"), ("user_id", .str "16777216")])]

def kesselSettings : Settings := { rbacEnabled := true, rbacUrl := "http://rbac", kesselEnabled := true, kesselFlag := true }

def twoPageServices : Services where
  decodeHeader _ := some (.dict [("identity", testingIdentity)])
  loads _ := none
  render _ := ""
  rbac _ := (none, 0)
  defaultWorkspace _ := none
  workspaceCache := []
  kessel := some twoPages
  pages := 3

theorem asked_testing : Asked kesselSettings twoPageServices (some "") testingIdentity
    ["00000000-0000-0000-0000-000000000007", "00000000-0000-0000-0000-000000000008"] where
  enabled := rfl
  url := by decide
  kessel := rfl
  authenticated := ⟨.str "1234567", by rfl⟩
  user := ⟨.dict [("username", .str "testing"), ("user_id", .str "16777216")], by rfl, by rfl⟩
  noSystem := by rfl
  served := by
    refine ⟨⟨"redhat/16777216", "principal"⟩, twoPages, fun token =>
      if token = some "next" then ["00000000-0000-0000-0000-000000000008"]
      else ["00000000-0000-0000-0000-000000000007", "00000000-0000-0000-0000-000000000008"], by rfl, rfl, ⟨?_⟩, rfl⟩
    intro token
    by_cases h : token = some "next"
    · exact ⟨_, if_pos h, if_pos h⟩
    · exact ⟨_, if_neg h, if_neg h⟩
  read := by decide

def groupedHost : AdvisorInventoryHost where
  orgId := "1234567"
  inventoryId := 1
  updated := 0
  columns := [("workspace_id", some (.uuid 8)),
    ("per_reporter_staleness", some (.json (.dict [("puptoo", .dict [("stale_warning_timestamp", .str "")])])))] ++
      Reports.requiredColumns.map fun name => (name, some (.text ""))

def testingHosts : Table Host.inventoryId := .single { inventoryId := 1, account := none, orgId := "1234567" }

theorem testing_reportRules :
    ∀ report ∈ (.empty : Table CurrentReport.key), ((.empty : Table Rule.id).get? report.rule).isSome := by
  intro report hreport
  cases hreport

theorem testing_reportHosts :
    ∀ report ∈ (.empty : Table CurrentReport.key), (testingHosts.get? report.host).isSome := by
  intro report hreport
  cases hreport

theorem testing_complete : ∀ row ∈ (.single groupedHost : Table AdvisorInventoryHost.key), Reports.Complete row := by
  intro row hrow
  rw [Table.mem_single.mp hrow, Reports.complete_iff]
  decide +kernel

def testingTables : Reports.Tables where
  rules := .empty
  categoryOf _ := 1
  reports := .empty
  acks := .empty
  hostAcks := .empty
  hosts := testingHosts
  inventory := .single groupedHost
  reportRules := testing_reportRules
  reportHosts := testing_reportHosts
  complete := testing_complete

theorem groupedHost_found : groupedHost ∈ Reports.forAccount (fun _ => some 1) testingTables
    { orgId := "1234567", now := 0, hostGroups := [some 7, some 8] } := by
  decide +kernel

/-- Both pages are read, and the host in the workspace of the second is found. -/
theorem visible_twoPages : ∃ attributes request, initial twoPageServices
    [defaultAdvisorPermission kesselSettings twoPageServices] (systemViewSet "System List" none) "GET" (some "") =
      .ok (true, testingIdentity, attributes) ∧
    queryRequest twoPageServices testingIdentity attributes { orgId := "", now := 0 } = .ok request ∧
      groupedHost ∈ Reports.forAccount (fun _ => some 1) testingTables request := by
  obtain ⟨attributes, orgId, horg, hinitial, hfound⟩ := visible_iff_listed (fun _ => some 1) testingTables asked_testing
    (by decide +kernel) "System List" none "GET" { orgId := "", now := 0 }
  obtain ⟨request, hrequest, hrow⟩ := hfound (by decide)
  obtain rfl : orgId = .str "1234567" := (Option.some.inj horg).symm
  refine ⟨attributes, request, hinitial, hrequest, (hrow groupedHost).mpr ⟨by decide +kernel, ?_⟩⟩
  exact ⟨"00000000-0000-0000-0000-000000000008", by decide, 8, by decide +kernel, by decide +kernel⟩

end Systems

theorem entitled_groupedHost :
    (∃ orgId, testingIdentity.field? "org_id" = some orgId ∧ groupedHost.orgId = text twoPageServices orgId) ∧
      Entitled kesselSettings twoPageServices (systemViewSet "System List" none) "GET" testingIdentity groupedHost := by
  have hscope : ∀ resource, getResource (systemViewSet "System List" none) ≠ .ok (resource, .host) := by
    intro resource h
    rw [getResource_systemViewSet] at h
    cases h
  obtain ⟨attributes, hinitial, hattributes⟩ := initial_asked asked_testing "System List" none "GET"
  obtain ⟨hgroups, hsystem⟩ := hattributes (by decide)
  have hquery : queryRequest twoPageServices testingIdentity attributes { orgId := "", now := 0 } =
      .ok { orgId := "1234567", now := 0, hostGroups := [some 7, some 8] } := by
    unfold queryRequest
    rw [hgroups, hsystem]
    rfl
  exact entitled_of_visible hscope hinitial hquery groupedHost_found

end Advisor.Access
