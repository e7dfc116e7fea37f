import Advisor.Access.Grants
import Advisor.Access.Kessel
import Advisor.Reports.Systems

/-! Whether a request is let in, from the header with its identity to the permission classes of a view, and what the
classes leave on the request for its queries. -/

namespace Advisor.Access

open Python Django

inductive Failure where
  | authenticationFailed (message : String)
  | raised (e : Exception)
  | assertion
  | rbac (failure : RbacFailure)
  /-- A listing has more pages than were read. -/
  | unfinished

structure Settings extends RbacSettings where
  kesselEnabled : Bool
  /-- `feature_flag_is_enabled(FLAG_ADVISOR_KESSEL_ENABLED)`. -/
  kesselFlag : Bool

/-- What other services answer, and what the libraries make of texts. -/
structure Services where
  decodeHeader : String → Option Json
  loads : Loads
  /-- `str` of a value that is not a text. -/
  render : Json → String
  /-- `make_rbac_request` for an identity. -/
  rbac : Json → Option Response × Nat
  /-- `fetch_default_workspace` for an organisation; `none` where it raises. -/
  defaultWorkspace : Json → Option String
  workspaceCache : List (Json × String)
  kessel : Option Stub
  pages : Nat

structure Attributes where
  hostGroups : Option (List Json) := none
  authSystem : Option String := none
  authSystemType : Option Json := none
  username : Option Json := none
  rbacMessage : String := ""
  rbacMatched : Option (RBACPermission × String) := none
  rbacSoughtPermission : Option String := none

structure ViewMethod where
  resourceName : Option String := none
  resourceScope : Option ResourceScope := none

structure View where
  /-- `get_view_name()`. -/
  name : String
  action : Option String
  basename : Option String
  resourceName : Option String
  resourceScope : Option ResourceScope
  methods : List (String × ViewMethod)

/-- `getattr(view, 'action', None) or 'list'`. -/
def View.viewName (view : View) : String :=
  match view.action with
  | some action => if action = "" then "list" else action
  | none => "list"

variable (settings : Settings) (services : Services)

def authHeaderKey : String := "HTTP_X_RH_IDENTITY"

def isDict : Json → Bool
  | .dict _ => true
  | _ => false

def text : Json → String
  | .str s => s
  | value => services.render value

def getIdentityHeader (header : Option String) : Except Failure (Option Json) :=
  match header with
  | none => .ok none
  | some encoded =>
    match services.decodeHeader encoded with
    | none => .error (.authenticationFailed ("Unparseable " ++ authHeaderKey ++ " data"))
    | some authHeader =>
      if !isDict authHeader then .error (.authenticationFailed (authHeaderKey ++ " is not a structure"))
      else
        match authHeader.field? "identity" with
        | none => .error (.authenticationFailed ("'identity' section not found in " ++ authHeaderKey))
        | some identity =>
          if !isDict identity then
            .error (.authenticationFailed (authHeaderKey ++ " identity field is not a structure"))
          else .ok (some identity)

def len : Json → Except Exception Nat
  | .str s => .ok s.length
  | .list xs => .ok xs.length
  | .dict items => .ok items.length
  | _ => .error .typeError

def isInt : Json → Bool
  | .int _ | .bool _ => true
  | _ => false

def numberAsText (orgId : Json) : Json := if isInt orgId then .str (text services orgId) else orgId

/-- The identity becomes `request.auth`; the organisation beside it is only the name of the user. -/
def authenticate (header : Option String) : Except Failure (Json × Json) := do
  match ← getIdentityHeader services header with
  | none => throw (.authenticationFailed "No identity information")
  | some identity =>
    match identity.field? "org_id" with
    | none =>
      throw (.authenticationFailed ("'org_id' property not found in 'identity' section of " ++ authHeaderKey))
    | some value =>
      let length ← (len (numberAsText services value)).mapError .raised
      if 50 < length then
        throw (.authenticationFailed
          ("Org ID '" ++ text services (numberAsText services value) ++ "' greater than 50 characters"))
      else if (identity.field? "type").isNone then
        throw (.authenticationFailed ("'type' property not found in 'identity' section of " ++ authHeaderKey))
      else return (numberAsText services value, identity)

/-- `user_details_key`: a text, where the type is one of its keys; what cannot be a key raises. -/
def userDetailsKey : Json → Except Exception (Option String)
  | .str "User" => .ok (some "user")
  | .str "ServiceAccount" => .ok (some "service_account")
  | value => if value.hashable then .ok none else .error .typeError

def requestToUserData (identity : Json) : Except Exception Json := do
  if !(← identity.hasKey "type") then return .dict []
  match ← userDetailsKey (← identity.item "type") with
  | none => return .dict []
  | some typeKey =>
    if !(← identity.hasKey typeKey) then return .dict []
    identity.item typeKey

def requestToUsername (identity : Json) (attributes : Attributes) : Except Failure Json :=
  match attributes.username with
  | some username => .ok username
  | none => do
    let userData ← (requestToUserData identity).mapError .raised
    if !(← (userData.hasKey "username").mapError .raised) then
      throw (.authenticationFailed "'username' property not found in 'identity' user details")
    (userData.item "username").mapError .raised

def requestToOrg (identity : Json) : Except Exception Json := do
  if ← identity.hasKey "org_id" then identity.item "org_id" else return .str ""

def identityToSubject (identity : Json) : Except Exception SubjectRef := do
  match ← userDetailsKey (← identity.item "type") with
  | none => throw .valueError
  | some identityField =>
    let userId ← (← identity.item identityField).item "user_id"
    return ⟨"redhat/" ++ text services userId, "principal"⟩

def safeMethods : List String := ["GET", "HEAD", "OPTIONS"]

def useAssignedPermissionsForResource : List String := ["recommendation-results"]

/-- The name of the resource and its scope, of the method first and of the view then. -/
def getResource (view : View) : Except Failure (String × ResourceScope) := do
  let viewMethod := view.methods.lookup view.viewName
  let resource ←
    match view.resourceName, view.basename with
    | some resource, _ => pure resource
    | none, none => throw .assertion
    | none, some basename =>
      match basename.toList.getLast? with
      | none => throw (.raised .indexError)
      | some c => pure (if c = 's' then basename else basename ++ "s")
  let scope := view.resourceScope.getD .workspace
  match viewMethod with
  | none => return (resource, scope)
  | some viewMethod => return (viewMethod.resourceName.getD resource, viewMethod.resourceScope.getD scope)

def getWorkspaceId (orgId : Json) : Option String :=
  match services.workspaceCache.find? fun entry => entry.1.eq orgId with
  | some entry => some entry.2
  | none => services.defaultWorkspace orgId

def assignedPermission (permission : RBACPermission) : String :=
  permission.asKesselPermission ++
    (if useAssignedPermissionsForResource.contains permission.resource then "_assigned" else "")

/-- Whatever raises past the first checks is logged and denies. -/
def hasKesselPermission (scope : ResourceScope) (permission : RBACPermission) (identity : Json)
    (hostId : Option String) : Except Failure KesselResult :=
  if !settings.rbacEnabled then .ok (.verdict true)
  else if settings.rbacUrl = "" then .error (.raised .valueError)
  else
    match scope with
    | .org =>
      match identity.field? "org_id" with
      | none => .ok (.verdict false)
      | some orgId =>
        match getWorkspaceId services orgId, identityToSubject services identity with
        | some workspaceId, .ok subject =>
          if workspaceId = "" then .ok (.verdict false)
          else
            match Kessel.check services.kessel (Workspace.toRef workspaceId) (assignedPermission permission) subject with
            | .ok result => .ok (.verdict result)
            | .error _ => .ok (.verdict false)
        | _, _ => .ok (.verdict false)
    | .workspace =>
      match identityToSubject services identity with
      | .error _ => .ok (.verdict false)
      | .ok subject =>
        match Kessel.hostGroupsFor services.kessel services.pages subject with
        | .error _ => .ok (.verdict false)
        | .ok none => .error .unfinished
        | .ok (some result) => .ok result
    | .host =>
      match hostId, identityToSubject services identity with
      | some hostId, .ok subject =>
        match Kessel.check services.kessel (Host.toRef hostId) permission.asKesselPermission subject with
        | .ok result => .ok (.verdict result)
        | .error _ => .ok (.verdict false)
      | _, _ => .ok (.verdict false)

/-- The checks of the identity before any service is asked: the user's data, or the message they fail with. -/
def checkIdentity (identity : Json) : Except Exception (Except String Json) := do
  if identity = .null then return .error "no identity"
  if !isDict identity then return .error "identity not a dict"
  if !(← identity.hasKey "org_id") then return .error "org_id not in identity"
  let userData ← requestToUserData identity
  if !userData.truthy then return .error "missing user data in request"
  if !(← userData.hasKey "username") then return .error "no \"username\" field in identity type data"
  match ← userData.item "username" with
  | .str _ => return .ok userData
  | _ => return .error "identity type data username not a string"

/-- A permission class: whether it lets the request in, and what it sets on it. -/
abbrev PermissionClass := View → String → Json → Attributes → Except Failure (Bool × Attributes)

def setRbacFailure (attributes : Attributes) (message : String) : Bool × Attributes :=
  (false, { attributes with rbacMessage := message })

def pythonBool (b : Bool) : String := if b then "True" else "False"

def soughtPermissionOf (app resource method : String) : String :=
  app ++ ":" ++ resource ++ ":" ++ (if safeMethods.contains method then "read" else "write")

def finished (permission : String) (result : Bool) (attributes : Attributes) : Bool × Attributes :=
  (result, { attributes with
    rbacSoughtPermission := some permission
    rbacMessage := "InsightsRBACPermission has_permission returns " ++ pythonBool result })

/-- A listing of groups is kept for the queries, and lets in unless it is empty. -/
def askKessel (scope : ResourceScope) (permission : String) (identity userData : Json) (attributes : Attributes) :
    Except Failure (Bool × Attributes) := do
  if !(← (userData.hasKey "user_id").mapError .raised) then
    return setRbacFailure attributes "KESSEL: user_data missing user_id"
  else if scope = .host then
    return (true, { attributes with
      rbacMessage := "KESSEL: ResourceScope is HOST - defer to has_object_permission" })
  else
    let sought ← (RBACPermission.init (.str permission)).mapError .raised
    match ← hasKesselPermission settings services scope sought identity none with
    | .verdict result => return finished permission result attributes
    | .hostGroups ids =>
      return finished permission (!ids.isEmpty) { attributes with hostGroups := some (ids.map .str) }

def askRbac (permission : String) (identity : Json) (attributes : Attributes) :
    Except Failure (Bool × Attributes) := do
  let username ← requestToUsername identity attributes
  let answer ←
    (hasRbacPermission services.loads settings.toRbacSettings (services.rbac identity) permission).mapError .rbac
  return finished permission answer.granted { attributes with
    username := some username
    hostGroups := answer.hostGroups.or attributes.hostGroups
    rbacMatched := answer.matched.or attributes.rbacMatched }

/-- `InsightsRBACPermission`, and with another `app` its subclass for the tasks. -/
def insightsRBACPermission (app : String) : PermissionClass := fun view method identity attributes => do
  let (resource, scope) ← getResource view
  if resource = "denied" then return setRbacFailure attributes "view resource denies access"
  else
    match ← (checkIdentity identity).mapError .raised with
    | .error message => return setRbacFailure attributes message
    | .ok userData =>
      if !settings.rbacEnabled then return (true, { attributes with rbacMessage := "RBAC not enabled" })
      else
        let permission := soughtPermissionOf app resource method
        if settings.kesselEnabled && settings.kesselFlag then
          askKessel settings services scope permission identity userData attributes
        else askRbac settings services permission identity attributes

def certAuthPermission : PermissionClass := fun _ _ identity attributes => do
  if identity = .null then return setRbacFailure attributes "not authenticated"
  if !(← (identity.hasKey "system").mapError .raised) then
    return setRbacFailure attributes "'system' property absent from identity object"
  match ← (identity.item "system").mapError .raised with
  | .dict system =>
    match system.lookup "cn" with
    | none =>
      return setRbacFailure attributes "'identity.system' has no 'cn' property in Cert authentication check"
    | some (.str cn) =>
      if (Uuid.ofText cn).isNone then
        return setRbacFailure attributes "'identity.system.cn' is not a UUID in Cert authentication check"
      return (true, { attributes with
        authSystemType := some ((system.lookup "cert_type").getD (.str "system"))
        authSystem := some cn
        username := some (.str "Certified System")
        rbacMessage := "CertAuthPermission OK" })
    | some _ =>
      return setRbacFailure attributes "'identity.system.cn' is not a string in Cert authentication check"
  | _ => return setRbacFailure attributes "'identity.system' is not an object in Cert authentication check"

def PermissionClass.or (p q : PermissionClass) : PermissionClass := fun view method identity attributes => do
  let (allowed, after) ← p view method identity attributes
  if allowed then return (true, after) else q view method identity after

def defaultAdvisorPermission : PermissionClass :=
  (insightsRBACPermission settings services "advisor").or certAuthPermission

def initial (classes : List PermissionClass) (view : View) (method : String) (header : Option String) :
    Except Failure (Bool × Json × Attributes) := do
  let (_, identity) ← authenticate services header
  let check (state : Bool × Attributes) (permissionClass : PermissionClass) : Except Failure (Bool × Attributes) :=
    if state.1 then permissionClass view method identity state.2 else .ok state
  let (allowed, attributes) ← classes.foldlM check (true, {})
  return (allowed, identity, attributes)

def groupOf : Json → Except Exception (Option Uuid)
  | .null => .ok none
  | group => (uuidOf group).map some

def queryRequest (identity : Json) (attributes : Attributes) (parameters : Reports.Request) :
    Except Exception Reports.Request := do
  let orgId ← requestToOrg identity
  let hostGroups ← (attributes.hostGroups.getD []).mapM groupOf
  return { parameters with
    orgId := if orgId.truthy then text services orgId else ""
    hostGroups
    authSystem := attributes.authSystem.bind Uuid.ofText }

end Advisor.Access
