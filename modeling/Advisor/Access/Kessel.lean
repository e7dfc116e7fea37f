import Advisor.Python.Json
import Advisor.Streaming.Reading

/-! Permissions, and the client of the relations service: checks of one relation, and the listing of everything a
subject has one to. -/

namespace Advisor.Access

open Python Streaming

/-- A permission of the access service, `app:resource:method`. -/
structure RBACPermission where
  string : String
  app : String
  resource : String
  method : String
  deriving DecidableEq

namespace RBACPermission

/-- The constructor; text with exactly two colons has three parts. -/
def init : Json → Except Exception RBACPermission
  | .str permissionStr =>
    match (permissionStr.toList.splitOn ':').map String.ofList with
    | [app, resource, method] => .ok { string := permissionStr, app, resource, method }
    | _ => .error .valueError
  | _ => .error .typeError

/-- `other in self`. -/
def contains (self other : RBACPermission) : Bool :=
  if self.string = other.string then true
  else if !(self.app = other.app || self.app = "*") then false
  else if !(self.resource = other.resource || self.resource = "*") then false
  else if self.method = "*" then true
  else if self.method = other.method then true
  else other.method = "read" && self.method = "write"

end RBACPermission

inductive ResourceScope where
  | org
  | workspace
  | host
  deriving DecidableEq

inductive Allowed where
  | unspecified
  | true
  | false
  deriving DecidableEq

structure ResourceRef where
  resourceId : String
  resourceType : String
  reporterType : String
  deriving DecidableEq

structure SubjectRef where
  resourceId : String
  resourceType : String
  deriving DecidableEq

structure RepresentationType where
  resourceType : String
  reporterType : String
  deriving DecidableEq

def workspaceObjectType : RepresentationType := ⟨"workspace", "rbac"⟩

def Workspace.toRef (value : String) : ResourceRef := ⟨value, "workspace", "rbac"⟩

def Host.toRef (value : String) : ResourceRef := ⟨value, "host", "hbi"⟩

def RBACPermission.asKesselPermission (permission : RBACPermission) : String :=
  let method := if permission.method = "write" then "edit" else "view"
  permission.app ++ "_" ++ permission.resource.replace "-" "_" ++ "_" ++ method

/-- The stub of the service; a call that raises is `error`. -/
structure Stub where
  check : ResourceRef → String → SubjectRef → Except Unit Allowed
  streamedListObjects : RepresentationType → String → SubjectRef → Nat → Fetch Unit String

def getResources (stub : Stub) (pages : Nat) (objectType : RepresentationType) (relation : String)
    (subject : SubjectRef) (limit : Nat) (fetchAll : Bool) : Except Unit (Option (List String)) :=
  readPages (stub.streamedListObjects objectType relation subject limit) fetchAll pages none

/-- What a permission check returns: a verdict, or the groups a subject sees. -/
inductive KesselResult where
  | verdict (allowed : Bool)
  | hostGroups (ids : List String)
  deriving DecidableEq

def KesselResult.truthy : KesselResult → Bool
  | .verdict allowed => allowed
  | .hostGroups ids => !ids.isEmpty

namespace Kessel

/-- `client` is `none` where the service is not configured. An answer that is unspecified is no. -/
def check (client : Option Stub) (resource : ResourceRef) (relation : String) (subject : SubjectRef) :
    Except Unit Bool :=
  match client with
  | none => .ok false
  | some stub => return (← stub.check resource relation subject) = .true

/-- `none` when there are more than `pages` to read. -/
def hostGroupsFor (client : Option Stub) (pages : Nat) (subject : SubjectRef) : Except Unit (Option KesselResult) :=
  match client with
  | none => .ok (some (.verdict false))
  | some stub =>
    return (← getResources stub pages workspaceObjectType "inventory_host_view" subject 1000 true).map .hostGroups

theorem hostGroupsFor_eq {stub : Stub} {subject : SubjectRef} {rest : Option String → List String} {pages : Nat}
    (h : Serves (stub.streamedListObjects workspaceObjectType "inventory_host_view" subject 1000) rest)
    (hpages : (rest none).length < pages) :
    hostGroupsFor (some stub) pages subject = .ok (some (.hostGroups (rest none))) := by
  unfold hostGroupsFor getResources
  simp only [readPages_eq h pages none hpages, bind, Except.bind]
  rfl

end Kessel

end Advisor.Access
