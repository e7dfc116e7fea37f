import Advisor.Models

/-! What `parse_created_event` and `parse_deleted_event` read from a message. -/

namespace Advisor.Inventory

open Python Django

structure ParsedInventoryHost where
  hostId : Json
  displayName : Json
  account : Json
  orgId : Json
  tags : Json
  workspaceId : Json
  workspaceName : Json
  workspaceUngrouped : Json
  created : Json
  updated : Json
  lastCheckIn : Json
  insightsId : Json
  satelliteId : Json
  staleTimestamp : Json
  reporter : Json
  perReporterStaleness : Json
  osName : Json
  osMajor : Json
  osMinor : Json
  hostType : Json
  bootcBootedImage : Json
  bootcBootedImageDigest : Json
  ownerId : Json
  rhcClientId : Json
  workloads : Json
  systemUpdateMethod : Json
  infrastructureType : Json
  biosReleaseDate : Json
  biosVendor : Json
  biosVersion : Json
  release : Json

structure ParsedDeleteEvent where
  inventoryId : Json
  orgId : Json

/-- The results of `parse_created_event`; `malformed` is its `None`. -/
inductive CreatedEvent where
  | host (parsed : ParsedInventoryHost)
  | insightsOnlyFiltered
  | malformed

def nilUuid : String := "00000000-0000-0000-0000-000000000000"

/-- `value.get(key) if isinstance(value, dict) else None`. -/
def dictGet (value : Json) (key : String) : Json :=
  match value with
  | .dict items => (items.lookup key).getD .null
  | _ => .null

def groupAttribute (groups : Json) (key : String) : Except Exception Json :=
  if groups.truthy then do (← groups.first).getD key .null else .ok .null

def readCreatedEvent (host systemProfile : Json) (required : String → Except Exception Json) :
    Except Exception ParsedInventoryHost := do
  let osInfo ← systemProfile.getD "operating_system" (.dict [])
  let bootc ← systemProfile.getD "bootc_status" (.dict [])
  let bootcBooted := match bootc with
    | .dict items => (items.lookup "booted").getD (.dict [])
    | _ => .dict []
  let workloads := match ← systemProfile.getD "workloads" (.dict []) with
    | .dict items => .dict items
    | _ => .dict []
  let groups ← required "groups"
  return {
    hostId := ← required "id"
    displayName := ← required "display_name"
    account := ← host.getD "account" .null
    orgId := ← required "org_id"
    tags := ← required "tags"
    workspaceId := ← groupAttribute groups "id"
    workspaceName := ← groupAttribute groups "name"
    workspaceUngrouped := ← groupAttribute groups "ungrouped"
    created := ← required "created"
    updated := ← required "updated"
    lastCheckIn := ← required "last_check_in"
    insightsId := ← required "insights_id"
    satelliteId := ← host.getD "satellite_id" .null
    staleTimestamp := ← required "stale_timestamp"
    reporter := ← required "reporter"
    perReporterStaleness := ← required "per_reporter_staleness"
    osName := dictGet osInfo "name"
    osMajor := dictGet osInfo "major"
    osMinor := dictGet osInfo "minor"
    hostType := ← systemProfile.getD "host_type" .null
    bootcBootedImage := dictGet bootcBooted "image"
    bootcBootedImageDigest := dictGet bootcBooted "image_digest"
    ownerId := (← systemProfile.getD "owner_id" .null).or .null
    rhcClientId := (← systemProfile.getD "rhc_client_id" .null).or .null
    workloads
    systemUpdateMethod := ← systemProfile.getD "system_update_method" .null
    infrastructureType := ← systemProfile.getD "infrastructure_type" .null
    biosReleaseDate := ← systemProfile.getD "bios_release_date" .null
    biosVendor := ← systemProfile.getD "bios_vendor" .null
    biosVersion := ← systemProfile.getD "bios_version" .null
    release := ← systemProfile.getD "release" .null }

def requiredKeys : List String :=
  ["id", "display_name", "org_id", "tags", "groups", "created", "updated", "last_check_in",
    "insights_id", "stale_timestamp", "system_profile", "reporter", "per_reporter_staleness"]

def parseCreatedEvent (message : Json) : Except Exception CreatedEvent := do
  let hostData := (← message.getD "host" (.dict [])).or (.dict [])
  let _ ← hostData.getD "org_id" .null
  let found : Except Exception Json := do
    let metadata ← message.item "metadata"
    let _ ← metadata.item "request_id"
    let host ← message.item "host"
    requiredKeys.forM fun key => do
      let _ ← host.item key
    return host
  match found with
  | .error (.keyError _) => return .malformed
  | .error e => throw e
  | .ok host =>
    let insightsId ← host.item "insights_id"
    if !insightsId.truthy then return .malformed
    if insightsId.eq (.str nilUuid) then return .insightsOnlyFiltered
    return .host (← readCreatedEvent host (← host.item "system_profile") host.item)

def parseDeletedEvent (message : Json) : Except Exception (Option ParsedDeleteEvent) :=
  let found : Except Exception ParsedDeleteEvent := do
    let _ ← message.item "request_id"
    let inventoryId ← message.item "id"
    let _ ← message.getD "account" .null
    let orgId ← message.item "org_id"
    return ⟨inventoryId, orgId⟩
  match found with
  | .error (.keyError _) => .ok none
  | .error e => .error e
  | .ok event => .ok (some event)

/-- A message the handler keeps for the second half of its work. -/
inductive Parsed where
  | upsert (host : ParsedInventoryHost)
  | delete (event : ParsedDeleteEvent)

/-- One turn of the parsing loop: `none` when the message is skipped, for whatever reason. -/
def parseMessage (message : Json) : Option Parsed :=
  if message.contains "type" then
    match message.item "type" with
    | .ok (.str "created") | .ok (.str "updated") =>
      match parseCreatedEvent message with
      | .ok (.host parsed) => some (.upsert parsed)
      | _ => none
    | .ok (.str "delete") =>
      match parseDeletedEvent message with
      | .ok (some event) => some (.delete event)
      | _ => none
    | _ => none
  else none

def upsertsOf (messages : List Json) : List ParsedInventoryHost :=
  messages.filterMap fun message =>
    match parseMessage message with
    | some (.upsert host) => some host
    | _ => none

def deletesOf (messages : List Json) : List ParsedDeleteEvent :=
  messages.filterMap fun message =>
    match parseMessage message with
    | some (.delete event) => some event
    | _ => none

end Advisor.Inventory
