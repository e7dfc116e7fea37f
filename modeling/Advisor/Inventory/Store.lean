import Advisor.Inventory.Parse

/-! The statements the inventory service runs: the staleness filter, the bulk delete
with its dependent rows, and the two upserts of one transaction. -/

namespace Advisor

open Python Django Relational

variable (lib : Library)

namespace Database

/-- `DELETE` of the uploads, reports and acks of some hosts; reports also go with their upload. -/
def purge (db : Database) (gone : Uuid → Bool) : Database :=
  { db with
    uploads := db.uploads.deleteWhere fun row => gone row.host
    reports := db.reports.deleteWhere fun row =>
      gone row.host || (db.uploads.get? row.upload).any fun upload => gone upload.host
    hostAcks := db.hostAcks.deleteWhere fun row => gone row.host }

/-- The rows that `delete_q` selects in the two host tables, and what depends on them. -/
def deleteKeys (db : Database) (selected : String × Uuid → Bool) : Database :=
  let gone := fun u => (db.hosts.get? u).any fun host => selected (host.orgId, host.inventoryId)
  { db.purge gone with
    inventory := db.inventory.deleteWhere fun row => selected row.key
    hosts := db.hosts.deleteWhere fun host => selected (host.orgId, host.inventoryId) }

end Database

/-- `update_fields` lists every column but the two of the key. -/
def AdvisorInventoryHost.merge : Merge AdvisorInventoryHost.key := ⟨fun _ new => new, fun _ _ => rfl⟩

def Host.merge : Merge Host.inventoryId :=
  ⟨fun old new => { new with branchId := old.branchId }, fun _ _ => rfl⟩

namespace Inventory

/-- The columns of the model that are not read by name, in the order they are declared. -/
def inventoryColumns : List Column :=
  [{ name := "account", type := .char 10, null := true },
    { name := "display_name", type := .char 200 },
    { name := "tags", type := .json },
    { name := "workspace_id", type := .uuid, null := true },
    { name := "workspace_name", type := .char 200, null := true },
    { name := "created", type := .dateTime },
    { name := "last_check_in", type := .dateTime },
    { name := "stale_timestamp", type := .dateTime },
    { name := "insights_id", type := .uuid },
    { name := "reporter", type := .char 200 },
    { name := "per_reporter_staleness", type := .json },
    { name := "os_name", type := .char 50, null := true },
    { name := "os_major", type := .integer, null := true },
    { name := "os_minor", type := .integer, null := true },
    { name := "host_type", type := .char 50, null := true },
    { name := "bootc_booted_image", type := .char 512, null := true },
    { name := "bootc_booted_image_digest", type := .char 256, null := true },
    { name := "owner_id", type := .uuid, null := true },
    { name := "rhc_client_id", type := .uuid, null := true },
    { name := "workloads", type := .json },
    { name := "system_update_method", type := .char 50, null := true },
    { name := "workspace_ungrouped", type := .boolean, null := true },
    { name := "infrastructure_type", type := .char 50, null := true },
    { name := "bios_release_date", type := .char 50, null := true },
    { name := "bios_vendor", type := .char 100, null := true },
    { name := "bios_version", type := .char 100, null := true },
    { name := "release", type := .char 200, null := true }]

namespace ParsedInventoryHost

/-- The arguments `to_advisor_model` gives the model, the key and `updated` apart. -/
def toAdvisorModel (p : ParsedInventoryHost) : Except Exception (List (String × Attribute)) := do
  let lastCheckIn ← parseDatetimeAttribute lib p.lastCheckIn
  let staleTimestamp ← parseDatetimeAttribute lib p.staleTimestamp
  return [("display_name", .json p.displayName), ("account", .json p.account), ("tags", .json p.tags),
    ("workspace_id", .json p.workspaceId), ("workspace_name", .json p.workspaceName),
    ("workspace_ungrouped", .json p.workspaceUngrouped), ("created", .json p.created),
    ("last_check_in", lastCheckIn), ("insights_id", .json p.insightsId),
    ("stale_timestamp", staleTimestamp), ("reporter", .json p.reporter),
    ("per_reporter_staleness", .json p.perReporterStaleness), ("os_name", .json p.osName),
    ("os_major", .json p.osMajor), ("os_minor", .json p.osMinor), ("host_type", .json p.hostType),
    ("bootc_booted_image", .json p.bootcBootedImage),
    ("bootc_booted_image_digest", .json p.bootcBootedImageDigest), ("owner_id", .json p.ownerId),
    ("rhc_client_id", .json p.rhcClientId), ("workloads", .json p.workloads),
    ("system_update_method", .json p.systemUpdateMethod),
    ("infrastructure_type", .json p.infrastructureType),
    ("bios_release_date", .json p.biosReleaseDate), ("bios_vendor", .json p.biosVendor),
    ("bios_version", .json p.biosVersion), ("release", .json p.release)]

def inventoryRow (p : ParsedInventoryHost) : Except Exception AdvisorInventoryHost := do
  let attributes ← p.toAdvisorModel lib
  let inventoryId ← required uuidOf p.hostId
  let orgId ← required (charOf lib 50) p.orgId
  let updated ← required (instantOf lib) p.updated
  let columns ← inventoryColumns.mapM fun column => do
    let value ← column.clean lib ((attributes.lookup column.name).getD (.json .null))
    return (column.name, value)
  return { orgId, inventoryId, updated, columns }

def hostRow (p : ParsedInventoryHost) : Except Exception Host := do
  let inventoryId ← required uuidOf p.hostId
  let account ← nullable (charOf lib 10) p.account
  let orgId ← required (charOf lib 50) p.orgId
  let satelliteId ← nullable uuidOf (p.satelliteId.or .null)
  return { inventoryId, account, orgId, satelliteId }

def sameKey (p q : ParsedInventoryHost) : Bool :=
  (Json.list [p.orgId, p.hostId]).eq (.list [q.orgId, q.hostId])

end ParsedInventoryHost

/-- `deduped[key] = item`, unless an item at least as new is already there. -/
def keepNewer (item : ParsedInventoryHost) :
    List ParsedInventoryHost → Except Exception (List ParsedInventoryHost)
  | [] => .ok [item]
  | kept :: rest =>
    if kept.sameKey item then do
      if ← item.updated.gt kept.updated then return item :: rest else return kept :: rest
    else do return kept :: (← keepNewer item rest)

def dedupe (upserts : List ParsedInventoryHost) : Except Exception (List ParsedInventoryHost) :=
  upserts.foldlM (fun deduped item =>
    if item.orgId.hashable && item.hostId.hashable then keepNewer item deduped
    else .error .typeError) []

/-- `existing_ts.get((org_id, host_id))` when the query found the rows of `selected`. -/
def existingTimestamp (db : Database) (selected : List (String × Uuid)) (item : ParsedInventoryHost) :
    Option Instant :=
  match item.orgId, item.hostId with
  | .str o, .str h =>
    (db.inventory.rows.find? fun row =>
      selected.contains row.key && (row.orgId = o && row.inventoryId.toText = h)).map (·.updated)
  | _, _ => none

/-- `parse_datetime(updated) > stored`, for a stored time with an offset. -/
def laterThan (updated : Json) (stored : Instant) : Except Exception Bool :=
  match updated with
  | .str s =>
    match lib.parseDatetime s with
    | .aware t => .ok (stored < t)
    | .naive _ | .unmatched => .error .typeError
    | .invalid => .error .valueError
  | _ => .error .typeError

def filterStaleEvents (db : Database) (upserts : List ParsedInventoryHost) :
    Except Exception (List ParsedInventoryHost) := do
  let unique ← dedupe upserts
  let selected ← unique.mapM fun item => keyCondition lib item.orgId item.hostId
  let fresh ← unique.filterM fun item =>
    match existingTimestamp db (selected.filterMap id) item with
    | none => .ok true
    | some stored => laterThan lib item.updated stored
  return fresh

/-- The two statements of one transaction: the tables change together or not at all. -/
def upsertInstances (db : Database) (inventory : List AdvisorInventoryHost) (hosts : List Host) :
    Except Exception Database :=
  match db.inventory.upsertMany? AdvisorInventoryHost.merge inventory,
      db.hosts.upsertMany? Host.merge hosts with
  | some inventory, some hosts => .ok { db with inventory, hosts }
  | _, _ => .error .cardinalityViolation

def bulkUpsertHosts (db : Database) (upserts : List ParsedInventoryHost) :
    Except Exception Database := do
  let invInstances ← upserts.mapM (·.inventoryRow lib)
  let hostInstances ← upserts.mapM (·.hostRow lib)
  upsertInstances db invInstances hostInstances

def bulkDeleteHosts (db : Database) (deletes : List ParsedDeleteEvent) : Except Exception Database := do
  let selected ← deletes.mapM fun item => keyCondition lib item.orgId item.inventoryId
  return db.deleteKeys fun key => (selected.filterMap id).contains key

/-- The tables as the handler leaves them, and the exception it ends with. -/
structure Outcome where
  db : Database
  raised : Option Exception

def Outcome.of (before : Database) : Except Exception Database → Outcome
  | .ok db => ⟨db, none⟩
  | .error e => ⟨before, some e⟩

/-- The second half of the handler. The staleness filter drops `upserts` to the fresh ones,
and an empty list is not sent to the database. -/
def applyUpserts (db : Database) (upserts : List ParsedInventoryHost) : Except Exception Database := do
  if upserts.isEmpty then return db
  let fresh ← filterStaleEvents lib db upserts
  if fresh.isEmpty then return db
  bulkUpsertHosts lib db fresh

/-- The deletes are committed before the upserts are looked at. -/
def handleInventoryEvent (db : Database) (messages : List Json) : Outcome :=
  let upserts := upsertsOf messages
  let deletes := deletesOf messages
  match if deletes.isEmpty then .ok db else bulkDeleteHosts lib db deletes with
  | .error e => ⟨db, some e⟩
  | .ok deleted => .of deleted (applyUpserts lib deleted upserts)

end Inventory

end Advisor
