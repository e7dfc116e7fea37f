import Advisor.Django.Conditions
import Advisor.Reports.Filters
import Advisor.Tasks.Execute

/-! The systems of a task: those that can run it, or all of them with the reasons why they cannot. -/

namespace Advisor.Tasks

open Python Procedure Django Relational

/-- A task with the names of its requirements, as its row has them. -/
structure FilteredTask extends Task where
  filters : List String := []

/-- `UPPER`, and the order of JSON values against a text. -/
structure PostgresTexts extends Postgres where
  upper : String → String
  jsonGreater : Json → String → Bool

abbrev HostQ := QObject AdvisorInventoryHost Value

def textLookup (column : String) (test : String → Bool) : HostQ :=
  .lookup (·.cell column) fun value => match value with
    | .text s => test s
    | _ => false

def integerIn (column : String) (values : List Int) : HostQ :=
  .lookup (·.cell column) fun value => match value with
    | .int i => values.contains i
    | _ => false

def notNull (column : String) : HostQ := .isNull (·.cell column) false

section Filters

def centosFilter : HostQ := textLookup "os_name" fun s => "CentOS".toList.isPrefixOf s.toList

def rhelFilter : HostQ := textLookup "os_name" fun s => s = "RHEL"

def knownOsFilter : HostQ := notNull "os_name"

def osV7Filter : HostQ := integerIn "os_major" [7]

def osV8Filter : HostQ := integerIn "os_major" [8]

def osV7V8Filter : HostQ := integerIn "os_major" [7, 8]

def directConnectFilter : HostQ := notNull "rhc_client_id"

def bootcImageFilter : HostQ := notNull "bootc_booted_image_digest"

def rhelaiImage (image : String) : Bool :=
  image.toList.tails.any fun rest =>
    "/rhelai".toList.isPrefixOf rest && ((rest.drop 7).dropWhile (·.isDigit)).head? = some '/'

def rhelaiImageFilter : HostQ := textLookup "bootc_booted_image" rhelaiImage

variable (postgres : PostgresTexts) (satellites : SatelliteRhcs)

/-- A tag that is there twice, or is no UUID, fails the whole query. It then lists nothing, and is left out here. -/
def satelliteRhcFilter : HostQ :=
  .expression fun row =>
    match tagQuery postgres.toPostgres row "satellite_instance_id" with
    | .ok (some tag) => ((postgres.uuid tag).bind satellites.clientOf).isSome
    | _ => false

def systemConnectedFilter : HostQ := .either directConnectFilter (satelliteRhcFilter postgres satellites)

structure Requirement where
  alert : String
  filter : HostQ

def requirements : List (String × Requirement) :=
  [("direct_connect", ⟨"System must be directly connected to RHC", directConnectFilter⟩),
    ("satellite_rhc", ⟨"System must be connected via Satellite", satelliteRhcFilter postgres satellites⟩),
    ("system_connected",
      ⟨"System must be connected via RHC or Satellite", systemConnectedFilter postgres satellites⟩),
    ("known_os", ⟨"System must have a known OS", knownOsFilter⟩),
    ("centos", ⟨"System must be CentOS", centosFilter⟩),
    ("rhel", ⟨"System must be RHEL", rhelFilter⟩),
    ("os_v7", ⟨"System must be OS version 7", osV7Filter⟩),
    ("os_v8", ⟨"System must be OS version 8", osV8Filter⟩),
    ("os_v7_v8", ⟨"System must be OS version 7 or 8", osV7V8Filter⟩),
    ("bootc_image", ⟨"System must be a bootc image", bootcImageFilter⟩),
    ("rhelai_image", ⟨"System must be a RHEL AI image", rhelaiImageFilter⟩),
    ("not_rhelai_image", ⟨"System must not be a RHEL AI image", .not rhelaiImageFilter⟩)]

def required (names : List String) : List Requirement :=
  names.filterMap fun name => (requirements postgres satellites).lookup name

end Filters

/-- A request for the systems of a task, with its parameters read. -/
structure SystemsRequest extends Reports.HostFilters where
  slug : String
  orgId : String
  now : String
  allSystems : Bool := false
  displayName : String := ""
  osVersions : List (Int × Int) := []
  osNames : List String := []
  operatingSystems : List (String × Int × Int) := []

namespace SystemsRequest

variable (postgres : PostgresTexts) (request : SystemsRequest)

def filterOnDisplayName (row : AdvisorInventoryHost) : Bool :=
  request.displayName = "" || (textLookup "display_name" fun name =>
    (postgres.upper name).toList.tails.any ((postgres.upper request.displayName).toList.isPrefixOf ·)).holds row

def osVersionQ (version : Int × Int) : HostQ :=
  .both (integerIn "os_major" [version.1]) (integerIn "os_minor" [version.2])

def osNameQ (name : String) : HostQ := textLookup "os_name" fun s => postgres.upper s = postgres.upper name

def anyOf (qs : List HostQ) (row : AdvisorInventoryHost) : Bool := qs.isEmpty || qs.any (·.holds row)

def filterOnOsVersion : AdvisorInventoryHost → Bool := anyOf (request.osVersions.map osVersionQ)

def filterOnOsName : AdvisorInventoryHost → Bool := anyOf (request.osNames.map (osNameQ postgres))

def filterOnOs : AdvisorInventoryHost → Bool :=
  anyOf (request.operatingSystems.map fun os => .both (osNameQ postgres os.1) (osVersionQ os.2))

def accepts (inventory : Table AdvisorInventoryHost.key) (row : AdvisorInventoryHost) : Bool :=
  (Reports.filterOnHostTags request.toHostFilters inventory request.orgId row.inventoryId).holds &&
    ((Reports.filterOnSystemProfile request.toHostFilters).onRow row).holds &&
    ((Reports.getHostGroupFilter request.toHostFilters).onRow row).holds && request.filterOnDisplayName postgres row &&
    request.filterOnOsVersion row && request.filterOnOsName postgres row && request.filterOnOs postgres row &&
    row.orgId = request.orgId &&
    (Reports.jsonAt ["puptoo", "stale_warning_timestamp"] (row.cell "per_reporter_staleness")).any
      (postgres.jsonGreater · request.now)

end SystemsRequest

/-- The stored tasks and hosts, and the list of filters that the task of the request has in memory. -/
structure SystemsState where
  tasks : Table fun task : FilteredTask => task.id
  inventory : Table AdvisorInventoryHost.key
  filters : List String := []

structure ListedSystem where
  host : AdvisorInventoryHost
  connectionType : String
  lastCheckIn : Option Json
  requirements : List String

section Systems

variable (postgres : PostgresTexts) (satellites : SatelliteRhcs) (request : SystemsRequest)

def activeTask (slug : String) (s : SystemsState) : Option FilteredTask :=
  s.tasks.rows.find? fun task => task.slug = slug && task.active

inductive SystemsRefused where
  | notFound

def getObject (slug : String) : Procedure SystemsRefused SystemsState Unit := do
  let task ← read (activeTask slug)
  match task with
  | none => raise .notFound
  | some task => write fun s => { s with filters := task.filters }

def applySystemConnectedFilter (row : AdvisorInventoryHost) : Bool :=
  request.allSystems || (systemConnectedFilter postgres satellites).holds row

def systemRequirementsFilter (names : List String) (row : AdvisorInventoryHost) : Bool :=
  request.allSystems || (required postgres satellites names).all (·.filter.holds row)

/-- `+=` changes the list of the task in place. -/
def buildTaskSystemRequirements : Procedure SystemsRefused SystemsState (List Requirement) := do
  write fun s => { s with filters := if s.filters = [] then [] else s.filters ++ ["known_os"] }
  write fun s => { s with filters := s.filters ++ ["system_connected"] }
  read fun s => required postgres satellites s.filters

/-- The `CASE` of a requirement is NULL, and removed, where its negated filter does not hold. -/
def alerts (reqs : List Requirement) (row : AdvisorInventoryHost) : List String :=
  reqs.filterMap fun req => if (QObject.not req.filter).holds row then some req.alert else none

def connectionType (row : AdvisorInventoryHost) : String :=
  if directConnectFilter.holds row then "direct"
  else if (satelliteRhcFilter postgres satellites).holds row then "satellite" else "none"

def listSystem (reqs : List Requirement) (row : AdvisorInventoryHost) : ListedSystem where
  host := row
  connectionType := connectionType postgres satellites row
  lastCheckIn := Reports.jsonAt ["puptoo", "last_check_in"] (row.cell "per_reporter_staleness")
  requirements := alerts reqs row

/-- The arguments of `filter` are there before those of `annotate`. The pages and their order are left out. -/
def systems : Procedure SystemsRefused SystemsState (List ListedSystem) := do
  getObject request.slug
  let names ← read (·.filters)
  let reqs ← buildTaskSystemRequirements postgres satellites
  read fun s =>
    (s.inventory.rows.filter fun row =>
      request.accepts postgres s.inventory row && applySystemConnectedFilter postgres satellites request row &&
        systemRequirementsFilter postgres satellites request names row).map (listSystem postgres satellites reqs)

end Systems

end Advisor.Tasks
