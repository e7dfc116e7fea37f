import Mathlib.Data.List.Sort
import Advisor.Service.Hooks

/-! Storing the reports of an upload: the host, found or created first, then under its lock the upload,
the reports to insert, to update and to delete, and the messages about them. -/

namespace Advisor.Service

open Python Procedure Django Relational

def overwriteHost (host : Host) : Update Host.inventoryId :=
  ⟨fun row => if row.inventoryId = host.inventoryId then host else row, fun row => by
    by_cases h : row.inventoryId = host.inventoryId <;> simp [h]⟩

def updateHostRow (host : Host) : Run Bool := fun s =>
  (.ok (s.hosts.get? host.inventoryId).isSome,
    { s with hosts := s.hosts.updateWhere (fun row => row.inventoryId = host.inventoryId) (overwriteHost host) })

def insertHostRow (host : Host) : Run Unit := fun s =>
  match s.hosts.insert? host with
  | some hosts => (.ok (), { s with hosts })
  | none => (.error .integrityError, s)

def insertAcks (acks : List Ack) : Run Unit := fun s =>
  match s.acks.insertMany? acks with
  | some acks => (.ok (), { s with acks })
  | none => (.error .integrityError, s)

def State.autoackRules (s : State) : List Rule :=
  s.rules.rows.filter fun rule => rule.tags.contains autoackTag && !s.acks.rows.any fun ack => ack.rule = rule.id

namespace UploadCall

variable (call : UploadCall)

def autoack (rule : Rule) : Ack where
  rule := rule.id
  account := call.account
  orgId := call.orgId
  justification := "Disabled by default - enable to begin detection"
  createdBy := "Red Hat Insights"

def newHost : Host where
  inventoryId := call.inventoryId
  account := call.account
  orgId := call.orgId

/-- The ids are texts, which no stored id equals: those that are given are always updated. -/
def updateHost (host : Host) : Host :=
  { host with
    satelliteId := call.satelliteId.orElse fun _ => host.satelliteId
    branchId := call.branchId.orElse fun _ => host.branchId }

def updatesHost : Bool := call.satelliteId.isSome || call.branchId.isSome

/-- The rows of the call can hold its account and its organisation. -/
def identified : Bool := charStorable 50 call.orgId && call.account.all (charStorable 10)

/-- A statement that looks for the organisation. -/
def selecting {α : Type} (p : Run α) : Run α :=
  if call.orgId.toList.contains '\x00' then raise .valueError else p

/-- A statement that writes the account and the organisation. -/
def identifying {α : Type} (p : Run α) : Run α :=
  if call.identified then p else raise (charError (call.orgId :: call.account.toList))

end UploadCall

section Host

variable (faults : Faults) (call : UploadCall)

def createAutoacks : Run Unit := do
  let known ← statement faults .orgUploads (call.selecting (read fun s =>
    s.uploads.rows.any fun upload => upload.orgId = call.orgId && upload.current))
  if known then pure ()
  else do
    let rules ← statement faults .autoackRules (read State.autoackRules)
    if rules.isEmpty then pure ()
    else statement faults .ackInsert (call.identifying (insertAcks (rules.map call.autoack)))

/-- `host_obj.save()` of a new instance with a key: an update, and an insert if there was no row. -/
def saveNewHost (host : Host) : Run Unit := do
  let updated ← statement faults .hostUpdate (call.identifying (updateHostRow host))
  if updated then pure () else statement faults .hostInsert (call.identifying (insertHostRow host))

def findOrCreateHost : Run Unit := do
  let found ← statement faults .hostLookup (read fun s => s.hosts.get? call.inventoryId)
  match found with
  | none => do
    createAutoacks faults call
    saveNewHost faults call (call.updateHost call.newHost)
  | some host =>
    if call.updatesHost then do
      let _ ← statement faults .hostUpdate (updateHostRow (call.updateHost host))
      pure ()
    else pure ()

end Host

def lockHost (call : UploadCall) : Run Unit := fun s =>
  if (s.hosts.get? call.inventoryId).isSome then (.ok (), s) else (.error .doesNotExist, s)

def State.storedReports (s : State) (call : UploadCall) : List StoredReport :=
  let joined := (s.reports.rows.filter fun report =>
    report.host = call.inventoryId && report.orgId = call.orgId).filterMap fun report =>
      (s.rules.get? report.rule).map fun rule => ⟨rule, report.impactedDate⟩
  joined.insertionSort fun a b => a.rule.ruleId ≤ b.rule.ruleId

def UploadCall.ownUpload (call : UploadCall) (upload : Upload) : Bool :=
  upload.host = call.inventoryId && upload.orgId = call.orgId && upload.source = call.source

def nextUploadId (s : State) : Nat := (s.uploads.rows.map (·.id)).foldr max 0 + 1

def UploadCall.newUpload (call : UploadCall) (id : Nat) : Upload where
  id
  host := call.inventoryId
  account := call.account
  orgId := call.orgId
  systemType := call.systemType
  source := call.source
  checkedOn := call.checkedOn
  isSatellite := call.satelliteManaged

def UploadCall.refresh (call : UploadCall) : Update Upload.id :=
  ⟨fun upload =>
    { upload with
      account := call.account
      checkedOn := call.checkedOn
      isSatellite := call.satelliteManaged
      systemType := call.systemType }, fun _ => rfl⟩

/-- `Upload.objects.update_or_create`, which gives the id of the upload. There is one current upload of a
source for a host. -/
def updateOrCreateUpload (call : UploadCall) : Run Nat := fun s =>
  match s.uploads.rows.filter call.ownUpload with
  | [upload] => (.ok upload.id, { s with uploads := s.uploads.updateWhere (fun row => row.id = upload.id) call.refresh })
  | [] =>
    if s.uploads.rows.any fun upload =>
      upload.host = call.inventoryId && upload.source = call.source && upload.current then (.error .integrityError, s)
    else
      match s.uploads.insert? (call.newUpload (nextUploadId s)) with
      | some uploads => (.ok (nextUploadId s), { s with uploads })
      | none => (.error .integrityError, s)
  | _ => (.error .multipleObjectsReturned, s)

def uploadSource (call : UploadCall) : Run Unit :=
  if charStorable 50 call.source then pure () else raise (charError [call.source])

def text? : Json → Option String
  | .str text => some text
  | _ => none

/-- Rule ids that are not text equal none in the tables or the settings, and are left out. -/
def finalRuleIds (settings : Settings) (reportRuleIds : List String) : List String :=
  let rhelRuleIds :=
    if settings.filterOutNonRhel && reportRuleIds.any settings.filterOutNonRhelRuleId.contains then
      settings.filterOutNonRhelRuleId
    else reportRuleIds
  let rhel6Rules := rhelRuleIds.filter settings.filterOutRhel6RuleIds.contains
  if settings.filterOutRhel6 && !rhel6Rules.isEmpty then rhel6Rules else rhelRuleIds

def State.reportRules (s : State) (ruleIds : List String) : List Rule :=
  s.rules.rows.filter fun rule => ruleIds.contains rule.ruleId

/-- The rules of an upload, by ids that are parameters of the statement: those must not hold a NUL. -/
def selectRules (ruleIds : List String) : Run (List Rule) := fun s =>
  if ruleIds.any fun ruleId => ruleId.toList.contains '\x00' then (.error .valueError, s)
  else (.ok (s.reportRules ruleIds), s)

def State.orgDisabledRules (s : State) (call : UploadCall) : List Nat :=
  (s.acks.rows.filter fun ack => ack.orgId = call.orgId).map (·.rule)

def State.hostDisabledRules (s : State) (call : UploadCall) : List Nat :=
  (s.hostAcks.rows.filter fun ack => ack.orgId = call.orgId && ack.host = call.inventoryId).map (·.rule)

/-- An entry of an upload, with the rule it reports. -/
structure RuleReport where
  rule : Rule
  details : Json
  deriving DecidableEq

/-- `none` for an entry whose rule is not among those to report; only of the others the details are read. -/
def ruleReport (rules : List Rule) (report : Json) : Except Exception (Option RuleReport) := do
  let ruleId ← report.item "rule_id"
  if !ruleId.hashable then throw .typeError
  match (text? ruleId).bind fun id => rules.find? fun rule => rule.ruleId = id with
  | some rule => return some ⟨rule, ← report.item "details"⟩
  | none => return none

def InventoryViewCounts.update (counts : InventoryViewCounts) (rule : Rule) :
    Except Exception InventoryViewCounts :=
  let counts := if rule.hasIncident then { counts with incidents := counts.incidents + 1 } else counts
  match rule.totalRisk with
  | 0 => .ok counts
  | 1 => .ok { counts with low := counts.low + 1 }
  | 2 => .ok { counts with moderate := counts.moderate + 1 }
  | 3 => .ok { counts with important := counts.important + 1 }
  | 4 => .ok { counts with critical := counts.critical + 1 }
  | _ => .error .indexError

/-- What the loop over the entries of an upload collects. -/
structure Collected where
  newReports : List CurrentReport := []
  existingReports : List CurrentReport := []
  webhookRules : List Rule := []
  counts : InventoryViewCounts := {}

structure Known where
  upload : Nat
  stored : List StoredReport
  rules : List Rule
  disabled : List Nat

namespace Known

variable (known : Known) (call : UploadCall)

def isStored (rule : Rule) : Bool := (known.stored.map (·.rule.id)).contains rule.id

def impactedDate (rule : Rule) : Instant :=
  ((known.stored.find? fun stored => stored.rule.id = rule.id).bind (·.impactedDate)).getD call.now

def reportObject (entry : RuleReport) : CurrentReport where
  account := call.account
  orgId := call.orgId
  rule := entry.rule.id
  host := call.inventoryId
  upload := known.upload
  details := entry.details
  impactedDate := some (known.impactedDate call entry.rule)

def count (counts : InventoryViewCounts) (rule : Rule) : Except Exception InventoryViewCounts :=
  if known.disabled.contains rule.id then .ok counts else counts.update rule

def add (settings : Settings) (collected : Collected) (entry : RuleReport) (counts : InventoryViewCounts) :
    Collected where
  newReports :=
    if known.isStored entry.rule then collected.newReports
    else collected.newReports ++ [known.reportObject call entry]
  existingReports :=
    if known.isStored entry.rule then collected.existingReports ++ [known.reportObject call entry]
    else collected.existingReports
  webhookRules :=
    if settings.webhooksTopic || settings.remediationsHookTopic then collected.webhookRules ++ [entry.rule]
    else collected.webhookRules
  counts

def collect (settings : Settings) (collected : Collected) (report : Json) : Except Exception Collected := do
  match ← ruleReport known.rules report with
  | none => return collected
  | some entry => do
    let counts ← known.count collected.counts entry.rule
    return known.add call settings collected entry counts

end Known

/-- The columns of a report take any details but none and those `jsonb` does not take. -/
def storable (report : CurrentReport) : Bool := report.details ≠ .null && jsonStorable report.details

def insertReports (reports : List CurrentReport) : Run Unit := fun s =>
  if reports.all storable then
    match s.reports.insertMany? reports with
    | some reports => (.ok (), { s with reports })
    | none => (.error .integrityError, s)
  else if reports.all fun report => jsonStorable report.details then (.error .integrityError, s)
  else (.error .dataError, s)

/-- The rows that an existing report is written to. -/
def sameReport (report row : CurrentReport) : Bool :=
  row.rule = report.rule && row.host = report.host && row.account = report.account && row.orgId = report.orgId

def rewriteReport (report : CurrentReport) : Update CurrentReport.key :=
  ⟨fun row => { row with upload := report.upload, details := report.details, impactedDate := report.impactedDate },
    fun _ => rfl⟩

def updateReport (report : CurrentReport) : Run Unit := fun s =>
  if !jsonStorable report.details then (.error .dataError, s)
  else if report.details = .null && s.reports.rows.any (sameReport report) then (.error .integrityError, s)
  else (.ok (), { s with reports := s.reports.updateWhere (sameReport report) (rewriteReport report) })

def deleteReports (call : UploadCall) (ruleIds : List String) : Run Unit :=
  write fun s =>
    { s with
      reports := s.reports.deleteWhere fun row =>
        row.host = call.inventoryId && row.orgId = call.orgId &&
          (s.rules.get? row.rule).any fun rule => ruleIds.contains rule.ruleId }

structure Plan where
  known : Known
  ruleIds : List String
  collected : Collected

def Plan.deleted (plan : Plan) : List String :=
  (plan.known.stored.map (·.rule.ruleId)).filter fun ruleId => !plan.ruleIds.contains ruleId

variable (settings : Settings) (faults : Faults) (call : UploadCall)

/-- From the lock of the host to the end of the loop over the entries. -/
def prepare : Run Plan := do
  statement faults .lock (lockHost call)
  let stored ← statement faults .snapshot (call.selecting (read fun s => s.storedReports call))
  statement faults .uploadSource (uploadSource call)
  let upload ← statement faults .upload (call.identifying (updateOrCreateUpload call))
  let reportRuleIds ← lift (call.reports.mapM fun report => report.item "rule_id")
  let ruleIds := finalRuleIds settings (reportRuleIds.filterMap text?)
  let rules ← statement faults .reportRules (selectRules ruleIds)
  let orgDisabled ← statement faults .orgAcks (read fun s => s.orgDisabledRules call)
  let hostDisabled ← statement faults .hostAcks (read fun s => s.hostDisabledRules call)
  let known : Known := { upload, stored, rules, disabled := orgDisabled ++ hostDisabled }
  let collected ← lift (call.reports.foldlM (known.collect call settings) {})
  return { known, ruleIds, collected }

def updateReports (reports : List CurrentReport) (k : Nat) : Run Unit :=
  each (reports.zipIdx k) fun (report, i) => statement faults (.reportUpdate i) (updateReport report)

def bulkCreate (reports : List CurrentReport) : Run Unit :=
  if reports.isEmpty then pure () else statement faults .reportInsert (insertReports reports)

def deleteResolved (ruleIds : List String) : Run Unit :=
  if ruleIds.isEmpty then pure () else statement faults .reportDelete (deleteReports call ruleIds)

def store (plan : Plan) : Run Unit := do
  bulkCreate faults plan.collected.newReports
  updateReports faults plan.collected.existingReports 0
  deleteResolved faults call plan.deleted

/-- The hooks do not fail an upload; says whether an error of the database has been caught. -/
def runHooks (plan : Plan) : Run Bool :=
  if settings.webhooksTopic || settings.remediationsHookTopic then
    match faults .inventoryHost with
    | some _ => return true
    | none => do
      let found ← read fun s => s.inventory.get? (call.orgId, call.inventoryId)
      match found with
      | none => return false
      | some host => do
        catching (triggerReportHooks settings faults host plan.collected.webhookRules plan.known.stored) fun _ =>
          pure ()
        return (faults .ackedRules).isSome
  else return false

def sendInventoryViewEvent (plan : Plan) : Run Unit :=
  let recommendations := plan.collected.newReports.length + plan.collected.existingReports.length
  if settings.inventoryViewTopic then
    send faults .viewEvent (.inventoryView call.orgId call.inventoryId recommendations plan.collected.counts)
  else pure ()

def processUpload : Run Bool := do
  let plan ← prepare settings faults call
  store faults call plan
  let aborted ← runHooks settings faults call plan
  sendInventoryViewEvent settings faults call plan
  return aborted

def createDbReports : Run Bool := do
  let ready ← catching (do findOrCreateHost faults call; return true) fun _ => return false
  if ready then
    catching (do transaction faults (processUpload settings faults call); return true) fun _ => return false
  else return false

end Advisor.Service
