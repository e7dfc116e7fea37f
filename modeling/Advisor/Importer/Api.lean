import Advisor.Importer.Model
import Advisor.Python.Grouping
import Advisor.Python.Procedure

/-! The importer behind the API, rule by rule. Nothing wraps an import in a transaction, so what was
written before an exception stays; system types are fixtures, and their cache answers as the table does. -/

namespace Advisor.Importer.Api

open Python Procedure Django Relational

structure Config where
  resolutionRisk : Dict String Json
  impact : Option (Dict String Json)
  tags : Option (List (String × List String))

/-- `DISABLE_CVE_RULES`, and the time of the import in seconds. -/
structure Settings where
  disableCveRules : Bool
  now : Instant

structure Event where
  ruleId : String
  ruleDescription : Json
  totalRisk : Nat
  affectedSystems : Nat
  deactivationReason : String
  deriving DecidableEq

/-- An entry of `deactivated_rule_accounts`, and the message made of it. -/
structure Notice where
  account : Option String
  orgId : String
  ruleInfo : List Event
  deriving DecidableEq

/-- The database, what the process keeps between imports (`model_cache` of the resolution risks and
`deactivated_rule_accounts`), and the messages sent. -/
structure State where
  db : Database
  riskCache : List String := []
  deactivatedRuleAccounts : List Notice := []
  sent : List Notice := []

abbrev Run (α : Type) := Procedure Exception State α

def modify (f : Database → Database) : Run Unit := write fun s => { s with db := f s.db }

variable (env : Environment) (settings : Settings)

/-- `update_model_with_content` for levels: rows that the config lacks go, the others get its level. A level that
its column refuses is raised here before any row is written. -/
def updateModelWithContent (config : Dict String Json) (rows : List Level) : Except Exception (List Level) := do
  let kept ← (rows.filter fun row => (config.get? row.name).isSome).mapM fun row =>
    match config.get? row.name with
    | some e => level env.toLibrary row.name e.2
    | none => .ok row
  let added ← (config.rows.filter fun e => !rows.any fun row => row.name = e.1).mapM fun e =>
    level env.toLibrary e.1 e.2
  .ok (kept ++ added)

def updateResolutionRisksWithContent (config : Config) : Run Unit := do
  let db ← read State.db
  let risks ← lift (updateModelWithContent env config.resolutionRisk db.resolutionRisks)
  modify fun db =>
    let resolutions := db.resolutions.filter fun row => risks.any fun risk => risk.name = row.resolutionRisk
    { db with
      resolutionRisks := risks
      resolutions
      playbooks := db.playbooks.filter fun playbook => resolutions.any fun row => row.key = playbook.resolution }
  write fun s => { s with riskCache := (s.riskCache ++ risks.map Level.name).dedup }

/-- Rules of an impact that is deleted have none. -/
def updateImpactsWithContent (config : Config) : Run Unit :=
  match config.impact with
  | none => pure ()
  | some impact => do
    let db ← read State.db
    let impacts ← lift (updateModelWithContent env impact db.impacts)
    modify fun db => { db with
      impacts
      rules := db.rules.map fun rule =>
        { rule with impact := rule.impact.filter fun name => impacts.any fun row => row.name = name } }

def updateTagsWithContent (config : Config) : Run Unit :=
  match config.tags with
  | none => pure ()
  | some groups => do
    let names := (groups.flatMap Prod.snd).dedup
    let db ← read State.db
    let added ← lift ((names.filter fun name => !db.tags.contains name).mapM fun name =>
      charOf env.toLibrary 32 (.str name))
    modify fun db => { db with
      tags := (db.tags.filter fun tag => names.contains tag) ++ added
      ruleTags := db.ruleTags.filter fun pair => names.contains pair.2 }

def itemOr (row : ContentRow) (field : String) (default : Json) : Except Exception Json := do
  let value ← row.item field
  .ok (if value.truthy then value else default)

/-- The rulesets by prefix; no ruleset means a row that is passed over. -/
def rulesetOf (rulesets : Dict String RuleSet) : Json → Except Exception (Option String)
  | .str module => .ok ((rulesets.rows.find? fun e => e.1.toList.isPrefixOf module.toList).map fun e => e.2.ruleSource)
  | _ => .error .attributeError

def dateFormats : List String := ["%Y-%m-%d %H:%M:%S", "%Y-%m-%d %H:%M", "%Y-%m-%d"]

/-- A date is only ever replaced by a later one. -/
def laterDate (stored : Option Instant) (date : Instant) : Option Instant :=
  match stored with
  | some old => if date ≤ old then stored else some date
  | none => some date

def updatePublishDate (stored : Option Instant) : Attribute → Except Exception (Option Instant)
  | .json (.str "null") => .ok none
  | .json (.str "") => .ok none
  | .json (.str text) =>
    match dateFormats.findSome? fun format => env.strptime text format with
    | some date => .ok (laterDate stored date)
    | none => .ok none
  | .json value => if value.truthy then .error .typeError else .ok none
  | .datetime _ => .error .typeError

def disableCveRule (row : ContentRow) : Bool := settings.disableCveRules && row.tags.contains "cve"

def activeOf (row : ContentRow) : Except Exception Bool :=
  if disableCveRule settings row then .ok false
  else (row.item "status").map fun status => status.eq (.str "active")

def getForeignKeyObject {ρ : Type} (rows : List ρ) (name : ρ → String) : Json → Except Exception (Option ρ)
  | .null => .ok none
  | .list _ | .dict _ => .error .typeError
  | value => do
    let text ← textOf env.toLibrary value
    .ok (rows.find? fun row => name row = text)

structure Attributes where
  ruleset : String
  ruleId : String
  description : Json
  rebootRequired : Json
  summary : Json
  generic : Json
  reason : Json
  moreInfo : Json
  nodeId : Json
  likelihood : Json
  active : Bool
  publishDate : Option Instant
  category : Option String
  impact : Option Level
  pathway : Option String

def rebootColumn (value : Json) : Except Exception Bool := do
  match ← booleanOf value with
  | some b => .ok b
  | none => .error .integrityError

/-- The total risk is computed of the attributes, then the columns take them. -/
def save (a : Attributes) : Except Exception Rule := do
  let impact ← present a.impact .attributeError
  let totalRisk ← average a.likelihood (.int impact.level)
  let category ← present a.category .integrityError
  let likelihood ← required (integerOf env.toLibrary) a.likelihood
  .ok {
    ruleset := a.ruleset
    ruleId := ← charOf env.toLibrary 240 (.str a.ruleId)
    description := ← required (charOf env.toLibrary 240) a.description
    totalRisk := ← smallInteger totalRisk
    active := a.active
    rebootRequired := ← rebootColumn a.rebootRequired
    publishDate := a.publishDate
    category
    impact := some impact.name
    likelihood := ← smallInteger likelihood
    pathway := a.pathway
    nodeId := ← required (charOf env.toLibrary 10) a.nodeId
    summary := ← required (textOf env.toLibrary) a.summary
    generic := ← required (textOf env.toLibrary) a.generic
    reason := ← required (textOf env.toLibrary) a.reason
    moreInfo := ← required (textOf env.toLibrary) a.moreInfo }

def impactOf (db : Database) (row : ContentRow) : Except Exception (Option Level) := do
  getForeignKeyObject env db.impacts Level.name (← itemOr row "impact" (.str "null"))

def newRule (db : Database) (ruleset : String) (row : ContentRow) : Except Exception Rule := do
  let active ← activeOf settings row
  let category ← getForeignKeyObject env db.categories id (← row.item "category")
  let impact ← impactOf env db row
  let generic ← itemOr row "generic" (.str "")
  let reason ← itemOr row "reason" (.str "")
  let moreInfo ← itemOr row "more_info" (.str "")
  let nodeId ← itemOr row "node_id" (.str "")
  let likelihood ← itemOr row "likelihood" (.int 0)
  let publishDate ← updatePublishDate env none (← row.publishDateItem)
  save env {
    ruleset
    ruleId := row.ruleId
    description := (row.get? "description").getD (.str "")
    rebootRequired := (row.get? "reboot_required").getD (.bool false)
    summary := (row.get? "summary").getD generic
    generic, reason, moreInfo, nodeId, likelihood, active, publishDate, category, impact
    pathway := none }

def descriptionOf (row : ContentRow) (stored : Rule) : Json := (row.get? "description").getD (.str stored.description)

/-- A row whose rule is in the database; `publishDate` is what became of its date so far. -/
def updatedRule (db : Database) (row : ContentRow) (stored : Rule) (publishDate : Option Instant) :
    Except Exception Rule := do
  let generic ← itemOr row "generic" (.str "")
  let reason ← itemOr row "reason" (.str "")
  let moreInfo ← itemOr row "more_info" (.str "")
  let nodeId ← itemOr row "node_id" (.str "")
  let summary := (row.get? "summary").getD (.str stored.summary)
  let likelihood ← itemOr row "likelihood" (.int 0)
  let active ← activeOf settings row
  let category ← getForeignKeyObject env db.categories id (← row.item "category")
  let impact ← impactOf env db row
  save env {
    ruleset := stored.ruleset
    ruleId := row.ruleId
    description := descriptionOf row stored
    rebootRequired := (row.get? "reboot_required").getD (.bool stored.rebootRequired)
    summary := if generic.truthy && !summary.truthy then generic else summary
    generic, reason, moreInfo, nodeId, likelihood, active, publishDate, category, impact
    pathway := stored.pathway }

/-- The accounts that see reports of a rule, each with the number of these; who has acked the rule does not. -/
def affectedAccounts (db : Database) (ruleId : String) : List (Option String × String × Nat) :=
  (groupBy (fun report => (report.account, report.orgId)) (db.reports.filter fun report =>
    report.rule = ruleId && !db.acks.any fun ack => ack.rule = ruleId && ack.orgId = report.orgId)).map
      fun group => (group.1.1, group.1.2, group.2.length)

/-- An event for an organisation, under the account it was first seen with. -/
def addEvent (account : Option String) (orgId : String) (event : Event) : List Notice → List Notice
  | [] => [⟨account, orgId, [event]⟩]
  | notice :: rest =>
    if notice.orgId = orgId then { notice with ruleInfo := notice.ruleInfo ++ [event] } :: rest
    else notice :: addEvent account orgId event rest

def announces (action : String) : Bool :=
  "enhance".toList.isPrefixOf action.toList || "retire".toList.isPrefixOf action.toList

def reasonOf (action : String) : String :=
  if "enhance".toList.isPrefixOf action.toList then "Enhancement" else "Retirement"

def getDeactivatedRuleAccounts (row : ContentRow) (stored : Rule) (action : String) : Run Unit :=
  write fun s => { s with
    deactivatedRuleAccounts := (affectedAccounts s.db stored.ruleId).foldl
      (fun notices e => addEvent e.1 e.2.1
        ⟨stored.ruleId, descriptionOf row stored, stored.totalRisk, e.2.2, reasonOf action⟩ notices)
      s.deactivatedRuleAccounts }

def handleNotifAction (row : ContentRow) (stored : Rule) (publishDate : Option Instant) :
    Json → Run (Option Instant)
  | .str text => do
    let action := text.toLower
    let status ← lift (row.item "status")
    if stored.active && status.eq (.str "inactive") then do
      if announces action then getDeactivatedRuleAccounts row stored action else pure ()
      pure publishDate
    else if !stored.active && status.eq (.str "active") && "enhance".toList.isPrefixOf action.toList then
      pure (laterDate publishDate settings.now)
    else
      pure publishDate
  | _ => raise .attributeError

def notifAction (row : ContentRow) (stored : Rule) (publishDate : Option Instant) : Run (Option Instant) :=
  let value := (row.get? "notif_action").getD .null
  if value.truthy then handleNotifAction settings row stored publishDate value else pure publishDate

def replaceRule (rule : Rule) (rules : List Rule) : List Rule :=
  rules.map fun old => if old.ruleId = rule.ruleId then rule else old

def importRule (ruleset : String) (row : ContentRow) : Run Unit := do
  let db ← read State.db
  match db.rules.find? fun rule => rule.ruleset = ruleset && rule.ruleId = row.ruleId with
  | some stored => do
    let date ← lift (row.publishDateItem >>= updatePublishDate env stored.publishDate)
    let date ← notifAction settings row stored date
    let rule ← lift (updatedRule env settings db row stored date)
    modify fun db => { db with rules := replaceRule rule db.rules }
  | none => do
    let rule ← lift (newRule env settings db ruleset row)
    let rules ← lift (checkUnique Rule.ruleId (db.rules ++ [rule]))
    modify fun db => { db with rules }

def expectedPlaybookKeys : List String := ["version", "description", "path", "play", "resolution_type"]

def requireHashable (value : Json) : Except Exception Unit := if value.hashable then .ok () else .error .typeError

def iterate : Json → Except Exception (List Json)
  | .list xs => .ok xs
  | .dict items => .ok (items.map fun e => .str e.1)
  | .str s => .ok (s.toList.map fun c => .str (String.ofList [c]))
  | _ => .error .typeError

def playbookType (value : Json) : Except Exception { type : String // type.length ≤ 100 } := do
  let text ← required (textOf env.toLibrary) value
  if h : text.length ≤ 100 then .ok ⟨text, h⟩ else .error .dataError

def playbookOf (resolution : String × SystemType) (type : { type : String // type.length ≤ 100 }) (item : Json) :
    Except Exception Playbook := do
  .ok {
    resolution
    type
    play := ← nullable (textOf env.toLibrary) (← item.item "play")
    description := ← required (charOf env.toLibrary 255) (← item.item "description")
    path := ← required (charOf env.toLibrary 255) (← item.item "path")
    version := ← nullable (charOf env.toLibrary 40) (← item.item "version") }

def onePlaybook (rows : List Playbook) : Except Exception Playbook :=
  match rows with
  | [row] => .ok row
  | [] => .error .doesNotExist
  | _ => .error .multipleObjectsReturned

/-- One item of the content; `types` are those the resolution had before the loop. -/
def importPlaybook (resolution : String × SystemType) (types : List String) (item : Json) : Run Unit := do
  let present ← lift (expectedPlaybookKeys.mapM item.hasKey)
  if present.all id then
    let type ← lift (item.item "resolution_type")
    lift (requireHashable type)
    match types.find? fun known => type.eq (.str known) with
    | some known => do
      let rows ← read fun s => s.db.playbooks.filter fun row => row.resolution = resolution && row.type.1 = known
      let row ← lift (onePlaybook rows)
      let version ← lift (item.item "version")
      if !version.eq ((row.version.map Json.str).getD .null) then
        let playbook ← lift (playbookOf env resolution row.type item)
        modify fun db => { db with
          playbooks := db.playbooks.map fun old =>
            if old.resolution = resolution && old.type.1 = known then playbook else old }
    | none => do
      let type ← lift (playbookType env type)
      let playbook ← lift (playbookOf env resolution type item)
      modify fun db => { db with playbooks := db.playbooks ++ [playbook] }

def updatePlaybookModels (resolution : String × SystemType) (content : Json) : Run Unit := do
  let stored ← read fun s => s.db.playbooks.filter fun row => row.resolution = resolution
  if content.truthy || !stored.isEmpty then
    let types := (stored.map fun row => row.type.1).dedup
    let items ← lift (iterate content)
    each items (importPlaybook env resolution types)
    let contentTypes ← lift (items.mapM fun item => item.item "resolution_type")
    each (types.filter fun type => !contentTypes.any fun value => value.eq (.str type)) fun type => do
      let rows ← read fun s => s.db.playbooks.filter fun row => row.resolution = resolution && row.type.1 = type
      let row ← lift (onePlaybook rows)
      modify fun db => { db with playbooks := db.playbooks.erase row }

def getSystemType (db : Database) (row : ContentRow) : Except Exception SystemType := do
  let role ← textOf env.toLibrary (← row.item "role")
  let productCode ← textOf env.toLibrary (← row.item "product_code")
  match db.systemTypes.find? fun st => st.role = role && st.productCode = productCode with
  | some systemType => .ok systemType
  | none => .error .doesNotExist

/-- `model_cache[ResolutionRisk][…]`; a cached risk whose row has gone cannot be referred to. -/
def cachedRisk (s : State) (value : Json) : Except Exception String := do
  let name ← nameIn env.toLibrary s.riskCache value
  if s.db.resolutionRisks.any fun risk => risk.name = name then .ok name else .error .integrityError

def importResolution (row : ContentRow) : Run Unit := do
  let text ← lift (row.item "resolution")
  let risk ← lift (if text.truthy then row.item "resolution_risk" else .ok .null)
  if risk.truthy then
    let s ← read id
    let systemType ← lift (getSystemType env s.db row)
    let risk ← lift (cachedRisk env s risk)
    let known := s.db.resolutions.any fun old => old.key = (row.ruleId, systemType)
    lift (if known then requireHashable text else .ok ())
    let text ← lift (textOf env.toLibrary text)
    modify fun db => { db with
      resolutions :=
        if known then db.resolutions.map fun old =>
          if old.key = (row.ruleId, systemType) then ⟨row.ruleId, systemType, text, risk⟩ else old
        else db.resolutions ++ [⟨row.ruleId, systemType, text, risk⟩] }
    let playbooks ← lift (row.item "playbooks")
    updatePlaybookModels env (row.ruleId, systemType) playbooks

def pathwayOf (db : Database) (row : ContentRow) : Except Exception (Option String) :=
  let component := (row.get? "component").getD .null
  let risk := (row.get? "resolution_risk").getD .null
  if component.truthy && risk.truthy then do
    let component ← textOf env.toLibrary component
    let risk ← textOf env.toLibrary risk
    match db.pathways.filter fun p => p.component = component && p.resolutionRiskName = risk with
    | [] => .ok none
    | [p] => .ok (some p.slug)
    | _ => .error .multipleObjectsReturned
  else .ok none

def setPathway (row : ContentRow) : Run Unit := do
  let db ← read State.db
  let pathway ← lift (pathwayOf env db row)
  modify fun db => { db with
    rules := db.rules.map fun rule => if rule.ruleId = row.ruleId then { rule with pathway } else rule }

/-- An ack for every account with hosts whose organisation has none for the rule. -/
def addAutoacksForRule (accounts : List (Option String × String)) (ruleId : String) : Run Unit := do
  let db ← read State.db
  let new := accounts.filter fun e => !db.acks.any fun ack => ack.rule = ruleId && ack.orgId = e.2
  let acks ← lift (checkUnique (fun ack : Ack => (ack.rule, ack.orgId))
    (db.acks ++ new.map fun e => ⟨ruleId, e.1, e.2, autoackJustification, autoackCreatedBy⟩))
  modify fun db => { db with acks }

def removeAutoacksForRule (ruleId : String) : Run Unit :=
  modify fun db => { db with
    acks := db.acks.filter fun ack => !(ack.rule = ruleId && ack.createdBy = autoackCreatedBy) }

def getOrCreateTag (tag : String) : Run Unit := do
  let db ← read State.db
  if !db.tags.contains tag then
    let name ← lift (charOf env.toLibrary 32 (.str tag))
    modify fun db => { db with tags := db.tags ++ [name] }

def addTag (accounts : List (Option String × String)) (ruleId tag : String) : Run Unit := do
  getOrCreateTag env tag
  modify fun db => { db with
    ruleTags := if db.ruleTags.contains (ruleId, tag) then db.ruleTags else db.ruleTags ++ [(ruleId, tag)] }
  if tag = autoackTag then addAutoacksForRule accounts ruleId

/-- The tags of the content; what comes back are the tags of the rule that it lacks. A tag that is listed twice
is taken for new the second time. -/
def addTags (accounts : List (Option String × String)) (ruleId : String) : List String → List String → Run (List String)
  | [], onlyInModel => pure onlyInModel
  | tag :: tags, onlyInModel => do
    if onlyInModel.contains tag then
      addTags accounts ruleId tags (onlyInModel.erase tag)
    else
      addTag env accounts ruleId tag
      addTags accounts ruleId tags onlyInModel

def importTags (accounts : List (Option String × String)) (row : ContentRow) : Run Unit := do
  let stored ← read fun s => (s.db.ruleTags.filter fun pair => pair.1 = row.ruleId).map Prod.snd
  let gone ← addTags env accounts row.ruleId row.tags stored
  each gone fun tag => do
    modify fun db => { db with ruleTags := db.ruleTags.filter fun pair => pair ≠ (row.ruleId, tag) }
    if tag = autoackTag then removeAutoacksForRule row.ruleId

def importRow (rulesets : Dict String RuleSet) (accounts : List (Option String × String)) (row : ContentRow) :
    Run Unit :=
  match row.get? "python_module" with
  | none => pure ()
  | some module => do
    match ← lift (rulesetOf rulesets module) with
    | none => pure ()
    | some ruleset => do
      importRule env settings ruleset row
      importResolution env row
      setPathway env row
      importTags env accounts row

/-- Rules the content lacks are deleted, with what refers to them. -/
def deleteExtraRules (content : List ContentRow) (db : Database) : Database :=
  let stays := fun ruleId => ruleId ≠ "" && (content.map ContentRow.ruleId).contains ruleId
  { db with
    rules := db.rules.filter fun rule => stays rule.ruleId
    ruleTags := db.ruleTags.filter fun pair => stays pair.1
    acks := db.acks.filter fun ack => stays ack.rule
    reports := db.reports.filter fun report => stays report.rule
    resolutions := db.resolutions.filter fun row => stays row.rule
    playbooks := db.playbooks.filter fun playbook => stays playbook.resolution.1 }

/-- One message for every entry; a message that cannot be sent is only logged. -/
def sendDeactivatedRuleNotifications : Run Unit :=
  write fun s => { s with sent := s.sent ++ s.deactivatedRuleAccounts }

def rulesetStartswith (db : Database) : Dict String RuleSet :=
  Dict.ofEntries (db.rulesets.map fun ruleset => (ruleset.moduleStartsWith, ruleset))

def updateRulesetWithContent (content : List ContentRow) : Run Unit := do
  let db ← read State.db
  if !db.rulesets.isEmpty then
    each content (importRow env settings (rulesetStartswith db) db.hosts.dedup)
    modify (deleteExtraRules content)
    sendDeactivatedRuleNotifications

def importAll (config : Config) (content : List ContentRow) : Run Unit := do
  updateResolutionRisksWithContent env config
  updateImpactsWithContent env config
  updateTagsWithContent env config
  updateRulesetWithContent env settings content

end Advisor.Importer.Api
