import Advisor.Django.Sync
import Advisor.Importer.Model

/-! The management command `import_content`, table by table. There is no transaction around it:
an exception leaves what was written before it, and here the command has no result. -/

namespace Advisor.Importer.Management

open Python Django Relational

variable (env : Environment) (listing : Listing)

def levelMapping : Mapping String Level Level := .whole Level.name

def tagMapping : Mapping String String String := .whole id

theorem or_or_self (a b : Option Instant) : a.or (a.or b) = a.or b := by
  rw [← Option.or_assoc, Option.or_self]

theorem withPublishDate_self (rule : Rule) :
    { rule with publishDate := rule.publishDate.or rule.publishDate } = rule := by
  rw [Option.or_self]

theorem withPublishDate_or (fields : Rule) (date : Option Instant) :
    { fields with publishDate := fields.publishDate.or (fields.publishDate.or date) } =
      { fields with publishDate := fields.publishDate.or date } := by
  rw [or_or_self]

/-- A rule keeps the publish date it has when its content supplies none. -/
def ruleMapping : Mapping String Rule Rule where
  key := Rule.ruleId
  fieldsKey := Rule.ruleId
  create := id
  assign fields row := { fields with publishDate := fields.publishDate.or row.publishDate }
  key_create _ := rfl
  key_assign _ _ := rfl
  assign_create := withPublishDate_self
  assign_assign fields row := withPublishDate_or fields row.publishDate

/-- `rule_id_tag`, without a separator. -/
def ruleTagMapping : Mapping String (String × String) (String × String) := .whole fun pair => pair.1 ++ pair.2

/-- `rule_id_org_id`; an auto-ack leaves the account alone. -/
def ackMapping : Mapping String Ack (String × String) where
  key ack := ack.rule ++ ack.orgId
  fieldsKey pair := pair.1 ++ pair.2
  create pair := ⟨pair.1, none, pair.2, autoackJustification, autoackCreatedBy⟩
  assign pair ack := ⟨pair.1, ack.account, pair.2, autoackJustification, autoackCreatedBy⟩
  key_create _ := rfl
  key_assign _ _ := rfl
  assign_create _ := rfl
  assign_assign _ _ := rfl

/-- `rule_id_sys_type`: numbers on both sides of a comma, so as good as the pair. -/
def resolutionMapping : Mapping (String × SystemType) Resolution Resolution := .whole Resolution.key

/-- `rule_id_type`, without a separator. -/
def playbookMapping : Mapping String Playbook Playbook :=
  .whole fun playbook => playbook.resolution.1 ++ playbook.type

def transformConfig (entries : List (String × Json)) : Except Exception (Dict String (Option Level)) :=
  (Dict.ofEntries entries).mapM fun name value => (level env.toLibrary name value).map some

def transformTags (config : Config) : Except Exception (Dict String (Option String)) :=
  (Dict.ofEntries ((config.tags.flatMap Prod.snd).map fun tag => (tag, ()))).mapM fun tag _ =>
    (charOf env.toLibrary 32 (.str tag)).map some

def importConfig (config : Config) (db : Database) : Except Exception Database := do
  -- the key `null` of the impacts is thrown away
  let impacts ← transformConfig env (config.impact.rows.filterMap fun e => e.1.map (·, e.2))
  let risks ← transformConfig env config.resolutionRisk.rows
  let tags ← transformTags env config
  .ok { db with
    impacts := levelMapping.updateModelFromConfig false impacts db.impacts
    resolutionRisks := levelMapping.updateModelFromConfig false risks db.resolutionRisks
    tags := tagMapping.updateModelFromConfig false tags db.tags }

/-- The maps are the tables themselves; one that is empty raises a plain `Exception`. -/
def loadDatabaseMaps (db : Database) : Except String Unit :=
  if db.categories.isEmpty then .error "Category data is not loaded - do `loaddata rule_categories`"
  else if db.impacts.isEmpty then .error "Impact data is not loaded - check content repository config"
  else if db.pathways.isEmpty then .error "Pathway data is not loaded - do `loaddata pathways_prod`"
  else if db.tags.isEmpty then .error "Rule tag data is not loaded - check content repository config"
  else if db.rulesets.isEmpty then .error "Ruleset data is not loaded - do `loaddata rulesets`"
  else if db.systemTypes.isEmpty then .error "System type data is not loaded - do `loaddata system_types`"
  else .ok ()

def findRulesetModel (rulesets : List RuleSet) (row : ContentRow) : Except Exception String := do
  match ← row.item "python_module" with
  | .str module =>
    match (Dict.ofEntries (rulesets.map fun r => (r.moduleStartsWith, r.ruleSource))).rows.find? fun e =>
      e.1.toList.isPrefixOf module.toList with
    | some e => .ok e.2
    | none => .error .valueError
  | _ => .error .attributeError

/-- The date that is assigned, if the content has one: its date and time read as GMT. -/
def publishDateOf (row : ContentRow) : Except Exception (Option Instant) := do
  match ← row.publishDateItem with
  | .datetime t => .ok (some t)
  | .json (.str "") => .ok none
  | .json (.str text) =>
    match ← env.writtenTime text with
    | some t => .ok (some t)
    | none => .error .attributeError
  | .json value => if value.truthy then .error .typeError else .ok none

def resolutionRiskToRisk (config : Config) (value : Json) : Except Exception (String × Json) := do
  let name ← nameIn env.toLibrary (config.resolutionRisk.rows.map Prod.fst) value
  match config.resolutionRisk.get? name with
  | some e => .ok e
  | none => .error (.keyError name)

def resolutionRiskToPathway (pathways : List Pathway) (name : String) : Option String :=
  (pathways.reverse.find? fun p => p.resolutionRiskName = name).map Pathway.slug

def activeColumn (value : Json) : Except Exception Bool := do
  match ← booleanOf value with
  | some b => .ok b
  | none => .error .integrityError

def ruleContentToModelFields (config : Config) (db : Database) (row : ContentRow) : Except Exception Rule := do
  let description ← row.item "description"
  let rebootRequired ← row.item "reboot_required"
  let likelihood ← row.item "likelihood"
  let nodeId ← row.item "node_id"
  let generic ← row.item "generic"
  let reason ← row.item "reason"
  let moreInfo ← row.item "more_info"
  let ruleset ← findRulesetModel db.rulesets row
  let status ← row.item "status"
  let likelihood ← integerOf env.toLibrary likelihood
  let risk ← resolutionRiskToRisk env config (← row.item "resolution_risk")
  let totalRisk ← average (.int likelihood) risk.2
  let publishDate ← publishDateOf env row
  let summary := (row.get? "summary").getD generic
  let nodeId := if nodeId = .null then .str "" else nodeId
  let category ← nameIn env.toLibrary db.categories (← row.item "category")
  let impact ← nameIn env.toLibrary (db.impacts.map Level.name) (← row.item "impact")
  -- the columns the values are written to
  .ok {
    ruleset
    ruleId := ← charOf env.toLibrary 240 (.str row.ruleId)
    description := ← required (charOf env.toLibrary 240) description
    totalRisk := ← smallInteger totalRisk
    active := status.eq (.str "active")
    rebootRequired := ← activeColumn rebootRequired
    publishDate
    category
    impact := some impact
    likelihood := ← smallInteger likelihood
    pathway := resolutionRiskToPathway db.pathways risk.1
    nodeId := ← required (charOf env.toLibrary 10) nodeId
    summary := ← required (textOf env.toLibrary) summary
    generic := ← required (textOf env.toLibrary) generic
    reason := ← required (textOf env.toLibrary) reason
    moreInfo := ← required (textOf env.toLibrary) moreInfo }

structure FieldsOf (config : Config) (db : Database) (row : ContentRow) (rule : Rule) : Prop where
  ruleset : findRulesetModel db.rulesets row = .ok rule.ruleset
  ruleId : rule.ruleId = row.ruleId
  active : ∃ status, row.item "status" = .ok status ∧ rule.active = status.eq (.str "active")
  rebootRequired : ∃ value, row.item "reboot_required" = .ok value ∧ activeColumn value = .ok rule.rebootRequired
  likelihood : ∃ value i, row.item "likelihood" = .ok value ∧ integerOf env.toLibrary value = .ok i ∧
    smallInteger i = .ok rule.likelihood
  publishDate : publishDateOf env row = .ok rule.publishDate
  summary : ∃ generic, row.item "generic" = .ok generic ∧
    required (textOf env.toLibrary) ((row.get? "summary").getD generic) = .ok rule.summary
  category : row.item "category" = .ok (.str rule.category) ∧ rule.category ∈ db.categories
  impact : ∃ impact, row.item "impact" = .ok (.str impact) ∧ impact ∈ db.impacts.map Level.name ∧
    rule.impact = some impact
  risk : ∃ value risk total, row.item "resolution_risk" = .ok value ∧
    resolutionRiskToRisk env config value = .ok risk ∧ average (.int rule.likelihood) risk.2 = .ok total ∧
    smallInteger total = .ok rule.totalRisk ∧ rule.pathway = resolutionRiskToPathway db.pathways risk.1

theorem ruleContentToModelFields_ok {config : Config} {db : Database} {row : ContentRow} {rule : Rule}
    (h : ruleContentToModelFields env config db row = .ok rule) : FieldsOf env config db row rule := by
  simp only [ruleContentToModelFields, bind_eq_ok, Except.ok.injEq] at h
  obtain ⟨description, hdescription, reboot, hreboot, likelihood, hlikelihood, nodeId, hnodeId, generic, hgeneric,
    reason, hreason, moreInfo, hmoreInfo, ruleset, hruleset, status, hstatus, i, hi, riskItem, hriskItem, risk, hrisk,
    average, haverage, date, hdate, categoryItem, hcategoryItem, category, hcategory, impactItem, himpactItem,
    impact, himpact, h⟩ := h
  obtain ⟨ruleId, hruleId, text, htext, total, htotal, rebootRequired, hrebootRequired, small, hsmall, node, hnode,
    summary, hsummary, genericText, hgenericText, reasonText, hreasonText, moreText, hmoreText, rfl⟩ := h
  obtain ⟨rfl, -⟩ := smallInteger_eq_ok.mp hsmall
  obtain ⟨rfl, hcategoryIn⟩ := nameIn_eq_ok.mp hcategory
  obtain ⟨rfl, himpactIn⟩ := nameIn_eq_ok.mp himpact
  exact {
    ruleset := hruleset
    ruleId := charOf_str hruleId
    active := ⟨status, hstatus, rfl⟩
    rebootRequired := ⟨reboot, hreboot, hrebootRequired⟩
    likelihood := ⟨likelihood, small, hlikelihood, hi, hsmall⟩
    publishDate := hdate
    summary := ⟨generic, hgeneric, hsummary⟩
    category := ⟨hcategoryItem, hcategoryIn⟩
    impact := ⟨impact, himpactItem, himpactIn, rfl⟩
    risk := ⟨riskItem, risk, average, hriskItem, hrisk, haverage, htotal, rfl⟩ }

def loadAllRules (config : Config) (content : List ContentRow) (db : Database) : Except Exception Database := do
  let fields ← (Dict.ofEntries (content.map fun row => (row.ruleId, row))).mapM fun _ row =>
    (ruleContentToModelFields env config db row).map some
  .ok { db with rules := ruleMapping.updateModelFromConfig false fields db.rules }

def ruleIdToDbId (db : Database) (ruleId : String) : Except Exception String :=
  if db.rules.any (·.ruleId = ruleId) then .ok ruleId else .error (.keyError ruleId)

def contentPairs (content : List ContentRow) : List (String × String) :=
  content.flatMap fun row => row.tags.map fun tag => (row.ruleId, tag)

def loadAllRuleTags (content : List ContentRow) (db : Database) : Except Exception Database := do
  if content.any fun row => row.tags.any fun tag => !db.tags.contains tag then
    -- logged as inconsistent content
    .ok db
  else
    let entries ← (contentPairs content).mapM fun pair =>
      (ruleIdToDbId db pair.1).map fun rule => (pair.1 ++ pair.2, some (rule, pair.2))
    let pairs ← checkUnique id (ruleTagMapping.updateModelFromConfig true (Dict.ofEntries entries) db.ruleTags)
    .ok { db with ruleTags := pairs }

def autoackRules (content : List ContentRow) : List String :=
  listing.listed ((content.filter fun row => row.tags.contains autoackTag).map ContentRow.ruleId).dedup

def autoacksFromContent (content : List ContentRow) (db : Database) : List (String × String) :=
  (autoackRules listing content).flatMap fun ruleId =>
    ((listing.listed (db.hosts.map Prod.snd).dedup).filter fun orgId =>
      !db.acks.any fun ack => ack.rule = ruleId && ack.orgId = orgId).map fun orgId => (ruleId, orgId)

def loadAllAutoacks (content : List ContentRow) (db : Database) : Except Exception Database := do
  let entries ← (autoacksFromContent listing content db).mapM fun pair =>
    (ruleIdToDbId db pair.1).map fun rule => (pair.1 ++ pair.2, some (rule, pair.2))
  let queryset := listing.ordered (db.acks.filter fun ack => ack.createdBy = autoackCreatedBy)
  let acks ← checkUnique (fun ack : Ack => (ack.rule, ack.orgId))
    ((db.acks.filter fun ack => ack.createdBy ≠ autoackCreatedBy) ++
      ackMapping.updateModelFromConfig true (Dict.ofEntries entries) queryset)
  .ok { db with acks }

def concatenated (a b c : Json) : Except Exception String :=
  match a, b, c with
  | .str a, .str b, .str c => .ok (a ++ b ++ c)
  | _, _, _ => .error .typeError

def systemTypeToId (db : Database) (row : ContentRow) : Except Exception SystemType := do
  let text ← concatenated (← row.item "product_code") (.str "/") (← row.item "role")
  match db.systemTypes.reverse.find? fun st => st.productCode ++ "/" ++ st.role = text with
  | some systemType => .ok systemType
  | none => .error (.keyError text)

def ruleToResolution (db : Database) (row : ContentRow) : Except Exception Resolution := do
  .ok {
    rule := ← ruleIdToDbId db row.ruleId
    systemType := ← systemTypeToId db row
    resolution := ← required (textOf env.toLibrary) (← row.item "resolution")
    resolutionRisk := ← nameIn env.toLibrary (db.resolutionRisks.map Level.name) (← row.item "resolution_risk") }

def loadAllResolutions (content : List ContentRow) (db : Database) : Except Exception Database := do
  let entries ← content.mapM fun row => do
    .ok ((← ruleIdToDbId db row.ruleId, ← systemTypeToId db row), row)
  let fields ← (Dict.ofEntries entries).mapM fun _ row => (ruleToResolution env db row).map some
  let resolutions := resolutionMapping.updateModelFromConfig true fields db.resolutions
  let deleted := (db.resolutions.map Resolution.key).filter fun key => !(resolutions.map Resolution.key).contains key
  .ok { db with
    resolutions
    playbooks := db.playbooks.filter fun playbook => !deleted.contains playbook.resolution }

/-- A playbook file that the columns can hold; the playbook repository names its rule and its type. -/
structure PlaybookContent where
  ruleId : String
  type : { type : String // type.length ≤ 100 }
  play : String
  description : String
  path : String
  version : Option String
  play_storable : '\x00' ∉ play.toList
  description_storable : charStorable 255 description = true
  path_storable : charStorable 255 path = true
  version_storable : version.all (charStorable 40) = true

/-- `generate_playbook_content`, keyed by rule and type without a separator. -/
def generatePlaybookContent (files : List PlaybookContent) : Dict String PlaybookContent :=
  Dict.ofEntries (files.map fun file => (file.ruleId ++ file.type, file))

/-- `rule_id_to_resolution_id`: of the resolutions of a rule, the one with the last system type. -/
def ruleIdToResolutionId (db : Database) (ruleId : String) : Option (String × SystemType) :=
  (db.systemTypes.reverse.find? fun st => db.resolutions.any fun row => row.rule = ruleId && row.systemType = st).map
    fun st => (ruleId, st)

def playbookTransformer (db : Database) (file : PlaybookContent) : Option Playbook :=
  (ruleIdToResolutionId db file.ruleId).map fun resolution =>
    ⟨resolution, file.type, some file.play, file.description, file.path, file.version⟩

def loadAllPlaybooks (data : Option (Dict String PlaybookContent)) (db : Database) : Database :=
  match data with
  | none => db
  | some data => { db with
      playbooks := playbookMapping.updateModelFromConfig false
        (data.map fun _ file => playbookTransformer db file) db.playbooks }

def importContent (config : Config) (content : List ContentRow) (db : Database) : Except Exception Database := do
  let db ← loadAllRules env config content db
  let db ← loadAllRuleTags content db
  let db ← loadAllAutoacks listing content db
  loadAllResolutions env content db

inductive Failure where
  | raised (e : Exception)
  | notLoaded (text : String)
  deriving DecidableEq

structure Sources where
  config : Config
  content : List ContentRow
  playbooks : Option (List PlaybookContent)

def handle (sources : Sources) (db : Database) : Except Failure Database := do
  let db ← (importConfig env sources.config db).mapError .raised
  (loadDatabaseMaps db).mapError .notLoaded
  let db ← (importContent env listing sources.config sources.content db).mapError .raised
  .ok (loadAllPlaybooks (sources.playbooks.map generatePlaybookContent) db)

/-- What the command leaves when it raises. The tables before the one that raised are written; of that one the new rows
may be, which are created before those that are there are updated. Of the tables of the config nothing is said. -/
inductive Interrupted (sources : Sources) (db : Database) : Database → Prop
  | config {e : Exception} {impacts resolutionRisks : List Level} {tags : List String} :
      importConfig env sources.config db = .error e →
        Interrupted sources db { db with impacts, resolutionRisks, tags }
  | maps {db₁ : Database} {text : String} : importConfig env sources.config db = .ok db₁ →
      loadDatabaseMaps db₁ = .error text → Interrupted sources db db₁
  | rules {db₁ : Database} {e : Exception} {created : List Rule} : importConfig env sources.config db = .ok db₁ →
      loadAllRules env sources.config sources.content db₁ = .error e →
        (∀ rule ∈ created, db₁.rules.any (·.ruleId = rule.ruleId) = false) →
          Interrupted sources db { db₁ with rules := db₁.rules ++ created }
  | ruleTags {db₁ db₂ : Database} {e : Exception} {created : List (String × String)} :
      importConfig env sources.config db = .ok db₁ → loadAllRules env sources.config sources.content db₁ = .ok db₂ →
        loadAllRuleTags sources.content db₂ = .error e →
          Interrupted sources db { db₂ with ruleTags := db₂.ruleTags ++ created }
  | acks {db₁ db₂ db₃ : Database} {e : Exception} {created : List Ack} :
      importConfig env sources.config db = .ok db₁ → loadAllRules env sources.config sources.content db₁ = .ok db₂ →
        loadAllRuleTags sources.content db₂ = .ok db₃ → loadAllAutoacks listing sources.content db₃ = .error e →
          (∀ ack ∈ created, ack.createdBy = autoackCreatedBy) →
            Interrupted sources db { db₃ with acks := db₃.acks ++ created }
  | resolutions {db₁ db₂ db₃ db₄ : Database} {e : Exception} {created : List Resolution} :
      importConfig env sources.config db = .ok db₁ → loadAllRules env sources.config sources.content db₁ = .ok db₂ →
        loadAllRuleTags sources.content db₂ = .ok db₃ → loadAllAutoacks listing sources.content db₃ = .ok db₄ →
          loadAllResolutions env sources.content db₄ = .error e →
            Interrupted sources db { db₄ with resolutions := db₄.resolutions ++ created }

def plainEnvironment : Environment where
  parseDatetime _ := .unmatched
  parseDate _ := none
  render _ := ""
  intOfText _ := none
  writtenTime _ := .ok none
  strptime _ _ := none

def plainListing : Listing where
  listed := id
  listed_perm := List.Perm.refl
  ordered := id
  ordered_perm := List.Perm.refl

def hiddenRule : ContentRow where
  ruleId := "test|Hidden"
  tags := ["autoack"]
  publishDate := some (.json .null)
  items := [("description", .str "Hidden rule"), ("reboot_required", .bool false), ("likelihood", .int 1),
    ("node_id", .null), ("generic", .str "text"), ("reason", .str ""), ("more_info", .str ""),
    ("python_module", .str "test_rules"), ("status", .str "active"),
    ("resolution_risk", .str "Adjust Service Status"), ("category", .str "Stability"),
    ("impact", .str "Best Practice"), ("product_code", .str "rhel"), ("role", .str "host"), ("resolution", .str "")]

def hiddenSources : Sources where
  config := {
    impact := Dict.ofEntries [(some "Best Practice", .int 1)]
    resolutionRisk := Dict.ofEntries [("Adjust Service Status", .int 1)]
    tags := [("state", ["autoack"])] }
  content := [hiddenRule]
  playbooks := some []

def fixtures : Database where
  categories := ["Stability"]
  pathways := [⟨"restart", "systemd", "Adjust Service Status"⟩]
  rulesets := [⟨"https://rules", "test"⟩]
  systemTypes := [⟨"host", "rhel"⟩]
  hosts := [(some "1234567", "9876543")]

end Advisor.Importer.Management
