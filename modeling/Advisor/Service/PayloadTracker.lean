import Advisor.Python.Threads
import Advisor.Service.EngineResults

/-! The statuses that the handlers of the service send to the payload tracker. The ids they name are kept for the thread,
and a thread goes from one call to the next. -/

namespace Advisor.Service.PayloadTracker

open Python

abbrev Fields := List (String × Json)

/-- What a handler does to the values of its thread, and what it sends. -/
inductive Act where
  | cleanThreadingCruft
  | setValue (key : String) (value : Json)
  | payloadStatus (status message : String) (payloadInfo : Fields)

def checkThreadKeys : List String := ["request_id", "inventory_id", "system_id", "source", "account", "org_id"]

def update (d items : Fields) : Fields := items.foldl (fun d item => Json.setKey item.1 item.2 d) d

def threadInfo (values : Fields) : Fields :=
  checkThreadKeys.filterMap fun key => ((values.lookup key).filter Json.truthy).map fun value => (key, value)

def payloadMsg (appName : String) (values : Fields) (status message : String) (payloadInfo : Fields) : Fields :=
  update [("service", .str appName), ("status", .str status), ("status_msg", .str message)]
    (if payloadInfo.isEmpty then threadInfo values else payloadInfo)

def run (appName : String) (values : Fields) : Act → Fields × Option Fields
  | .cleanThreadingCruft => ([], none)
  | .setValue key value => (Json.setKey key value values, none)
  | .payloadStatus status message payloadInfo => (values, some (payloadMsg appName values status message payloadInfo))

/-- What `create_db_reports` and the hooks do here: `extra` has the id and the account of the host in the inventory. -/
inductive DbAct where
  | started (value : Json)
  | finished (value elapsed : Json)
  | failed (message : Json)
  | status (status message : String)
  | hookError (message : String) (inventoryId account : Json)

def DbAct.acts (orgId : Json) : DbAct → List Act
  | started value => [.setValue "db_started" value, .setValue "db_error" (.int 0)]
  | finished value elapsed => [.setValue "db_finished" value, .setValue "db_elapsed" elapsed]
  | failed message => [.setValue "db_error" (.int 1), .setValue "db_error_msg" message]
  | status s message => [.payloadStatus s message []]
  | hookError message inventoryId account =>
    [.payloadStatus "error" message [("inventory_id", inventoryId), ("account", account), ("org_id", orgId)]]

inductive TypeLookup where
  | raised
  | missing
  | found

/-- What happens around a call: the times it takes, and what its `create_db_reports` does and returns. -/
structure Course where
  times : String → Json
  systemType : TypeLookup
  dbActs : List DbAct
  stored : Bool

def failed (name message : String) : List Act :=
  [.setValue (name ++ "_error") (.int 1), .setValue (name ++ "_error_msg") (.str message)]

namespace Course

variable (course : Course)

def started (name : String) : List Act :=
  [.cleanThreadingCruft, .setValue (name ++ "_started") (course.times "started"), .setValue (name ++ "_error") (.int 0)]

def finished (name : String) : List Act :=
  [.setValue (name ++ "_finished") (course.times "finished"), .setValue (name ++ "_elapsed") (course.times "elapsed")]

def createDbReports (orgId : Json) : List Act := course.dbActs.flatMap (DbAct.acts orgId)

end Course

def item (data : List Found) (key : String) : Json := ((data.find? fun found => found.key = key).map (·.item)).getD .null

def setIds (requestId inventoryId source account orgId : Json) : List Act :=
  [.setValue "request_id" requestId, .setValue "inventory_id" inventoryId, .setValue "source" source,
    .setValue "account" account, .setValue "org_id" orgId]

def engineResultsReceived (course : Course) (orgId : Json) : List Act :=
  .payloadStatus "received" "Processing engine results" [] ::
    match course.systemType with
    | .raised => []
    | .missing =>
      failed "engine_results" "missing system_type" ++ course.finished "engine_results" ++
        [.payloadStatus "invalid" "Invalid system type." []]
    | .found =>
      course.createDbReports orgId ++
        if course.stored then course.finished "engine_results"
        else
          failed "engine_results" "Failure processing engine results." ++ course.finished "engine_results" ++
            [.payloadStatus "error" "Failure processing engine results." []]

/-- Nothing is sent of results that lack something: `bad_payload` is handed a dict, which it cannot decode. -/
def handleEngineResults (course : Course) (engineResults : Json) : List Act :=
  course.started "engine_results" ++
    match keyPaths.mapM (findPath engineResults) with
    | .error _ => []
    | .ok data =>
      if data.any fun found => found.item = .null then []
      else
        match traverseKeys engineResults ["input", "host", "account"], (item data "system_data").getD "system_id" .null with
        | .ok (account, _), .ok systemId =>
          (if systemId.truthy then [.setValue "system_id" systemId] else []) ++
            setIds (item data "request_id") (item data "inventory_uuid") (.str "insights-client") account
              (item data "org_id") ++
            engineResultsReceived course (item data "org_id")
        | _, _ => []

def requiredKeys : List String := ["org_id", "source", "host_product", "host_role", "inventory_id", "hits"]

def invalidKeys : String :=
  "Third party rule hits did not contain valid keys " ++
    "['org_id', 'source', 'host_product', 'host_role', 'inventory_id', 'hits']"

def ruleHitsBegun (course : Course) (orgId : Json) : List Act :=
  .payloadStatus "processing" "Beginning rule hit analysis." [] ::
    match course.systemType with
    | .raised => []
    | .missing =>
      failed "rule_hits" "missing system_type" ++ course.finished "rule_hits" ++
        [.payloadStatus "invalid" "Invalid system type." []]
    | .found =>
      .payloadStatus "processing" "Creating reports." [] :: course.createDbReports orgId ++ course.finished "rule_hits" ++
        if course.stored then [] else failed "rule_hits" "Error processing third party rule hits."

def handleRuleHits (course : Course) (ruleHits : Json) : List Act :=
  course.started "rule_hits" ++
    match requiredKeys.mapM ruleHits.hasKey with
    | .error _ => []
    | .ok present =>
      if present.all id then
        match ruleHits.item "inventory_id", ruleHits.item "source", ruleHits.getD "account" .null, ruleHits.item "org_id" with
        | .ok inventoryId, .ok source, .ok account, .ok orgId =>
          setIds (.str "third-party") inventoryId source account orgId ++ ruleHitsBegun course orgId
        | _, _, _, _ => [.setValue "request_id" (.str "third-party")]
      else
        course.finished "rule_hits" ++ failed "rule_hits" "missing_keys" ++
          match ((requiredKeys.zip present).filter Prod.snd).mapM fun entry => return (entry.1, ← ruleHits.item entry.1) with
          | .ok items => [.payloadStatus "invalid" invalidKeys (("request_id", .str "third-party") :: items)]
          | .error _ => []

/-- What the handler of inventory events does once a deletion is received. -/
inductive EventAct where
  | measured (name : String) (value : Json)
  | status (status message : String)

def EventAct.act (payloadInfo : Fields) : EventAct → Act
  | measured name value => .setValue ("inventory_event_" ++ name) value
  | status s message => .payloadStatus s message payloadInfo

def deletionReceived (eventActs : List EventAct) (payloadInfo : Fields) : List Act :=
  .payloadStatus "received" "Received DELETE event from Inventory." payloadInfo ::
    eventActs.map (EventAct.act payloadInfo)

/-- An event that lacks a key is handed to `bad_payload` as well, as a dict. -/
def handleInventoryEvent (course : Course) (eventActs : List EventAct) (inventoryEvent : Json) : List Act :=
  course.started "inventory_event" ++
    match inventoryEvent.getD "type" .null with
    | .error _ => []
    | .ok eventType =>
      if eventType.eq (.str "delete") then
        match inventoryEvent.item "timestamp", inventoryEvent.item "request_id", inventoryEvent.item "id",
          inventoryEvent.getD "account" .null, inventoryEvent.item "org_id" with
        | .ok _, .ok requestId, .ok inventoryId, .ok account, .ok orgId =>
          deletionReceived eventActs [("request_id", requestId), ("inventory_id", inventoryId), ("account", account),
            ("org_id", orgId), ("source", .str "inventory")]
        | _, _, _, _, _ => course.finished "inventory_event" ++ failed "inventory_event" "missing_keys"
      else []

inductive Call where
  | engineResults (course : Course) (engineResults : Json)
  | ruleHits (course : Course) (ruleHits : Json)
  | inventoryEvent (course : Course) (eventActs : List EventAct) (inventoryEvent : Json)

def Call.acts : Call → List Act
  | engineResults course json => handleEngineResults course json
  | ruleHits course json => handleRuleHits course json
  | inventoryEvent course eventActs json => handleInventoryEvent course eventActs json

def Call.own : Call → String → Option Json
  | engineResults _ json, key =>
    match key with
    | "request_id" => resolve json ["input", "platform_metadata", "request_id"]
    | "inventory_id" => resolve json ["input", "host", "id"]
    | "system_id" => resolve json ["results", "system", "system_id"]
    | "source" => some (.str "insights-client")
    | "account" => resolve json ["input", "host", "account"]
    | "org_id" => resolve json ["input", "platform_metadata", "org_id"]
    | _ => none
  | ruleHits _ json, key =>
    match key with
    | "request_id" => some (.str "third-party")
    | "system_id" => none
    | _ => (json.item key).toOption
  | inventoryEvent _ _ json, key =>
    match key with
    | "inventory_id" => (json.item "id").toOption
    | "source" => some (.str "inventory")
    | _ => (json.item key).toOption

/-- A status names the ids of its own message: all of them, or those it was given. -/
def Carries (own : String → Option Json) (fields : Fields) : Prop :=
  (∀ key ∈ checkThreadKeys, fields.lookup key = (own key).filter Json.truthy) ∨
    ∀ key ∈ ["request_id", "source", "org_id"], ∀ value, fields.lookup key = some value → own key = some value

def Holds (own : String → Option Json) (values : Fields) : Prop :=
  ∀ key ∈ checkThreadKeys, (values.lookup key).filter Json.truthy = (own key).filter Json.truthy

/-- Other values are set, and a status is given the ids of the message or takes those of the thread. -/
def Act.Keeps (own : String → Option Json) (held : Prop) : Act → Prop
  | cleanThreadingCruft => False
  | setValue key _ => key ∉ checkThreadKeys
  | payloadStatus _ _ payloadInfo =>
    payloadInfo = [] ∧ held ∨
      payloadInfo ≠ [] ∧ ∀ entry ∈ payloadInfo, entry.1 ∈ ["request_id", "source", "org_id"] → own entry.1 = some entry.2

section Calls

variable {own : String → Option Json} {held : Prop} {values : Fields} {acts : List Act} (appName : String)

theorem Holds.set (h : Holds own values) {key : String} (hkey : key ∉ checkThreadKeys) (value : Json) :
    Holds own (Json.setKey key value values) := by
  intro k hk
  have hne : k ≠ key := fun heq => hkey (heq ▸ hk)
  rw [Json.lookup_setKey, if_neg hne]
  exact h k hk

end Calls

/-- What a call sends in a thread of its own. -/
def statuses (appName : String) (call : Call) : List Fields := emitted (run appName) [] call.acts

end Advisor.Service.PayloadTracker
