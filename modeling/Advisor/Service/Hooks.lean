import Advisor.Service.Model

/-! The messages about new and resolved reports of a host. -/

namespace Advisor.Service

open Python Procedure Django Relational

/-- A row of the reports a host has before an upload, with the columns of its rule. -/
structure StoredReport where
  rule : Rule
  impactedDate : Option Instant
  deriving DecidableEq

variable (settings : Settings) (faults : Faults)

def sendWebhookEvent (site : Site) (message : WebhookMessage) : Run Unit :=
  if settings.webhooksTopic then send faults site (.webhook message) else pure ()

def sendRemediationsEvent (hostId : Uuid) (issues : List String) : Run Unit :=
  if settings.remediationsHookTopic then send faults .remediationsEvent (.remediations hostId issues) else pure ()

def newWebhookMessage (host : AdvisorInventoryHost) (eventType : String) (events : List ReportEvent) :
    WebhookMessage where
  eventType
  accountId := host.account
  orgId := host.orgId
  inventoryId := host.inventoryId
  displayName := host.text? "display_name"
  rhelVersion := host.rhelVersion
  tags := host.columns.lookup "tags"
  events

def makeEventStruct (rule : Rule) : Except Exception ReportEvent :=
  match rule.publishDate with
  | none => .error .attributeError
  | some publishDate =>
    .ok { ruleId := rule.ruleId
          ruleDescription := rule.description
          totalRisk := toString rule.totalRisk
          publishDate
          ruleUrl := settings.advisorUrlPrefix ++ "/" ++ rule.ruleId ++ "/"
          rebootRequired := rule.rebootRequired
          hasIncident := rule.hasIncident }

/-- The rules whose reports the hooks leave out: the acks are selected by the account of the host. -/
def State.ackedRules (s : State) (host : AdvisorInventoryHost) : List Nat :=
  (s.acks.rows.filter fun ack => ack.account = host.account).map (·.rule) ++
    (s.hostAcks.rows.filter fun ack => ack.account = host.account && ack.host = host.inventoryId).map (·.rule)

def newReportList (acked : List Nat) (reportList : List Rule) (dbReports : List StoredReport) : List Rule :=
  reportList.filter fun rule =>
    !(dbReports.map (·.rule.id)).contains rule.id && rule.active && !acked.contains rule.id

def resolvedReportList (acked : List Nat) (reportList : List Rule) (dbReports : List StoredReport) : List Rule :=
  (dbReports.map (·.rule)).filter fun rule =>
    !(reportList.map (·.id)).contains rule.id && rule.active && !acked.contains rule.id

def sendEvents (site : Site) (host : AdvisorInventoryHost) (eventType : String) (rules : List Rule) : Run Unit :=
  if rules.isEmpty then pure ()
  else do
    let events ← lift (rules.mapM (makeEventStruct settings))
    sendWebhookEvent settings faults site (newWebhookMessage host eventType events)

def triggerReportHooks (host : AdvisorInventoryHost) (reportList : List Rule) (dbReports : List StoredReport) :
    Run Unit := do
  let acked ← statement faults .ackedRules (read fun s => s.ackedRules host)
  sendEvents settings faults .newEvent host "new-recommendation" (newReportList acked reportList dbReports)
  sendEvents settings faults .resolvedEvent host "resolved-recommendation" (resolvedReportList acked reportList dbReports)
  if reportList.isEmpty then pure ()
  else sendRemediationsEvent settings faults host.inventoryId (reportList.map fun rule => "advisor:" ++ rule.ruleId)

end Advisor.Service
