import Mathlib.Data.Finset.Card
import Advisor.Models
import Advisor.Python.Grouping

/-! The pathways of an organisation, with what its reports say about each. -/

namespace Advisor.Pathways

open Python Django Relational

structure Pathway where
  id : Nat
  publishDate : Option Instant := none
  deriving DecidableEq

/-- The pathway of a rule stands beside it, as do the rules that have a resolution with a playbook. -/
structure Tables where
  rules : Table Rule.id
  pathwayOf : Nat → Option Nat
  pathways : Table Pathway.id
  reports : Table CurrentReport.key
  acks : Table Ack.key
  hostAcks : Table HostAck.key
  playbooks : List Nat := []

/-- A request: the filters its parameters and the staleness of hosts put on reports, and the number of systems it
sees. -/
structure Request where
  orgId : String
  filters : CurrentReport → Bool
  systems : Nat
  now : Instant

structure Row where
  pathway : Nat
  totalRisk : Nat
  isIncident : Bool
  host : Uuid
  deriving DecidableEq

variable (request : Request) (tables : Tables)

def reportsSubquery : List CurrentReport :=
  if request.orgId = "" then []
  else tables.reports.rows.filter fun report =>
    request.filters report && report.orgId = request.orgId &&
      !((tables.rules.get? report.rule).any (!·.active) ||
        tables.acks.rows.any fun ack => ack.orgId = request.orgId && ack.rule = report.rule) &&
      !tables.hostAcks.rows.any fun ack =>
        ack.orgId = request.orgId && ack.rule = report.rule && ack.host = report.host

def reportQuery : List Row :=
  (reportsSubquery request tables).filterMap fun report =>
    (tables.rules.get? report.rule).bind fun rule =>
      (tables.pathwayOf rule.id).map fun pathway =>
        { pathway, totalRisk := rule.totalRisk, isIncident := rule.tags.contains "incident", host := report.host }

/-- The hosts that the reports of a pathway are about. -/
structure AggSets where
  impactedSystems : Finset Uuid := ∅
  incidents : Finset Uuid := ∅
  lowRisk : Finset Uuid := ∅
  mediumRisk : Finset Uuid := ∅
  highRisk : Finset Uuid := ∅
  criticalRisk : Finset Uuid := ∅
  deriving DecidableEq

/-- `total_risk_to_risk_name[total_risk]` as a key of the sets: it is `None` for no risk. -/
def checkRisk (row : Row) : Except Exception Row :=
  match row.totalRisk with
  | 0 => .error (.keyError "None")
  | 1 | 2 | 3 | 4 => .ok row
  | _ => .error .indexError

def AggSets.add (sets : AggSets) (row : Row) : AggSets where
  impactedSystems := insert row.host sets.impactedSystems
  incidents := if row.isIncident then insert row.host sets.incidents else sets.incidents
  lowRisk := if row.totalRisk = 1 then insert row.host sets.lowRisk else sets.lowRisk
  mediumRisk := if row.totalRisk = 2 then insert row.host sets.mediumRisk else sets.mediumRisk
  highRisk := if row.totalRisk = 3 then insert row.host sets.highRisk else sets.highRisk
  criticalRisk := if row.totalRisk = 4 then insert row.host sets.criticalRisk else sets.criticalRisk

/-- The quotient is a float: with fewer than `2 ^ 50` systems it compares as the exact one does. -/
def calculateRecLevel (percentageOfSystems : ℚ) (hasIncidents : Bool) (maxRisk : Nat) : Nat :=
  (if percentageOfSystems > 1 / 4 then 62 else if percentageOfSystems > 1 / 10 then 58 else 54) +
    (if hasIncidents then 2 else 0) + 12 * (min (max maxRisk 1) 4 - 1)

structure AggData where
  impactedSystems : Nat
  incidents : Nat
  lowRisk : Nat
  mediumRisk : Nat
  highRisk : Nat
  criticalRisk : Nat
  hasIncident : Bool
  rebootRequired : Bool
  recommendationLevel : Nat
  deriving DecidableEq

def rulesOf (pathway : Nat) : List Rule := tables.rules.rows.filter fun rule => tables.pathwayOf rule.id = some pathway

def maxRisk (pathway : Nat) : Nat := ((rulesOf tables pathway).map (·.totalRisk)).foldr max 0

def reduce (impacting : Bool) (pathway : Nat) (sets : AggSets) : AggData :=
  let hasIncident := decide (sets.incidents.card > 0)
  { impactedSystems := sets.impactedSystems.card
    incidents := sets.incidents.card
    lowRisk := sets.lowRisk.card
    mediumRisk := sets.mediumRisk.card
    highRisk := sets.highRisk.card
    criticalRisk := sets.criticalRisk.card
    hasIncident
    rebootRequired :=
      sets.impactedSystems.card > 0 && (rulesOf tables pathway).any (·.rebootRequired) && impacting
    recommendationLevel :=
      if request.systems > 0 then
        calculateRecLevel (sets.impactedSystems.card / request.systems) hasIncident (maxRisk tables pathway)
      else 0 }

inductive Expr (α : Type) where
  | value (v : α)
  | case (whens : List (Nat × α)) (default : α)

def Expr.eval {α : Type} : Expr α → Nat → α
  | .value v, _ => v
  | .case whens default, id => ((whens.find? fun when => when.1 = id).map (·.2)).getD default

/-- `pathway_agg_case`, with the dict it leaves: `popitem` takes the only item out of it. -/
def pathwayAggCase {α : Type} [DecidableEq α] (data : List (Nat × AggData)) (field : AggData → α) (default : α) :
    Expr α × List (Nat × AggData) :=
  match data with
  | [item] => (.value (field item.2), [])
  | _ =>
    match (data.map fun item => field item.2).dedup with
    | [v] => (.value v, data)
    | _ => (.case ((data.filter fun item => field item.2 ≠ default).map fun item => (item.1, field item.2)) default,
        data)

structure Annotated where
  pathway : Nat
  totalSystemsInAccount : Nat
  impactedSystemsCount : Nat
  hasPlaybook : Bool
  rebootRequired : Bool
  incidentCount : Nat
  hasIncident : Bool
  recommendationLevel : Nat
  criticalRiskCount : Nat
  highRiskCount : Nat
  mediumRiskCount : Nat
  lowRiskCount : Nat
  deriving DecidableEq

def published (impacting : Bool) (ids : List Nat) : List Pathway :=
  tables.pathways.rows.filter fun pathway =>
    (!impacting || ids.contains pathway.id) && pathway.publishDate.any (· ≤ request.now)

/-- The annotations are made one after the other. -/
def annotate (data : List (Nat × AggData)) (pathways : List Pathway) : List Annotated :=
  let (impactedSystems, data) := pathwayAggCase data (·.impactedSystems) 0
  let (rebootRequired, data) := pathwayAggCase data (·.rebootRequired) false
  let (incidents, data) := pathwayAggCase data (·.incidents) 0
  let (hasIncident, data) := pathwayAggCase data (·.hasIncident) false
  let (recommendationLevel, data) := pathwayAggCase data (·.recommendationLevel) 0
  let (criticalRisk, data) := pathwayAggCase data (·.criticalRisk) 0
  let (highRisk, data) := pathwayAggCase data (·.highRisk) 0
  let (mediumRisk, data) := pathwayAggCase data (·.mediumRisk) 0
  let (lowRisk, _) := pathwayAggCase data (·.lowRisk) 0
  pathways.map fun pathway =>
    { pathway := pathway.id
      totalSystemsInAccount := request.systems
      impactedSystemsCount := impactedSystems.eval pathway.id
      hasPlaybook := (rulesOf tables pathway.id).any fun rule => tables.playbooks.contains rule.id
      rebootRequired := rebootRequired.eval pathway.id
      incidentCount := incidents.eval pathway.id
      hasIncident := hasIncident.eval pathway.id
      recommendationLevel := recommendationLevel.eval pathway.id
      criticalRiskCount := criticalRisk.eval pathway.id
      highRiskCount := highRisk.eval pathway.id
      mediumRiskCount := mediumRisk.eval pathway.id
      lowRiskCount := lowRisk.eval pathway.id }

def forAccount (impacting : Bool) : Except Exception (List Annotated) := do
  let rows ← (reportQuery request tables).mapM checkRisk
  let sets := rows.foldl (fill (·.pathway) {} AggSets.add) []
  if sets.isEmpty then return []
  let data := sets.map fun item => (item.1, reduce request tables impacting item.1 item.2)
  return annotate request tables data (published request tables impacting (data.map (·.1)))

end Advisor.Pathways
