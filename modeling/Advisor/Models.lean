import Advisor.Django.Columns
import Advisor.Relational.Table

/-! The rows of the tables the services share, and the database they make up.
An `UploadSource` is known by its unique name. -/

namespace Advisor

open Python Django Relational

/-- The columns that no modelled query selects by stand in `columns`, under their names. -/
structure AdvisorInventoryHost where
  orgId : String
  inventoryId : Uuid
  updated : Instant
  columns : List (String × Option Value)
  deriving DecidableEq

structure Host where
  inventoryId : Uuid
  account : Option String
  orgId : String
  satelliteId : Option Uuid := none
  branchId : Option Uuid := none
  deriving DecidableEq

structure Upload where
  id : Nat
  host : Uuid
  account : Option String
  orgId : String
  systemType : Nat
  source : String
  checkedOn : Instant
  current : Bool := true
  isSatellite : Bool := true
  deriving DecidableEq

structure CurrentReport where
  account : Option String
  orgId : String
  rule : Nat
  host : Uuid
  upload : Nat
  details : Json
  impactedDate : Option Instant
  deriving DecidableEq

structure HostAck where
  rule : Nat
  host : Uuid
  account : Option String
  orgId : String
  justification : String := ""
  createdBy : String := ""
  deriving DecidableEq

structure Ack where
  rule : Nat
  account : Option String
  orgId : String
  justification : String := ""
  createdBy : String := ""
  deriving DecidableEq

structure Rule where
  id : Nat
  ruleId : String
  active : Bool := false
  totalRisk : Nat := 1
  description : String := ""
  publishDate : Option Instant := none
  rebootRequired : Bool := false
  tags : List String := []
  deriving DecidableEq

def AdvisorInventoryHost.key (row : AdvisorInventoryHost) : String × Uuid :=
  (row.orgId, row.inventoryId)

def CurrentReport.key (report : CurrentReport) : String × Nat × Uuid :=
  (report.orgId, report.rule, report.host)

def HostAck.key (ack : HostAck) : Nat × String × Uuid := (ack.rule, ack.orgId, ack.host)

def Ack.key (ack : Ack) : Nat × String := (ack.rule, ack.orgId)

structure Database where
  inventory : Table AdvisorInventoryHost.key
  hosts : Table Host.inventoryId
  uploads : Table Upload.id
  reports : Table CurrentReport.key
  hostAcks : Table HostAck.key

namespace Database

def empty : Database := ⟨.empty, .empty, .empty, .empty, .empty⟩

structure Same (db db' : Database) : Prop where
  inventory : db.inventory.Same db'.inventory
  hosts : db.hosts.Same db'.hosts
  uploads : db.uploads.Same db'.uploads
  reports : db.reports.Same db'.reports
  hostAcks : db.hostAcks.Same db'.hostAcks

/-- The foreign keys the database enforces. -/
structure Referential (db : Database) : Prop where
  uploads : ∀ row ∈ db.uploads, (db.hosts.get? row.host).isSome
  reports : ∀ row ∈ db.reports, (db.hosts.get? row.host).isSome
  reportUploads : ∀ row ∈ db.reports, (db.uploads.get? row.upload).isSome
  hostAcks : ∀ row ∈ db.hostAcks, (db.hosts.get? row.host).isSome

end Database

end Advisor
