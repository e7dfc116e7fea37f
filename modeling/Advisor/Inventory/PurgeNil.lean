import Advisor.Inventory.Event

/-! The command that purges the hosts with the nil Insights id, batch after batch, while upserts go on. -/

namespace Advisor

open Python Django Relational

def AdvisorInventoryHost.nil (row : AdvisorInventoryHost) : Bool :=
  (row.columns.lookup "insights_id").join = some (.uuid 0)

namespace Inventory

/-- The transaction of one batch: the hosts go by their ids alone, the rows of the inventory if they are nil. -/
def purgeBatch (db : Database) (batch : List Uuid) : Database :=
  { db.purge fun u => batch.contains u && (db.hosts.get? u).isSome with
    hosts := db.hosts.deleteWhere fun host => batch.contains host.inventoryId
    inventory := db.inventory.deleteWhere fun row => batch.contains row.inventoryId && row.nil }

/-- The bulk upserts that are committed; one that fails leaves the tables as they are. -/
def committed (lib : Library) (db : Database) (bulks : List (List ParsedInventoryHost)) : Database :=
  bulks.foldl (fun db upserts => (bulkUpsertHosts lib db upserts).toOption.getD db) db

/-- A batch, and the tables that its transaction begins with. -/
structure PurgeStep where
  before : Database
  batch : List Uuid

def PurgeStep.after (step : PurgeStep) : Database := purgeBatch step.before step.batch

/-- The loop over the batches; `concurrent i` is committed before the batch `i`. -/
def purgeBatches (lib : Library) (concurrent : Nat → List (List ParsedInventoryHost)) :
    Nat → List (List Uuid) → Database → List PurgeStep
  | _, [], _ => []
  | i, batch :: rest, db =>
    let step : PurgeStep := ⟨committed lib db (concurrent i), batch⟩
    step :: purgeBatches lib concurrent (i + 1) rest step.after

structure PurgeOptions where
  batchSize : Int := 1000
  dryRun : Bool := false

/-- `Command.handle`: the ids are read once. -/
def purgeNilInsightsIdHosts (lib : Library) (options : PurgeOptions) (concurrent : Nat → List (List ParsedInventoryHost))
    (db : Database) : Except Exception (List PurgeStep) :=
  let inventoryIds := (db.inventory.rows.filter (·.nil)).map (·.inventoryId)
  if inventoryIds.isEmpty || options.dryRun then .ok []
  else if options.batchSize < 1 then .error .valueError
  else .ok (purgeBatches lib concurrent 0 (inventoryIds.toChunks options.batchSize.toNat) db)

def Real (db : Database) (u : Uuid) : Prop := ∃ row ∈ db.inventory, row.inventoryId = u ∧ row.nil = false

/-- Hosts go only with the nil row of their org, the data of real hosts stays, and no row is left without its host. -/
structure PurgesNil (before after : Database) : Prop where
  hosts : ∀ host ∈ before.hosts, host ∉ after.hosts → ∃ row ∈ before.inventory,
    row.key = (host.orgId, host.inventoryId) ∧ row.nil = true ∧ row ∉ after.inventory
  uploads : ∀ upload ∈ before.uploads, Real before upload.host → upload ∈ after.uploads
  reports : ∀ report ∈ before.reports, Real before report.host → report ∈ after.reports
  hostAcks : ∀ ack ∈ before.hostAcks, Real before ack.host → ack ∈ after.hostAcks
  left : ∀ row ∈ after.inventory, (before.hosts.get? row.inventoryId).isSome = true →
    (after.hosts.get? row.inventoryId).isSome = true

/-- A host that may go with the rows of its id: there is one of its org, all are nil, and no report on its uploads is of
a host that is real. -/
structure Purgeable (db : Database) (host : Host) : Prop where
  owned : ∃ row ∈ db.inventory, row.key = (host.orgId, host.inventoryId)
  unreal : ¬ Real db host.inventoryId
  reports : ∀ upload ∈ db.uploads, upload.host = host.inventoryId → ∀ report ∈ db.reports, report.upload = upload.id →
    ¬ Real db report.host

section Batch

variable {db : Database} {batch : List Uuid}

theorem mem_hosts_purgeBatch {host : Host} :
    host ∈ (purgeBatch db batch).hosts ↔ host ∈ db.hosts ∧ host.inventoryId ∉ batch := by
  simp [purgeBatch]

theorem mem_inventory_purgeBatch {row : AdvisorInventoryHost} :
    row ∈ (purgeBatch db batch).inventory ↔ row ∈ db.inventory ∧ (row.inventoryId ∈ batch → row.nil = false) := by
  simp [purgeBatch]

theorem gone_iff {u : Uuid} : (batch.contains u && (db.hosts.get? u).isSome) = true ↔
    ∃ host ∈ db.hosts, host.inventoryId = u ∧ host.inventoryId ∈ batch := by
  rw [Bool.and_eq_true, List.contains_iff_mem, Option.isSome_iff_exists]
  constructor
  · rintro ⟨hbatch, host, hget⟩
    obtain ⟨hhost, rfl⟩ := Table.get?_eq_some.mp hget
    exact ⟨host, hhost, rfl, hbatch⟩
  · rintro ⟨host, hhost, rfl, hbatch⟩
    exact ⟨hbatch, host, Table.mem_iff_get?.mp hhost⟩

theorem mem_uploads_purgeBatch {upload : Upload} : upload ∈ (purgeBatch db batch).uploads ↔
    upload ∈ db.uploads ∧ ¬ ∃ host ∈ db.hosts, host.inventoryId = upload.host ∧ host.inventoryId ∈ batch := by
  rw [← gone_iff, Bool.not_eq_true]
  exact Table.mem_deleteWhere

theorem mem_hostAcks_purgeBatch {ack : HostAck} : ack ∈ (purgeBatch db batch).hostAcks ↔
    ack ∈ db.hostAcks ∧ ¬ ∃ host ∈ db.hosts, host.inventoryId = ack.host ∧ host.inventoryId ∈ batch := by
  rw [← gone_iff, Bool.not_eq_true]
  exact Table.mem_deleteWhere

theorem mem_reports_purgeBatch {report : CurrentReport} : report ∈ (purgeBatch db batch).reports ↔
    report ∈ db.reports ∧ (¬ ∃ host ∈ db.hosts, host.inventoryId = report.host ∧ host.inventoryId ∈ batch) ∧
      ∀ upload, db.uploads.get? report.upload = some upload →
        ¬ ∃ host ∈ db.hosts, host.inventoryId = upload.host ∧ host.inventoryId ∈ batch := by
  refine Table.mem_deleteWhere.trans (and_congr_right fun _ => ?_)
  rw [Bool.or_eq_false_iff, ← gone_iff, Bool.not_eq_true]
  refine and_congr_right fun _ => ?_
  cases db.uploads.get? report.upload with
  | none => simp
  | some upload =>
    rw [Option.any_some, ← Bool.not_eq_true, gone_iff]
    simp

theorem Purgeable.of_purgesNil (h : PurgesNil db (purgeBatch db batch)) {host : Host} (hhost : host ∈ db.hosts)
    (hbatch : host.inventoryId ∈ batch) : Purgeable db host := by
  have hgone : host ∉ (purgeBatch db batch).hosts := fun hin => (mem_hosts_purgeBatch.mp hin).2 hbatch
  refine ⟨?_, ?_, fun upload hupload howner report hreport hon hreal => ?_⟩
  · obtain ⟨row, hrow, hkey, -⟩ := h.hosts host hhost hgone
    exact ⟨row, hrow, hkey⟩
  · rintro ⟨row, hrow, hid, hnil⟩
    have hkept : row ∈ (purgeBatch db batch).inventory := mem_inventory_purgeBatch.mpr ⟨hrow, fun _ => hnil⟩
    have hhad : (db.hosts.get? row.inventoryId).isSome = true := by
      rw [hid, Table.mem_iff_get?.mp hhost]
      rfl
    obtain ⟨other, hother⟩ := Option.isSome_iff_exists.mp (h.left row hkept hhad)
    obtain ⟨hin, hname⟩ := Table.get?_eq_some.mp hother
    exact (mem_hosts_purgeBatch.mp hin).2 (by rw [hname, hid]; exact hbatch)
  · obtain ⟨-, -, huploads⟩ := mem_reports_purgeBatch.mp (h.reports report hreport hreal)
    refine huploads upload ?_ ⟨host, hhost, howner.symm, hbatch⟩
    rw [hon]
    exact Table.mem_iff_get?.mp hupload

theorem PurgesNil.of_purgeable (h : ∀ host ∈ db.hosts, host.inventoryId ∈ batch → Purgeable db host) :
    PurgesNil db (purgeBatch db batch) := by
  have hunreal : ∀ u, Real db u → ¬ ∃ host ∈ db.hosts, host.inventoryId = u ∧ host.inventoryId ∈ batch := by
    rintro u hreal ⟨host, hhost, rfl, hbatch⟩
    exact (h host hhost hbatch).unreal hreal
  refine ⟨fun host hhost hgone => ?_, fun upload hupload hreal => ?_, fun report hreport hreal => ?_,
    fun ack hack hreal => ?_, fun row hrow hhad => ?_⟩
  · have hbatch : host.inventoryId ∈ batch := by
      by_contra hout
      exact hgone (mem_hosts_purgeBatch.mpr ⟨hhost, hout⟩)
    obtain ⟨⟨row, hrow, hkey⟩, hreal, -⟩ := h host hhost hbatch
    have hid : row.inventoryId = host.inventoryId := congrArg Prod.snd hkey
    have hnil : row.nil = true := by
      by_contra hnot
      exact hreal ⟨row, hrow, hid, Bool.not_eq_true _ ▸ hnot⟩
    refine ⟨row, hrow, hkey, hnil, fun hkept => ?_⟩
    have hfalse := (mem_inventory_purgeBatch.mp hkept).2 (hid ▸ hbatch)
    rw [hnil] at hfalse
    cases hfalse
  · exact mem_uploads_purgeBatch.mpr ⟨hupload, hunreal _ hreal⟩
  · refine mem_reports_purgeBatch.mpr ⟨hreport, hunreal _ hreal, fun upload hupload => ?_⟩
    obtain ⟨hin, hid⟩ := Table.get?_eq_some.mp hupload
    rintro ⟨host, hhost, howner, hbatch⟩
    exact (h host hhost hbatch).reports upload hin howner.symm report hreport hid.symm hreal
  · exact mem_hostAcks_purgeBatch.mpr ⟨hack, hunreal _ hreal⟩
  · obtain ⟨hin, hkeeps⟩ := mem_inventory_purgeBatch.mp hrow
    obtain ⟨host, hget⟩ := Option.isSome_iff_exists.mp hhad
    obtain ⟨hhost, hid⟩ := Table.get?_eq_some.mp hget
    have hout : host.inventoryId ∉ batch := fun hbatch =>
      (h host hhost hbatch).unreal ⟨row, hin, hid.symm, hkeeps (hid ▸ hbatch)⟩
    have hstays : host ∈ (purgeBatch db batch).hosts := mem_hosts_purgeBatch.mpr ⟨hhost, hout⟩
    rw [← hid, Table.mem_iff_get?.mp hstays]
    rfl

theorem purgesNil_iff : PurgesNil db (purgeBatch db batch) ↔
    ∀ host ∈ db.hosts, host.inventoryId ∈ batch → Purgeable db host :=
  ⟨fun h _ hhost hbatch => .of_purgesNil h hhost hbatch, .of_purgeable⟩

end Batch

def PurgesOnlyNil (lib : Library) (options : PurgeOptions) (concurrent : Nat → List (List ParsedInventoryHost))
    (db : Database) : Prop :=
  ∀ steps, purgeNilInsightsIdHosts lib options concurrent db = .ok steps →
    ∀ step ∈ steps, PurgesNil step.before step.after

/-- The command keeps to the nil hosts exactly where before each batch the hosts with its ids are still nil, in their
org and in every other. -/
theorem purgesOnlyNil_iff (lib : Library) (options : PurgeOptions) (concurrent : Nat → List (List ParsedInventoryHost))
    (db : Database) : PurgesOnlyNil lib options concurrent db ↔
      ∀ steps, purgeNilInsightsIdHosts lib options concurrent db = .ok steps →
        ∀ step ∈ steps, ∀ host ∈ step.before.hosts, host.inventoryId ∈ step.batch → Purgeable step.before host := by
  refine forall_congr' fun steps => forall_congr' fun _ => forall_congr' fun step => forall_congr' fun _ => ?_
  exact purgesNil_iff

def sampleRow (orgId : String) (insightsId : Uuid) : AdvisorInventoryHost :=
  ⟨orgId, 0x00112233445566778899aabbccddeeff, 0, [("insights_id", some (.uuid insightsId))]⟩

def sampleHost (orgId : String) : Host := { inventoryId := 0x00112233445566778899aabbccddeeff, account := none, orgId }

def sharedId : Database :=
  { Database.empty with inventory := ⟨[sampleRow "1234" 0, sampleRow "5678" 1], by decide⟩, hosts := .single (sampleHost "5678") }

def nilHost : Database :=
  { Database.empty with inventory := .single (sampleRow "1234" 0), hosts := .single (sampleHost "1234") }

def repair : List ParsedInventoryHost :=
  upsertsOf [createdBody "1234" "00112233-4455-6677-8899-aabbccddeeff" "2024-05-01T11:00:00+00:00"]

/-- A host goes for the row of another org; and one that gets its Insights id before its batch goes and leaves its row. -/
theorem realHosts_purged :
    ¬ PurgesOnlyNil isoLibrary { batchSize := 1 } (fun _ => []) sharedId ∧
      ¬ PurgesOnlyNil isoLibrary { batchSize := 1 } (fun _ => [repair]) nilHost := by
  constructor
  · intro h
    have hstep := h _ rfl _ List.mem_cons_self
    have hout : sampleHost "5678" ∉ (purgeBatch sharedId [0x00112233445566778899aabbccddeeff]).hosts.rows := by
      decide +kernel
    obtain ⟨row, hrow, hkey, hnil, -⟩ := hstep.hosts (sampleHost "5678") (Table.mem_single.mpr rfl) hout
    have hall : ∀ row ∈ sharedId.inventory.rows, row.key = ("5678", 0x00112233445566778899aabbccddeeff) →
        row.nil = false := by decide +kernel
    have hreal := hall row hrow hkey
    rw [hnil] at hreal
    cases hreal
  · intro h
    have hstep := h _ rfl _ List.mem_cons_self
    have hin : sampleHost "1234" ∈ (committed isoLibrary nilHost [repair]).hosts.rows := by decide +kernel
    have hout : sampleHost "1234" ∉ (purgeBatch (committed isoLibrary nilHost [repair])
        [0x00112233445566778899aabbccddeeff]).hosts.rows := by decide +kernel
    obtain ⟨row, hrow, -, hnil, -⟩ := hstep.hosts (sampleHost "1234") hin hout
    have hall : ∀ row ∈ (committed isoLibrary nilHost [repair]).inventory.rows, row.nil = false := by decide +kernel
    have hreal := hall row hrow
    rw [hnil] at hreal
    cases hreal

end Inventory

end Advisor
