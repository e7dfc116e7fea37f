import Advisor.Inventory.Origin
import Advisor.Reports.Export
import Advisor.Service.Call
import Advisor.Service.LegacyDelete

/-! The exports over the states that the services and the importers lead to. -/

namespace Advisor.Reports

open Python Procedure Django Relational Service

/-- A change of the tables. An import leaves any rules, and with a rule that goes its reports and acks go. -/
inductive Change where
  | upload (settings : Settings) (faults : Faults) (call : UploadCall)
  | removal (settings : CleanupSettings) (outages : Outages) (message : Json)
  | inventory (messages : List Json)
  | content (rules : Table Rule.id) (ruleIds : (rules.rows.map (·.ruleId)).Nodup)
  | acks (orgAcks : Table Ack.key) (hostAcks : Table HostAck.key)

def hostTables (s : State) : Database := ⟨s.inventory, s.hosts, s.uploads, s.reports, s.hostAcks⟩

def withHostTables (s : State) (db : Database) : State :=
  { s with
    inventory := db.inventory
    hosts := db.hosts
    uploads := db.uploads
    reports := db.reports
    hostAcks := db.hostAcks }

def withContent (s : State) (rules : Table Rule.id) (ruleIds : (rules.rows.map (·.ruleId)).Nodup) : State :=
  { s with
    rules
    ruleIds
    reports := s.reports.deleteWhere fun report => (rules.get? report.rule).isNone
    acks := s.acks.deleteWhere fun ack => (rules.get? ack.rule).isNone
    hostAcks := s.hostAcks.deleteWhere fun ack => (rules.get? ack.rule).isNone }

def Change.apply (lib : Library) (s : State) : Change → State
  | .upload settings faults call => (createDbReports settings faults call s).2
  | .removal settings outages message => (Service.handleInventoryEvent lib settings outages message s).2
  | .inventory messages => withHostTables s (Inventory.handleInventoryEvent lib (hostTables s) messages).db
  | .content rules ruleIds => withContent s rules ruleIds
  | .acks orgAcks hostAcks => { s with acks := orgAcks, hostAcks }

/-- The states after changes that all meet a condition. -/
inductive Reached (lib : Library) (meets : State → Change → Prop) : State → Prop
  | start : Reached lib meets State.empty
  | step {s : State} {change : Change} : Reached lib meets s → meets s change → Reached lib meets (change.apply lib s)

theorem Reached.mono {lib : Library} {meets meets' : State → Change → Prop} {s : State} (h : Reached lib meets s)
    (himp : ∀ s change, meets s change → meets' s change) : Reached lib meets' s := by
  induction h with
  | start => exact .start
  | step _ hmeets ih => exact .step ih (himp _ _ hmeets)

def ClientKnows (client : String) (s : State) (host : Uuid) (orgId : String) : Prop :=
  ∃ upload ∈ s.uploads, upload.host = host ∧ upload.orgId = orgId ∧ upload.source = client

/-- Reports come from the first source, or for a host that it has an upload for; active rules are published. -/
def Dated (client : String) (s : State) : Change → Prop
  | .upload _ _ call => call.source = client ∨ call.reports = [] ∨ ClientKnows client s call.inventoryId call.orgId
  | .content rules _ => ∀ rule ∈ rules, rule.active = true → rule.publishDate.isSome = true
  | .removal _ _ _ | .inventory _ | .acks _ _ => True

/-- The hosts of a batch bring times that the cast of the database reads, or none. -/
def Timed (castTime : CastTime) : Change → Prop
  | .inventory messages =>
    ∀ host ∈ Inventory.upsertsOf messages, castable castTime (some (.json host.perReporterStaleness)) = true
  | .upload _ _ _ | .removal _ _ _ | .content _ _ | .acks _ _ => True

structure Placed (s : State) : Prop where
  current : ∀ upload ∈ s.uploads, upload.current = true
  placed : ∀ report ∈ s.reports, ∃ upload, s.uploads.get? report.upload = some upload ∧ upload.host = report.host ∧
    upload.orgId = report.orgId
  impacted : ∀ report ∈ s.reports, report.impactedDate.isSome = true

structure Exportable (client : String) (s : State) : Prop extends Placed s where
  seen : ∀ report ∈ s.reports, ClientKnows client s report.host report.orgId
  published : ∀ rule ∈ s.rules, rule.active = true → rule.publishDate.isSome = true

/-- Uploads and reports may go; what stays is as it was, and with a report all uploads for its host. -/
structure Narrows (s s' : State) : Prop where
  uploads : ∀ upload ∈ s'.uploads, upload ∈ s.uploads
  reports : ∀ report ∈ s'.reports, report ∈ s.reports
  beside : ∀ report ∈ s'.reports, ∀ upload ∈ s.uploads, upload.host = report.host → upload.orgId = report.orgId →
    upload ∈ s'.uploads

theorem Narrows.placed {s s' : State} (h : Narrows s s') (hs : Placed s) : Placed s' where
  current := fun upload hupload => hs.current upload (h.uploads upload hupload)
  placed := by
    intro report hreport
    obtain ⟨upload, hupload, hhost, horg⟩ := hs.placed report (h.reports report hreport)
    obtain ⟨hmem, hid⟩ := Table.get?_eq_some.mp hupload
    exact ⟨upload, Table.get?_eq_some.mpr ⟨h.beside report hreport upload hmem hhost horg, hid⟩, hhost, horg⟩
  impacted := fun report hreport => hs.impacted report (h.reports report hreport)

theorem Narrows.exportable {client : String} {s s' : State} (h : Narrows s s') (hs : Exportable client s)
    (hpublished : ∀ rule ∈ s'.rules, rule.active = true → rule.publishDate.isSome = true) : Exportable client s' where
  toPlaced := h.placed hs.toPlaced
  seen := by
    intro report hreport
    obtain ⟨upload, hupload, hhost, horg, hsource⟩ := hs.seen report (h.reports report hreport)
    exact ⟨upload, h.beside report hreport upload hupload hhost horg, hhost, horg, hsource⟩
  published := hpublished

section Uploads

variable {settings : Settings} {faults : Faults} {call : UploadCall} {client : String} {s s' : State}

theorem leaves_some {known : Known} {k : String × Nat × Uuid} {row : CurrentReport}
    (h : s.leaves settings call known k = some row) :
    row ∈ s.reports ∨ call.reports ≠ [] ∧ row.host = call.inventoryId ∧ row.orgId = call.orgId ∧
      row.upload = known.upload ∧ row.impactedDate.isSome = true := by
  have hreports {entry : RuleReport} (hentry : entry ∈ s.reported settings call) : call.reports ≠ [] := by
    obtain ⟨report, hreport, -⟩ := mem_entries.mp hentry
    exact List.ne_nil_of_mem hreport
  rw [State.leaves, Option.filter_eq_some_iff] at h
  obtain ⟨base, hbase, rfl⟩ := Option.map_eq_some_iff.mp h.1
  rw [rewritten]
  split
  · rename_i report hfind
    have hsame := List.find?_some hfind
    obtain ⟨entry, hentry, rfl⟩ := List.mem_map.mp (List.mem_reverse.mp (List.mem_of_find?_eq_some hfind))
    simp only [sameReport, Bool.and_eq_true, decide_eq_true_eq] at hsame
    exact Or.inr ⟨hreports (List.mem_filter.mp hentry).1, hsame.1.1.2, hsame.2, rfl, rfl⟩
  · rcases Option.or_eq_some_iff.mp hbase with hold | ⟨-, hnew⟩
    · exact Or.inl (Table.get?_eq_some.mp hold).1
    · obtain ⟨entry, hentry, rfl⟩ := List.mem_map.mp (List.mem_of_find?_eq_some hnew)
      exact Or.inr ⟨hreports (mem_newEntries.mp hentry).1, rfl, rfl, rfl, rfl⟩

/-- The uploads there were are still there, for the same hosts; one of them, or a new one, is that of the call. -/
theorem updateOrCreateUpload_places {id : Nat} (h : updateOrCreateUpload call s = (.ok id, s'))
    (hcurrent : ∀ upload ∈ s.uploads, upload.current = true) :
    (∀ upload ∈ s'.uploads, upload.current = true) ∧
      (∀ k upload, s.uploads.get? k = some upload → ∃ upload', s'.uploads.get? k = some upload' ∧
        upload'.host = upload.host ∧ upload'.orgId = upload.orgId ∧ upload'.source = upload.source) ∧
      ∃ upload, s'.uploads.get? id = some upload ∧ upload.host = call.inventoryId ∧ upload.orgId = call.orgId ∧
        upload.source = call.source := by
  have hown : ∃ upload, s'.uploads.get? id = some upload ∧ upload.host = call.inventoryId ∧
      upload.orgId = call.orgId ∧ upload.source = call.source := by
    obtain ⟨-, -, upload, hupload, hstamps⟩ := updateOrCreateUpload_ok h
    have how := hstamps.own
    simp only [UploadCall.ownUpload, Bool.and_eq_true, decide_eq_true_eq] at how
    exact ⟨upload, hupload, how.1.1, how.1.2, how.2⟩
  rcases updateOrCreateUpload_cases h with ⟨own, -, -, rfl⟩ | ⟨-, -, rfl, uploads, hinsert, rfl⟩
  · refine ⟨?_, ?_, hown⟩
    · intro upload hupload
      obtain ⟨old, hold, rfl⟩ := Table.mem_updateWhere.mp hupload
      split
      · exact hcurrent old hold
      · exact hcurrent old hold
    · intro k upload hupload
      refine ⟨_, by rw [Table.get?_updateWhere, hupload]; rfl, ?_⟩
      dsimp only
      split
      · exact ⟨rfl, rfl, rfl⟩
      · exact ⟨rfl, rfl, rfl⟩
  · refine ⟨?_, ?_, hown⟩
    · intro upload hupload
      rcases (Table.mem_insert? hinsert upload).mp hupload with hold | rfl
      · exact hcurrent upload hold
      · rfl
    · intro k upload hupload
      obtain ⟨hmem, hid⟩ := Table.get?_eq_some.mp hupload
      have hlt := lt_nextUploadId hmem
      have hne : ¬ nextUploadId s = k := by
        intro heq
        change upload.id = k at hid
        omega
      exact ⟨upload, by rw [Table.get?_insert? hinsert]; exact (if_neg hne).trans hupload, rfl, rfl, rfl⟩

/-- A call stores nothing, or its upload and reports. -/
structure Stores (settings : Settings) (call : UploadCall) (s s' : State) : Prop where
  rules : s'.rules = s.rules
  inventory : s'.inventory = s.inventory
  tables : s'.uploads = s.uploads ∧ s'.reports = s.reports ∨ ∃ known s₁,
    updateOrCreateUpload call (s.withHost call) = (.ok known.upload, s₁) ∧ s'.uploads = s₁.uploads ∧
      ∀ k, s'.reports.get? k = s.leaves settings call known k

theorem transaction_stores (settings : Settings) (faults : Faults) (call : UploadCall) (s : State) :
    Stores settings call s (transaction faults (processUpload settings faults call) (s.withHost call)).2 := by
  unfold transaction
  rcases processUpload_cases (s.withHost call) settings faults call with
    ⟨-, plan, s₁, s₂, hp, hstore, heq⟩ | ⟨-, e, s', heq, -⟩
  · obtain ⟨-, -, hs₂, hleaves⟩ := store_ok hp hstore
    rw [heq]
    dsimp only
    cases faults .commit with
    | some e => exact ⟨withHost_rules s call, withHost_inventory s call, Or.inl ⟨withHost_uploads s call, withHost_reports s call⟩⟩
    | none =>
      dsimp only
      split
      · exact ⟨withHost_rules s call, withHost_inventory s call, Or.inl ⟨withHost_uploads s call, withHost_reports s call⟩⟩
      · refine ⟨?_, ?_, Or.inr ⟨plan.known, s₁, hp.upload, ?_, fun k => ?_⟩⟩
        · show s₂.rules = s.rules
          rw [hs₂, hp.frame, withHost_rules]
        · show s₂.inventory = s.inventory
          rw [hs₂, hp.frame, withHost_inventory]
        · show s₂.uploads = s₁.uploads
          rw [hs₂]
        · exact (hleaves k).trans (withHost_leaves s settings call plan.known k)
  · rw [heq]
    exact ⟨withHost_rules s call, withHost_inventory s call, Or.inl ⟨withHost_uploads s call, withHost_reports s call⟩⟩

theorem createDbReports_stores (settings : Settings) (faults : Faults) (call : UploadCall) (s : State) :
    Stores settings call s (createDbReports settings faults call s).2 := by
  rcases createDbReports_state settings faults call s with hstate | ⟨-, hstate⟩ | hstate
  · rw [hstate]
    exact transaction_stores settings faults call s
  · rw [hstate, withAcks_frame]
    exact ⟨rfl, rfl, Or.inl ⟨rfl, rfl⟩⟩
  · rw [hstate]
    exact ⟨rfl, rfl, Or.inl ⟨rfl, rfl⟩⟩

theorem Stores.cases (h : Stores settings call s s') (hcurrent : ∀ upload ∈ s.uploads, upload.current = true) :
    Narrows s s' ∨ ∃ known : Known,
      (∀ upload ∈ s'.uploads, upload.current = true) ∧
      (∀ k upload, s.uploads.get? k = some upload → ∃ upload', s'.uploads.get? k = some upload' ∧
        upload'.host = upload.host ∧ upload'.orgId = upload.orgId ∧ upload'.source = upload.source) ∧
      (∃ upload, s'.uploads.get? known.upload = some upload ∧ upload.host = call.inventoryId ∧
        upload.orgId = call.orgId ∧ upload.source = call.source) ∧
      ∀ report ∈ s'.reports, report ∈ s.reports ∨ call.reports ≠ [] ∧ report.host = call.inventoryId ∧
        report.orgId = call.orgId ∧ report.upload = known.upload ∧ report.impactedDate.isSome = true := by
  rcases h.tables with ⟨huploads, hreports⟩ | ⟨known, s₁, hupload, huploads, hleaves⟩
  · refine Or.inl ⟨?_, ?_, ?_⟩
    · rw [huploads]
      exact fun upload hupload => hupload
    · rw [hreports]
      exact fun report hreport => hreport
    · rw [huploads]
      exact fun _ _ upload hupload _ _ => hupload
  · obtain ⟨hcurrent', hkept, hown⟩ :=
      updateOrCreateUpload_places hupload (by rw [withHost_uploads]; exact hcurrent)
    rw [withHost_uploads] at hkept
    rw [← huploads] at hcurrent' hkept hown
    refine Or.inr ⟨known, hcurrent', hkept, hown, fun report hreport => ?_⟩
    have hget := Table.mem_iff_get?.mp hreport
    rw [hleaves] at hget
    exact leaves_some hget

theorem Stores.placed (h : Stores settings call s s') (hs : Placed s) : Placed s' := by
  rcases h.cases hs.current with hnarrows | ⟨known, hcurrent, hkept, ⟨own, hown, hhost, horg, -⟩, hrow⟩
  · exact hnarrows.placed hs
  · refine ⟨hcurrent, fun report hreport => ?_, fun report hreport => ?_⟩
    · rcases hrow report hreport with hold | ⟨-, hh, ho, hu, -⟩
      · obtain ⟨upload, hget, hh, ho⟩ := hs.placed report hold
        obtain ⟨upload', hget', hh', ho', -⟩ := hkept _ upload hget
        exact ⟨upload', hget', hh'.trans hh, ho'.trans ho⟩
      · exact ⟨own, hu ▸ hown, hhost.trans hh.symm, horg.trans ho.symm⟩
    · rcases hrow report hreport with hold | ⟨-, -, -, -, hdate⟩
      · exact hs.impacted report hold
      · exact hdate

theorem Stores.exportable (h : Stores settings call s s') (hs : Exportable client s)
    (hdated : Dated client s (.upload settings faults call)) : Exportable client s' := by
  have hpublished : ∀ rule ∈ s'.rules, rule.active = true → rule.publishDate.isSome = true := by
    rw [h.rules]
    exact hs.published
  rcases h.cases hs.current with hnarrows | ⟨known, -, hkept, ⟨own, hown, hhost, horg, hsource⟩, hrow⟩
  · exact hnarrows.exportable hs hpublished
  · have hknows {host : Uuid} {orgId : String} (hknown : ClientKnows client s host orgId) :
        ClientKnows client s' host orgId := by
      obtain ⟨upload, hmem, rfl, rfl, rfl⟩ := hknown
      obtain ⟨upload', hupload', hsame⟩ := hkept upload.id upload (Table.get?_eq_some.mpr ⟨hmem, rfl⟩)
      exact ⟨upload', (Table.get?_eq_some.mp hupload').1, hsame⟩
    refine ⟨h.placed hs.toPlaced, fun report hreport => ?_, hpublished⟩
    rcases hrow report hreport with hold | ⟨hne, hh, ho, -, -⟩
    · exact hknows (hs.seen report hold)
    · rw [hh, ho]
      rcases hdated with hclient | hnil | hknown
      · exact ⟨own, (Table.get?_eq_some.mp hown).1, hhost, horg, hsource.trans hclient⟩
      · exact absurd hnil hne
      · exact hknows hknown

end Uploads

section Others

variable {lib : Library} {client : String}

theorem applyUpserts_rows {db db' : Database} {upserts : List Inventory.ParsedInventoryHost}
    (h : Inventory.applyUpserts lib db upserts = .ok db') : db'.uploads = db.uploads ∧ db'.reports = db.reports := by
  unfold Inventory.applyUpserts at h
  split_ifs at h with hnone
  · obtain rfl := Except.ok.inj h
    exact ⟨rfl, rfl⟩
  · obtain ⟨fresh, -, h⟩ := bind_eq_ok.mp h
    split_ifs at h with hstale
    · obtain rfl := Except.ok.inj h
      exact ⟨rfl, rfl⟩
    · obtain ⟨inventory, -, h⟩ := bind_eq_ok.mp h
      obtain ⟨hosts, -, h⟩ := bind_eq_ok.mp h
      unfold Inventory.upsertInstances at h
      split at h
      · obtain rfl := Except.ok.inj h
        exact ⟨rfl, rfl⟩
      · cases h

theorem deleteKeys_narrows (s : State) (selected : String × Uuid → Bool) :
    Narrows s (withHostTables s ((hostTables s).deleteKeys selected)) where
  uploads := fun upload hupload => (Table.mem_deleteWhere.mp hupload).1
  reports := fun report hreport => (Table.mem_deleteWhere.mp hreport).1
  beside := by
    intro report hreport upload hupload hhost _
    obtain ⟨-, hstays⟩ := Table.mem_deleteWhere.mp hreport
    refine Table.mem_deleteWhere.mpr ⟨hupload, ?_⟩
    rw [hhost]
    exact (Bool.or_eq_false_iff.mp hstays).1

theorem inventory_narrows (s : State) (messages : List Json) :
    Narrows s (withHostTables s (Inventory.handleInventoryEvent lib (hostTables s) messages).db) := by
  have hrefl : Narrows s (withHostTables s (hostTables s)) :=
    ⟨fun _ h => h, fun _ h => h, fun _ _ _ h _ _ => h⟩
  have hupserts {db : Database} (hdb : Narrows s (withHostTables s db)) (upserts : List Inventory.ParsedInventoryHost) :
      Narrows s (withHostTables s (Inventory.Outcome.of db (Inventory.applyUpserts lib db upserts)).db) := by
    cases happly : Inventory.applyUpserts lib db upserts with
    | error e => exact hdb
    | ok db' =>
      obtain ⟨huploads, hreports⟩ := applyUpserts_rows happly
      constructor
      · show ∀ upload ∈ db'.uploads, upload ∈ s.uploads
        rw [huploads]
        exact hdb.uploads
      · show ∀ report ∈ db'.reports, report ∈ s.reports
        rw [hreports]
        exact hdb.reports
      · show ∀ report ∈ db'.reports, ∀ upload ∈ s.uploads, _ → _ → upload ∈ db'.uploads
        rw [huploads, hreports]
        exact hdb.beside
  rw [Inventory.handleInventoryEvent]
  split
  · exact hrefl
  · rename_i deleted hdeleted
    refine hupserts ?_ _
    split_ifs at hdeleted with hnone
    · obtain rfl := Except.ok.inj hdeleted
      exact hrefl
    · obtain ⟨selected, -, hdeleted⟩ := bind_eq_ok.mp hdeleted
      obtain rfl := Except.ok.inj hdeleted
      exact deleteKeys_narrows s _

/-- A report of a removed upload goes with it, and the others are for another host or organisation. -/
theorem remove_narrows {s : State} (hs : Placed s) (f : HostFilter) (deletion : Deletion) :
    Narrows s (f.remove s deletion) := by
  cases deletion with
  | uploads =>
    refine ⟨fun upload hupload => (Table.mem_deleteWhere.mp hupload).1,
      fun report hreport => (Table.mem_deleteWhere.mp hreport).1, ?_⟩
    intro report hreport upload hupload hhost horg
    obtain ⟨hmem, hstays⟩ := Table.mem_deleteWhere.mp hreport
    obtain ⟨own, hown, hownHost, hownOrg⟩ := hs.placed report hmem
    rw [hown] at hstays
    refine Table.mem_deleteWhere.mpr ⟨hupload, ?_⟩
    have hcurrent := hs.current own (Table.get?_eq_some.mp hown).1
    simp only [Option.any_some, HostFilter.upload, hcurrent, Bool.and_true] at hstays
    simp only [HostFilter.upload, hhost, horg, ← hownHost, ← hownOrg, hstays, Bool.false_and]
  | reports =>
    exact ⟨fun _ h => h, fun report hreport => (Table.mem_deleteWhere.mp hreport).1, fun _ _ _ h _ _ => h⟩
  | hostAcks => exact ⟨fun _ h => h, fun _ h => h, fun _ _ _ h _ _ => h⟩

theorem content_narrows (s : State) (rules : Table Rule.id) (ruleIds : (rules.rows.map (·.ruleId)).Nodup) :
    Narrows s (withContent s rules ruleIds) where
  uploads := fun _ h => h
  reports := fun _ hreport => (Table.mem_deleteWhere.mp hreport).1
  beside := fun _ _ _ h _ _ => h

/-- An event of the inventory keeps what the exports rest on. -/
structure Preserved (client : String) (s s' : State) : Prop where
  placed : Placed s → Placed s'
  exportable : Exportable client s → Exportable client s'
  inventory : s'.inventory = s.inventory

instance : Std.Refl (Preserved client) := ⟨fun _ => ⟨fun h => h, fun h => h, rfl⟩⟩

instance : IsTrans State (Preserved client) :=
  ⟨fun _ _ _ h h' => ⟨fun hs => h'.placed (h.placed hs), fun hs => h'.exportable (h.exportable hs),
    h'.inventory.trans h.inventory⟩⟩

theorem remove_frame (f : HostFilter) (s : State) (deletion : Deletion) :
    (f.remove s deletion).rules = s.rules ∧ (f.remove s deletion).inventory = s.inventory := by
  cases deletion <;> exact ⟨rfl, rfl⟩

theorem logWith_keeps (items : List (String × Json)) : Keeps (Preserved client) (logWith items) := by
  unfold logWith
  split
  · exact Keeps.raise _
  · exact Keeps.pure ()

theorem attempt_keeps (settings : CleanupSettings) (outages : Outages) (items : List (String × Json))
    (deletion : Deletion) (i : Nat) : Keeps (Preserved client) (attempt lib settings outages items deletion i) := by
  unfold attempt
  refine Keeps.bind (Keeps.ite (fun _ => logWith_keeps items) fun _ => Keeps.pure ()) fun _ => ?_
  refine Keeps.lift_bind fun host _ => ?_
  split
  · exact Keeps.raise _
  · refine Keeps.lift_bind fun orgId _ => Keeps.write fun s => ⟨fun hs => ?_, fun hs => ?_, ?_⟩
    · exact (remove_narrows hs _ deletion).placed hs
    · refine (remove_narrows hs.toPlaced _ deletion).exportable hs ?_
      rw [(remove_frame _ s deletion).1]
      exact hs.published
    · exact (remove_frame _ s deletion).2

theorem retrying_keeps (settings : CleanupSettings) (outages : Outages) (items : List (String × Json))
    (deletion : Deletion) (n i : Nat) (last : Option ConnectionError) :
    Keeps (Preserved client) (retrying lib settings outages items deletion n i last) := by
  induction n generalizing i last with
  | zero =>
    unfold retrying
    exact Keeps.bind (logWith_keeps items) fun _ => Keeps.raise _
  | succ n ih =>
    unfold retrying
    refine Keeps.catching (attempt_keeps settings outages items deletion i) fun e => ?_
    cases e with
    | other e => exact Keeps.raise _
    | connection e => exact Keeps.bind (logWith_keeps items) fun _ => ih (i + 1) (some e)

variable (client) in
theorem removal_keeps (settings : CleanupSettings) (outages : Outages) (message : Json) :
    Keeps (Preserved client) (Service.handleInventoryEvent lib settings outages message) := by
  unfold Service.handleInventoryEvent
  split
  · rename_i items
    refine Keeps.ite (fun _ => Keeps.raise _) fun _ => Keeps.ite (fun _ => Keeps.ite (fun _ => ?_) fun _ => ?_)
      fun _ => Keeps.pure ()
    · exact Keeps.bind (retrying_keeps settings outages items .uploads _ _ _) fun _ =>
        Keeps.bind (retrying_keeps settings outages items .reports _ _ _) fun _ =>
          retrying_keeps settings outages items .hostAcks _ _ _
    · exact Keeps.bind (logWith_keeps items) fun _ => Keeps.raise _
  · exact Keeps.raise _

end Others

section Runs

variable {lib : Library} {client : String}

theorem placed_apply {s : State} (hs : Placed s) (change : Change) : Placed (change.apply lib s) := by
  cases change with
  | upload settings faults call => exact (createDbReports_stores settings faults call s).placed hs
  | removal settings outages message => exact (removal_keeps "" settings outages message s).placed hs
  | inventory messages => exact (inventory_narrows s messages).placed hs
  | content rules ruleIds => exact (content_narrows s rules ruleIds).placed hs
  | acks orgAcks hostAcks => exact ⟨hs.current, hs.placed, hs.impacted⟩

theorem exportable_apply {s : State} {change : Change} (hs : Exportable client s) (hdated : Dated client s change) :
    Exportable client (change.apply lib s) := by
  cases change with
  | upload settings faults call => exact (createDbReports_stores settings faults call s).exportable hs hdated
  | removal settings outages message => exact (removal_keeps client settings outages message s).exportable hs
  | inventory messages => exact (inventory_narrows s messages).exportable hs hs.published
  | content rules ruleIds => exact (content_narrows s rules ruleIds).exportable hs hdated
  | acks orgAcks hostAcks => exact ⟨⟨hs.current, hs.placed, hs.impacted⟩, hs.seen, hs.published⟩

theorem placed_of_reached {meets : State → Change → Prop} {s : State} (h : Reached lib meets s) : Placed s := by
  induction h with
  | start => exact ⟨nofun, nofun, nofun⟩
  | step _ _ ih => exact placed_apply ih _

theorem exportable_of_reached {s : State} (h : Reached lib (Dated client) s) : Exportable client s := by
  induction h with
  | start => exact ⟨⟨nofun, nofun, nofun⟩, nofun, nofun⟩
  | step _ hdated ih => exact exportable_apply ih hdated

theorem inventoryRow_staleness {p : Inventory.ParsedInventoryHost} {row : AdvisorInventoryHost}
    (h : p.inventoryRow lib = .ok row) :
    row.cell "per_reporter_staleness" = some (.json p.perReporterStaleness) := by
  obtain ⟨attributes, hattributes, h⟩ := bind_eq_ok.mp h
  obtain ⟨inventoryId, -, h⟩ := bind_eq_ok.mp h
  obtain ⟨orgId, -, h⟩ := bind_eq_ok.mp h
  obtain ⟨updated, -, h⟩ := bind_eq_ok.mp h
  obtain ⟨columns, hcolumns, h⟩ := bind_eq_ok.mp h
  obtain rfl := Except.ok.inj h
  obtain ⟨lastCheckIn, -, hattributes⟩ := bind_eq_ok.mp hattributes
  obtain ⟨staleTimestamp, -, hattributes⟩ := bind_eq_ok.mp hattributes
  obtain rfl := Except.ok.inj hattributes
  have hfind : Inventory.inventoryColumns.find? (fun column => column.name == "per_reporter_staleness") =
      some { name := "per_reporter_staleness", type := .json } := rfl
  obtain ⟨value, hlookup, hclean⟩ := Inventory.lookup_clean (mapM_forall₂ hcolumns) hfind
  have hvalue : value = some (.json p.perReporterStaleness) := by
    have hattribute : Column.clean lib { name := "per_reporter_staleness", type := .json }
        (.json p.perReporterStaleness) = .ok value := hclean
    unfold Column.clean at hattribute
    split at hattribute
    · rename_i heq
      cases heq
    · cases hattribute
    · rename_i stored _ heq
      obtain rfl := Attribute.json.inj heq
      simp only at hattribute
      split_ifs at hattribute
      exact (Except.ok.inj hattribute).symm
  rw [AdvisorInventoryHost.cell, if_neg (by decide), if_neg (by decide), if_neg (by decide), hlookup, hvalue]
  rfl

def AllTimed (castTime : CastTime) (s : State) : Prop :=
  ∀ row ∈ s.inventory, castable castTime (row.cell "per_reporter_staleness") = true

theorem allTimed_apply {castTime : CastTime} {s : State} {change : Change} (hs : AllTimed castTime s)
    (htimed : Timed castTime change) : AllTimed castTime (change.apply lib s) := by
  have hsame {s' : State} (h : s'.inventory = s.inventory) : AllTimed castTime s' := by
    rw [AllTimed, h]
    exact hs
  cases change with
  | upload settings faults call => exact hsame (createDbReports_stores settings faults call s).inventory
  | removal settings outages message => exact hsame (removal_keeps "" settings outages message s).inventory
  | content rules ruleIds => exact hsame rfl
  | acks orgAcks hostAcks => exact hsame rfl
  | inventory messages =>
    intro row hrow
    rcases Inventory.handleInventoryEvent_mem hrow with hold | ⟨host, hhost, hmade⟩
    · exact hs row hold
    · rw [inventoryRow_staleness hmade]
      exact htimed host hhost

theorem allTimed_of_reached {castTime : CastTime} {s : State} (h : Reached lib (fun _ => Timed castTime) s) :
    AllTimed castTime s := by
  induction h with
  | start => exact nofun
  | step _ htimed ih => exact allTimed_apply ih htimed

structure Holds (tables : ExportTables) (s : State) : Prop where
  rules : tables.rules = s.rules
  reports : tables.reports = s.reports
  uploads : tables.uploads = s.uploads
  acks : tables.acks = s.acks
  hostAcks : tables.hostAcks = s.hostAcks
  hosts : tables.hosts = s.hosts
  inventory : tables.inventory = s.inventory

theorem Holds.timesRead {tables : ExportTables} {s : State} (h : Holds tables s) {castTime : CastTime}
    (htimed : AllTimed castTime s) (casts : AdvisorInventoryHost → Bool) (request : Request) :
    TimesRead castTime casts tables request := by
  intro _ row hrow _
  rw [h.inventory] at hrow
  exact htimed row hrow

theorem Holds.reportsWhole_iff {tables : ExportTables} {s : State} (h : Holds tables s) (hs : Placed s)
    (castTime : CastTime) (casts : AdvisorInventoryHost → Bool) (isoformat : Instant → String) (request : Request)
    (outer : OuterFilter) :
    ReportsWhole castTime casts isoformat tables request outer ↔ TimesRead castTime casts tables request := by
  rw [Reports.reportsWhole_iff]
  refine and_iff_left fun report hreport => ?_
  have hstored := selected_stored hreport
  rw [h.reports] at hstored
  exact hs.impacted report hstored

theorem Holds.hitsWhole {tables : ExportTables} {s : State} (h : Holds tables s) (hs : Exportable client s)
    (castTime : CastTime) {casts : AdvisorInventoryHost → Bool} (isoformat : Instant → String) {request : Request}
    (outer : OuterFilter) (htimes : TimesRead castTime casts tables request) :
    HitsWhole castTime casts isoformat client tables request outer := by
  refine (hitsWhole_iff ..).mpr ⟨htimes, fun report hreport => ⟨?_, ?_⟩⟩
  · have hstored := selected_stored hreport
    rw [h.reports] at hstored
    obtain ⟨upload, hupload, hhost, -, hsource⟩ := hs.seen report hstored
    refine ⟨upload, ?_, hhost, hsource, hs.current upload hupload⟩
    rwa [h.uploads]
  · obtain ⟨rule, hrule, hactive⟩ := selected_active hreport
    refine ⟨rule, hrule, hs.published rule ?_ hactive⟩
    have hmem := (Table.get?_eq_some.mp hrule).1
    rwa [h.rules] at hmem

variable (lib client)

/-- Which exports come through; and, over runs, that those of reports do after batches with times that can be cast,
those of hits after such batches and changes that have been dated. After any other changes the export of reports
depends on the times alone. -/
theorem exportsWhole (castTime : CastTime) (casts : AdvisorInventoryHost → Bool) (isoformat : Instant → String) :
    (∀ (tables : ExportTables) (request : Request) (outer : OuterFilter),
      (HitsWhole castTime casts isoformat client tables request outer ↔
          TimesRead castTime casts tables request ∧
            ∀ report ∈ selected castTime tables request outer, Seen client tables report.host ∧ Published tables report) ∧
        (ReportsWhole castTime casts isoformat tables request outer ↔
          TimesRead castTime casts tables request ∧
            ∀ report ∈ selected castTime tables request outer, report.impactedDate.isSome = true)) ∧
      (∀ (meets : State → Change → Prop) (s : State), Reached lib meets s → ∀ tables, Holds tables s →
        ∀ request outer, ReportsWhole castTime casts isoformat tables request outer ↔
          TimesRead castTime casts tables request) ∧
      (∀ s, Reached lib (fun _ => Timed castTime) s → ∀ tables, Holds tables s →
        ∀ request outer, ReportsWhole castTime casts isoformat tables request outer) ∧
      ∀ s, Reached lib (fun s change => Dated client s change ∧ Timed castTime change) s → ∀ tables, Holds tables s →
        ∀ request outer, HitsWhole castTime casts isoformat client tables request outer := by
  refine ⟨fun tables request outer => ⟨hitsWhole_iff .., reportsWhole_iff ..⟩, ?_, ?_, ?_⟩
  · intro meets s hs tables htables request outer
    exact htables.reportsWhole_iff (placed_of_reached hs) castTime casts isoformat request outer
  · intro s hs tables htables request outer
    rw [htables.reportsWhole_iff (placed_of_reached hs)]
    exact htables.timesRead (allTimed_of_reached hs) casts request
  · intro s hs tables htables request outer
    have hexportable := exportable_of_reached (hs.mono fun _ _ h => h.1)
    have htimed := allTimed_of_reached (hs.mono fun _ _ h => h.2)
    exact htables.hitsWhole hexportable castTime isoformat outer (htables.timesRead htimed casts request)

end Runs

section Raises

def puptooBody (staleWarning : Json) : Json :=
  .dict [("type", .str "created"), ("metadata", .dict [("request_id", .str "r1")]),
    ("host", .dict [("id", .str "00112233-4455-6677-8899-aabbccddeeff"), ("display_name", .str "host"),
      ("org_id", .str "1234"), ("tags", .list []), ("groups", .list []), ("created", .str "2024-05-01T10:00:00+00:00"),
      ("updated", .str "2024-05-01T10:00:00+00:00"), ("last_check_in", .str "2024-05-01T10:00:00+00:00"),
      ("insights_id", .str "11111111-2222-3333-4444-555555555555"),
      ("stale_timestamp", .str "2024-05-01T11:00:00+00:00"), ("system_profile", .dict []), ("reporter", .str "puptoo"),
      ("per_reporter_staleness", .dict [("puptoo", .dict [("stale_warning_timestamp", staleWarning)])])])]

def otherSource : UploadCall :=
  { clientUpload [weakKeys] with
    inventoryId := 0x00112233445566778899aabbccddeeff
    source := "ai-operations-client" }

theorem hardening_ruleIds : ((Table.single hardening : Table Rule.id).rows.map (·.ruleId)).Nodup := List.nodup_singleton _

def imported : State := Change.apply Inventory.isoLibrary .empty (.content (.single hardening) hardening_ruleIds)

/-- The rule has been imported, the host is in the inventory, and the upload is the first for it. -/
def reporting (staleWarning : Json) (call : UploadCall) : State :=
  Change.apply Inventory.isoLibrary (Change.apply Inventory.isoLibrary imported (.inventory [puptooBody staleWarning]))
    (.upload notifying noFaults call)

theorem reached_reporting (staleWarning : Json) (call : UploadCall) :
    Reached Inventory.isoLibrary (fun _ _ => True) (reporting staleWarning call) := by
  have himported : Reached Inventory.isoLibrary (fun _ _ => True) imported := .step .start trivial
  exact .step (.step himported trivial) trivial

def Constrained (s : State) : Prop :=
  (∀ report ∈ s.reports.rows, (s.rules.get? report.rule).isSome ∧ (s.hosts.get? report.host).isSome ∧
    (s.uploads.get? report.upload).isSome) ∧
      (∀ row ∈ s.inventory.rows, ∀ name ∈ requiredColumns, (row.cell name).isSome = true) ∧
        ((s.uploads.rows.filter (·.current)).map fun upload => (upload.host, upload.source)).Nodup

def tablesOf (s : State) (h : Constrained s) : ExportTables where
  rules := s.rules
  categoryOf _ := 0
  reports := s.reports
  acks := s.acks
  hostAcks := s.hostAcks
  hosts := s.hosts
  inventory := s.inventory
  reportRules := fun report hreport => (h.1 report hreport).1
  reportHosts := fun report hreport => (h.1 report hreport).2.1
  complete := fun row hrow => complete_iff.mpr (h.2.1 row hrow)
  uploads := s.uploads
  nodeIdOf _ := ""
  likelihoodOf _ := 1
  reportUploads := fun report hreport => (h.1 report hreport).2.2
  currentUploads := h.2.2

theorem holds_tablesOf {s : State} (h : Constrained s) : Holds (tablesOf s h) s := ⟨rfl, rfl, rfl, rfl, rfl, rfl, rfl⟩

def seenByOther : State := reporting (.str "2024-05-01T11:00:00+00:00") otherSource

theorem constrained_seenByOther : Constrained seenByOther := by
  unfold Constrained
  decide +kernel

def castDigits : CastTime
  | .str text => if (text.toList.take 1).all Char.isDigit then some 1 else none
  | _ => none

/-- The export of hits raises for the host, though the rule has been published. -/
theorem hits_raise_seenByOther :
    Reached Inventory.isoLibrary (fun _ _ => True) seenByOther ∧
      Holds (tablesOf seenByOther constrained_seenByOther) seenByOther ∧
        exportHits castDigits (fun _ => true) (fun _ => "") "insights-client" (tablesOf seenByOther constrained_seenByOther)
            { orgId := "1234", now := 0 } .none = .error .attributeError ∧
          ¬ HitsWhole castDigits (fun _ => true) (fun _ => "") "insights-client"
            (tablesOf seenByOther constrained_seenByOther) { orgId := "1234", now := 0 } .none := by
  have hraises : exportHits castDigits (fun _ => true) (fun _ => "") "insights-client"
      (tablesOf seenByOther constrained_seenByOther) { orgId := "1234", now := 0 } .none = .error .attributeError := by
    decide +kernel
  refine ⟨reached_reporting _ _, holds_tablesOf _, hraises, ?_⟩
  rintro ⟨reports, records, h, -⟩
  rw [hraises] at h
  cases h

def staleSoon : State := reporting (.str "soon") { otherSource with source := "insights-client" }

theorem constrained_staleSoon : Constrained staleSoon := by
  unfold Constrained
  decide +kernel

/-- The text is stored as it came, and both exports raise when it is cast. -/
theorem exports_raise_staleSoon :
    exportHits castDigits (fun _ => true) (fun _ => "") "insights-client" (tablesOf staleSoon constrained_staleSoon)
        { orgId := "1234", now := 0 } .none = .error .dataError ∧
      exportReports castDigits (fun _ => true) (fun _ => "") (tablesOf staleSoon constrained_staleSoon)
        { orgId := "1234", now := 0 } .none = .error .dataError := by
  have hraises : readSelected castDigits (fun _ => true) (tablesOf staleSoon constrained_staleSoon)
      { orgId := "1234", now := 0 } .none = .error .dataError := by
    decide +kernel
  refine ⟨?_, ?_⟩
  · rw [exportHits, hraises]
    rfl
  · rw [exportReports, hraises]
    rfl

end Raises

end Advisor.Reports
