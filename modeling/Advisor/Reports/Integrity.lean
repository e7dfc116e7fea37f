import Advisor.Reports.ExportRuns

/-! What the tables hold to in every state that the services and the importers lead to: each row points to rows that are
there, and a source has one upload for a host. -/

namespace Advisor.Reports

open Python Procedure Django Relational Service

/-- The foreign keys of the tables, and the unique current upload of a source for a host. -/
structure Intact (s : State) : Prop extends Placed s where
  hosts : (hostTables s).Referential
  reportRules : ∀ report ∈ s.reports, (s.rules.get? report.rule).isSome
  ackRules : ∀ ack ∈ s.acks, (s.rules.get? ack.rule).isSome
  hostAckRules : ∀ ack ∈ s.hostAcks, (s.rules.get? ack.rule).isSome
  sources : (s.uploads.rows.map fun upload => (upload.host, upload.source)).Nodup

def Pointing (s : State) : Change → Prop
  | .acks orgAcks hostAcks => (∀ ack ∈ orgAcks, (s.rules.get? ack.rule).isSome) ∧
      ∀ ack ∈ hostAcks, (s.rules.get? ack.rule).isSome ∧ (s.hosts.get? ack.host).isSome
  | .upload _ _ _ | .removal _ _ _ | .inventory _ | .content _ _ => True

theorem get?_isSome_of_mem {ρ κ : Type} [DecidableEq κ] {key : ρ → κ} {t : Table key} {row : ρ} (h : row ∈ t) :
    (t.get? (key row)).isSome := by
  rw [Table.mem_iff_get?.mp h]
  rfl

section Uploads

variable {settings : Settings} {faults : Faults} {call : UploadCall} {s s' : State}

theorem withHost_hosts {host : Uuid} (h : (s.hosts.get? host).isSome) :
    ((s.withHost call).hosts.get? host).isSome := by
  unfold State.withHost
  split
  · split_ifs
    · rw [updateHostRow, Table.get?_updateWhere, Option.isSome_map]
      exact h
    · exact h
  · split_ifs
    · split
      · rename_i hosts hinsert
        show (hosts.get? host).isSome
        rw [Table.get?_insert? hinsert]
        split_ifs
        · rfl
        · exact h
      · rw [withAcks_frame]
        exact h
    · exact h

theorem withAcks_acks {ack : Ack} (h : ack ∈ (s.withAcks call).acks) :
    ack ∈ s.acks ∨ ∃ rule ∈ s.rules, ack.rule = rule.id := by
  unfold State.withAcks at h
  split at h
  · rename_i acks hacks
    rcases (Table.mem_insertMany? hacks).mp h with hold | hnew
    · exact .inl hold
    · right
      unfold State.newAcks at hnew
      split_ifs at hnew
      · cases hnew
      · obtain ⟨rule, hrule, rfl⟩ := List.mem_map.mp hnew
        exact ⟨rule, Table.mem_def.mpr (List.mem_filter.mp hrule).1, rfl⟩
  · exact .inl h

theorem withHost_acks {ack : Ack} (h : ack ∈ (s.withHost call).acks) :
    ack ∈ s.acks ∨ ∃ rule ∈ s.rules, ack.rule = rule.id := by
  unfold State.withHost at h
  split at h
  · split_ifs at h
    · exact .inl h
    · exact .inl h
  · split_ifs at h
    · split at h
      · exact withAcks_acks h
      · exact withAcks_acks h
    · exact .inl h

theorem leaves_rule {known : Known} {k : String × Nat × Uuid} {row : CurrentReport}
    (h : s.leaves settings call known k = some row) :
    (∃ old ∈ s.reports, row.rule = old.rule) ∨ ∃ rule ∈ s.rules, row.rule = rule.id := by
  rw [State.leaves, Option.filter_eq_some_iff] at h
  obtain ⟨base, hbase, rfl⟩ := Option.map_eq_some_iff.mp h.1
  rw [rewritten]
  split
  · rename_i report hfind
    have hsame := List.find?_some hfind
    obtain ⟨entry, hentry, rfl⟩ := List.mem_map.mp (List.mem_reverse.mp (List.mem_of_find?_eq_some hfind))
    simp only [sameReport, Bool.and_eq_true, decide_eq_true_eq] at hsame
    exact .inr ⟨entry.rule, (entry_of_mem (List.mem_filter.mp hentry).1).1, hsame.1.1.1⟩
  · rcases Option.or_eq_some_iff.mp hbase with hold | ⟨-, hnew⟩
    · exact .inl ⟨base, (Table.get?_eq_some.mp hold).1, rfl⟩
    · obtain ⟨entry, hentry, rfl⟩ := List.mem_map.mp (List.mem_of_find?_eq_some hnew)
      exact .inr ⟨entry.rule, (entry_of_mem (mem_newEntries.mp hentry).1).1, rfl⟩

/-- What a call does to the tables that it does not report to. -/
structure Beside (call : UploadCall) (s s' : State) : Prop where
  rules : s'.rules = s.rules
  hostAcks : s'.hostAcks = s.hostAcks
  hosts : ∀ host, (s.hosts.get? host).isSome → (s'.hosts.get? host).isSome
  acks : ∀ ack ∈ s'.acks, ack ∈ s.acks ∨ ∃ rule ∈ s.rules, ack.rule = rule.id

theorem Beside.refl : Beside call s s := ⟨rfl, rfl, fun _ h => h, fun _ h => .inl h⟩

theorem beside_withHost (hrules : s'.rules = s.rules) (hhostAcks : s'.hostAcks = s.hostAcks)
    (hhosts : s'.hosts = (s.withHost call).hosts) (hacks : s'.acks = (s.withHost call).acks) : Beside call s s' where
  rules := hrules
  hostAcks := hhostAcks
  hosts := by
    rw [hhosts]
    exact fun host h => withHost_hosts h
  acks := by
    rw [hacks]
    exact fun ack h => withHost_acks h

/-- A call adds its host before it stores anything of its own. -/
structure Written (settings : Settings) (call : UploadCall) (s s' : State) : Prop where
  beside : Beside call s s'
  tables : s'.uploads = s.uploads ∧ s'.reports = s.reports ∨ (s'.hosts.get? call.inventoryId).isSome ∧ ∃ known s₁,
    updateOrCreateUpload call (s.withHost call) = (.ok known.upload, s₁) ∧ s'.uploads = s₁.uploads ∧
      ∀ k, s'.reports.get? k = s.leaves settings call known k

theorem transaction_written (settings : Settings) (faults : Faults) (call : UploadCall) (s : State) :
    Written settings call s (transaction faults (processUpload settings faults call) (s.withHost call)).2 := by
  have hback (s₂ : State) : Written settings call s ((s.withHost call).rolledBack s₂) :=
    ⟨beside_withHost (withHost_rules s call) (withHost_hostAcks s call) rfl rfl, .inl ⟨withHost_uploads s call, withHost_reports s call⟩⟩
  unfold transaction
  rcases processUpload_cases (s.withHost call) settings faults call with
    ⟨-, plan, s₁, s₂, hp, hstore, heq⟩ | ⟨-, e, s₂, heq, -⟩
  · obtain ⟨-, -, hs₂, hleaves⟩ := store_ok hp hstore
    rw [heq]
    dsimp only
    cases faults .commit with
    | some e => exact hback _
    | none =>
      dsimp only
      split
      · exact hback _
      · have hrules : s₂.rules = s.rules := by
          rw [hs₂, hp.frame]
          exact withHost_rules s call
        have hhostAcks : s₂.hostAcks = s.hostAcks := by
          rw [hs₂, hp.frame]
          exact withHost_hostAcks s call
        have hhosts : s₂.hosts = (s.withHost call).hosts := by rw [hs₂, hp.frame]
        have hacks : s₂.acks = (s.withHost call).acks := by rw [hs₂, hp.frame]
        refine ⟨beside_withHost hrules hhostAcks hhosts hacks, .inr ⟨?_, plan.known, s₁, hp.upload, ?_, fun k => ?_⟩⟩
        · show (s₂.hosts.get? call.inventoryId).isSome
          rw [hhosts]
          exact hp.accepts.host
        · show s₂.uploads = s₁.uploads
          rw [hs₂]
        · exact (hleaves k).trans (withHost_leaves s settings call plan.known k)
  · rw [heq]
    exact hback _

theorem createDbReports_written (settings : Settings) (faults : Faults) (call : UploadCall) (s : State) :
    Written settings call s (createDbReports settings faults call s).2 := by
  rcases createDbReports_state settings faults call s with hstate | ⟨-, hstate⟩ | hstate
  · rw [hstate]
    exact transaction_written settings faults call s
  · rw [hstate]
    refine ⟨⟨?_, ?_, ?_, fun ack h => withAcks_acks h⟩, .inl ⟨?_, ?_⟩⟩ <;> rw [withAcks_frame]
    exact fun host h => h
  · rw [hstate]
    exact ⟨Beside.refl, .inl ⟨rfl, rfl⟩⟩

theorem updateOrCreateUpload_sources {id : Nat} (h : updateOrCreateUpload call s = (.ok id, s'))
    (hcurrent : ∀ upload ∈ s.uploads, upload.current = true)
    (hs : (s.uploads.rows.map fun upload => (upload.host, upload.source)).Nodup) :
    (s'.uploads.rows.map fun upload => (upload.host, upload.source)).Nodup := by
  rcases updateOrCreateUpload_cases h with ⟨own, -, -, rfl⟩ | ⟨-, hfree, rfl, uploads, hinsert, rfl⟩
  · have hsame : ((s.uploads.updateWhere (fun row => row.id = own.id) call.refresh).rows.map
        fun upload => (upload.host, upload.source)) = s.uploads.rows.map fun upload => (upload.host, upload.source) := by
      show (s.uploads.rows.map _).map _ = _
      rw [List.map_map]
      refine List.map_congr_left fun upload _ => ?_
      show (fun upload : Upload => (upload.host, upload.source)) (if _ then _ else _) = _
      split
      · rfl
      · rfl
    show ((s.uploads.updateWhere _ call.refresh).rows.map _).Nodup
    rw [hsame]
    exact hs
  · have hrows : uploads.rows = s.uploads.rows ++ [call.newUpload (nextUploadId s)] := by
      unfold Table.insert? at hinsert
      split_ifs at hinsert
      cases hinsert
      rfl
    show (uploads.rows.map _).Nodup
    rw [hrows, List.map_append, List.map_singleton]
    refine hs.append (List.nodup_singleton _) ?_
    intro pair hpair hnew
    rw [List.mem_singleton.mp hnew] at hpair
    obtain ⟨upload, hupload, heq⟩ := List.mem_map.mp hpair
    obtain ⟨hhost, hsource⟩ := Prod.mk.inj heq
    have hnot := hfree upload hupload hhost hsource
    rw [hcurrent upload hupload] at hnot
    cases hnot

theorem Written.intact (h : Written settings call s s') (hplaced : Placed s') (hs : Intact s) : Intact s' := by
  have hackRules : ∀ ack ∈ s'.acks, (s'.rules.get? ack.rule).isSome := by
    intro ack hack
    rw [h.beside.rules]
    rcases h.beside.acks ack hack with hold | ⟨rule, hrule, heq⟩
    · exact hs.ackRules ack hold
    · rw [heq]
      exact get?_isSome_of_mem hrule
  have hhostAckRules : ∀ ack ∈ s'.hostAcks, (s'.rules.get? ack.rule).isSome := by
    rw [h.beside.rules, h.beside.hostAcks]
    exact hs.hostAckRules
  have hhostAckHosts : ∀ ack ∈ s'.hostAcks, (s'.hosts.get? ack.host).isSome := by
    rw [h.beside.hostAcks]
    exact fun ack hack => h.beside.hosts _ (hs.hosts.hostAcks ack hack)
  have hreportUploads : ∀ report ∈ s'.reports, (s'.uploads.get? report.upload).isSome := by
    intro report hreport
    obtain ⟨upload, hupload, -⟩ := hplaced.placed report hreport
    rw [hupload]
    rfl
  rcases h.tables with ⟨huploads, hreports⟩ | ⟨hhost, known, s₁, hupload, huploads, hleaves⟩
  · refine ⟨hplaced, ⟨?_, ?_, hreportUploads, hhostAckHosts⟩, ?_, hackRules, hhostAckRules, ?_⟩
    · show ∀ upload ∈ s'.uploads, _
      rw [huploads]
      exact fun upload hupload => h.beside.hosts _ (hs.hosts.uploads upload hupload)
    · show ∀ report ∈ s'.reports, _
      rw [hreports]
      exact fun report hreport => h.beside.hosts _ (hs.hosts.reports report hreport)
    · rw [hreports, h.beside.rules]
      exact hs.reportRules
    · rw [huploads]
      exact hs.sources
  · have hcurrent : ∀ upload ∈ (s.withHost call).uploads, upload.current = true := by
      rw [withHost_uploads]
      exact hs.current
    have hsources := updateOrCreateUpload_sources hupload hcurrent (by rw [withHost_uploads]; exact hs.sources)
    refine ⟨hplaced, ⟨?_, ?_, hreportUploads, hhostAckHosts⟩, ?_, hackRules, hhostAckRules, ?_⟩
    · -- an upload that was there keeps its host, and a new one has that of the call
      show ∀ upload ∈ s'.uploads, _
      rw [huploads]
      intro upload hmem
      rcases updateOrCreateUpload_cases hupload with ⟨own, -, -, rfl⟩ | ⟨-, -, -, uploads, hinsert, rfl⟩
      · obtain ⟨old, hold, rfl⟩ := Table.mem_updateWhere.mp hmem
        rw [withHost_uploads] at hold
        have hkept := h.beside.hosts _ (hs.hosts.uploads old hold)
        split
        · exact hkept
        · exact hkept
      · rcases (Table.mem_insert? hinsert upload).mp hmem with hold | rfl
        · rw [withHost_uploads] at hold
          exact h.beside.hosts _ (hs.hosts.uploads upload hold)
        · exact hhost
    · intro report hreport
      have hget := Table.mem_iff_get?.mp (show report ∈ s'.reports from hreport)
      rw [hleaves] at hget
      rcases leaves_some hget with hold | ⟨-, hh, -⟩
      · exact h.beside.hosts _ (hs.hosts.reports report hold)
      · show (s'.hosts.get? report.host).isSome
        rw [hh]
        exact hhost
    · intro report hreport
      have hget := Table.mem_iff_get?.mp hreport
      rw [hleaves] at hget
      rw [h.beside.rules]
      rcases leaves_rule hget with ⟨old, hold, heq⟩ | ⟨rule, hrule, heq⟩
      · rw [heq]
        exact hs.reportRules old hold
      · rw [heq]
        exact get?_isSome_of_mem hrule
    · rw [huploads]
      exact hsources

end Uploads

section Others

variable {lib : Library} {s : State}

theorem deleteKeys_intact (hs : Intact s) (selected : String × Uuid → Bool) :
    Intact (withHostTables s ((hostTables s).deleteKeys selected)) := by
  have hstays : ∀ host, (s.hosts.get? host).isSome →
      ((s.hosts.get? host).any fun row => selected (row.orgId, row.inventoryId)) = false →
        ((s.hosts.deleteWhere fun row => selected (row.orgId, row.inventoryId)).get? host).isSome := by
    intro host hhost hnot
    obtain ⟨row, hrow⟩ := Option.isSome_iff_exists.mp hhost
    rw [hrow, Option.any_some] at hnot
    rw [Table.get?_deleteWhere, hrow]
    simp [hnot]
  refine ⟨(deleteKeys_narrows s selected).placed hs.toPlaced, ⟨?_, ?_, ?_, ?_⟩, ?_, hs.ackRules, ?_, ?_⟩
  · intro upload hupload
    obtain ⟨hmem, hnot⟩ := Table.mem_deleteWhere.mp hupload
    exact hstays _ (hs.hosts.uploads upload hmem) hnot
  · intro report hreport
    obtain ⟨hmem, hnot⟩ := Table.mem_deleteWhere.mp hreport
    exact hstays _ (hs.hosts.reports report hmem) (Bool.or_eq_false_iff.mp hnot).1
  · intro report hreport
    obtain ⟨upload, hupload, -⟩ := ((deleteKeys_narrows s selected).placed hs.toPlaced).placed report hreport
    exact Option.isSome_iff_exists.mpr ⟨upload, hupload⟩
  · intro ack hack
    obtain ⟨hmem, hnot⟩ := Table.mem_deleteWhere.mp hack
    exact hstays _ (hs.hosts.hostAcks ack hmem) hnot
  · exact fun report hreport => hs.reportRules report (Table.mem_deleteWhere.mp hreport).1
  · exact fun ack hack => hs.hostAckRules ack (Table.mem_deleteWhere.mp hack).1
  · exact hs.sources.sublist (List.filter_sublist.map _)

theorem applyUpserts_hosts {db db' : Database} {upserts : List Inventory.ParsedInventoryHost}
    (h : Inventory.applyUpserts lib db upserts = .ok db') :
    db'.hostAcks = db.hostAcks ∧ ∀ host, (db.hosts.get? host).isSome → (db'.hosts.get? host).isSome := by
  unfold Inventory.applyUpserts at h
  split_ifs at h with hnone
  · obtain rfl := Except.ok.inj h
    exact ⟨rfl, fun _ h => h⟩
  · obtain ⟨fresh, -, h⟩ := bind_eq_ok.mp h
    split_ifs at h with hstale
    · obtain rfl := Except.ok.inj h
      exact ⟨rfl, fun _ h => h⟩
    · obtain ⟨inventory, -, h⟩ := bind_eq_ok.mp h
      obtain ⟨hosts, -, h⟩ := bind_eq_ok.mp h
      unfold Inventory.upsertInstances at h
      split at h
      · rename_i inventoryTable hostTable _ hupserted
        obtain rfl := Except.ok.inj h
        refine ⟨rfl, fun host hhost => ?_⟩
        show (hostTable.get? host).isSome
        rw [Table.get?_upsertMany? hupserted]
        split
        · rfl
        · exact hhost
      · cases h

theorem upserts_intact {db : Database} (hs : Intact (withHostTables s db)) (upserts : List Inventory.ParsedInventoryHost) :
    Intact (withHostTables s (Inventory.Outcome.of db (Inventory.applyUpserts lib db upserts)).db) := by
  cases happly : Inventory.applyUpserts lib db upserts with
  | error e => exact hs
  | ok db' =>
    obtain ⟨huploads, hreports⟩ := applyUpserts_rows happly
    obtain ⟨hhostAcks, hhosts⟩ := applyUpserts_hosts happly
    have hplaced : Placed (withHostTables s db') := by
      refine ⟨?_, ?_, ?_⟩
      · show ∀ upload ∈ db'.uploads, _
        rw [huploads]
        exact hs.current
      · show ∀ report ∈ db'.reports, ∃ upload, db'.uploads.get? report.upload = some upload ∧ _
        rw [huploads, hreports]
        exact hs.placed
      · show ∀ report ∈ db'.reports, _
        rw [hreports]
        exact hs.impacted
    refine ⟨hplaced, ⟨?_, ?_, ?_, ?_⟩, ?_, hs.ackRules, ?_, ?_⟩
    · show ∀ upload ∈ db'.uploads, (db'.hosts.get? upload.host).isSome
      rw [huploads]
      exact fun upload hupload => hhosts _ (hs.hosts.uploads upload hupload)
    · show ∀ report ∈ db'.reports, (db'.hosts.get? report.host).isSome
      rw [hreports]
      exact fun report hreport => hhosts _ (hs.hosts.reports report hreport)
    · show ∀ report ∈ db'.reports, (db'.uploads.get? report.upload).isSome
      rw [huploads, hreports]
      exact hs.hosts.reportUploads
    · show ∀ ack ∈ db'.hostAcks, (db'.hosts.get? ack.host).isSome
      rw [hhostAcks]
      exact fun ack hack => hhosts _ (hs.hosts.hostAcks ack hack)
    · show ∀ report ∈ db'.reports, _
      rw [hreports]
      exact hs.reportRules
    · show ∀ ack ∈ db'.hostAcks, _
      rw [hhostAcks]
      exact hs.hostAckRules
    · show (db'.uploads.rows.map _).Nodup
      rw [huploads]
      exact hs.sources

theorem inventory_intact (hs : Intact s) (messages : List Json) :
    Intact (withHostTables s (Inventory.handleInventoryEvent lib (hostTables s) messages).db) := by
  rw [Inventory.handleInventoryEvent]
  split
  · exact hs
  · rename_i deleted hdeleted
    refine upserts_intact ?_ _
    split_ifs at hdeleted with hnone
    · obtain rfl := Except.ok.inj hdeleted
      exact hs
    · obtain ⟨selected, -, hdeleted⟩ := bind_eq_ok.mp hdeleted
      obtain rfl := Except.ok.inj hdeleted
      exact deleteKeys_intact hs _

theorem remove_intact (hs : Intact s) (f : HostFilter) (deletion : Deletion) : Intact (f.remove s deletion) := by
  have hplaced := (remove_narrows hs.toPlaced f deletion).placed hs.toPlaced
  have hreportUploads : ∀ report ∈ (f.remove s deletion).reports,
      ((f.remove s deletion).uploads.get? report.upload).isSome := by
    intro report hreport
    obtain ⟨upload, hupload, -⟩ := hplaced.placed report hreport
    exact Option.isSome_iff_exists.mpr ⟨upload, hupload⟩
  cases deletion with
  | uploads =>
    refine ⟨hplaced, ⟨?_, ?_, hreportUploads, hs.hosts.hostAcks⟩, ?_, hs.ackRules, hs.hostAckRules, ?_⟩
    · exact fun upload hupload => hs.hosts.uploads upload (Table.mem_deleteWhere.mp hupload).1
    · exact fun report hreport => hs.hosts.reports report (Table.mem_deleteWhere.mp hreport).1
    · exact fun report hreport => hs.reportRules report (Table.mem_deleteWhere.mp hreport).1
    · exact hs.sources.sublist (List.filter_sublist.map _)
  | reports =>
    refine ⟨hplaced, ⟨hs.hosts.uploads, ?_, hreportUploads, hs.hosts.hostAcks⟩, ?_, hs.ackRules, hs.hostAckRules, hs.sources⟩
    · exact fun report hreport => hs.hosts.reports report (Table.mem_deleteWhere.mp hreport).1
    · exact fun report hreport => hs.reportRules report (Table.mem_deleteWhere.mp hreport).1
  | hostAcks =>
    refine ⟨hplaced, ⟨hs.hosts.uploads, hs.hosts.reports, hreportUploads, ?_⟩, hs.reportRules, hs.ackRules, ?_, hs.sources⟩
    · exact fun ack hack => hs.hosts.hostAcks ack (Table.mem_deleteWhere.mp hack).1
    · exact fun ack hack => hs.hostAckRules ack (Table.mem_deleteWhere.mp hack).1

/-- What each deletion of an event does, the whole event does, wherever the database lets it down. -/
theorem handleInventoryEvent_keeps {R : State → State → Prop} [Std.Refl R] [IsTrans State R]
    (hremove : ∀ (s : State) (f : HostFilter) (deletion : Deletion), R s (f.remove s deletion))
    (settings : CleanupSettings) (outages : Outages) (message : Json) :
    Keeps R (Service.handleInventoryEvent lib settings outages message) := by
  have hlog (items : List (String × Json)) : Keeps R (logWith items) := by
    unfold logWith
    split
    · exact Keeps.raise _
    · exact Keeps.pure ()
  have hattempt (items : List (String × Json)) (deletion : Deletion) (i : Nat) :
      Keeps R (attempt lib settings outages items deletion i) := by
    unfold attempt
    refine Keeps.bind (Keeps.ite (fun _ => hlog items) fun _ => Keeps.pure ()) fun _ => ?_
    refine Keeps.lift_bind fun host _ => ?_
    split
    · exact Keeps.raise _
    · exact Keeps.lift_bind fun orgId _ => Keeps.write fun s => hremove s _ deletion
  have hretrying (items : List (String × Json)) (deletion : Deletion) (n i : Nat) (last : Option ConnectionError) :
      Keeps R (retrying lib settings outages items deletion n i last) := by
    induction n generalizing i last with
    | zero =>
      unfold retrying
      exact Keeps.bind (hlog items) fun _ => Keeps.raise _
    | succ n ih =>
      unfold retrying
      refine Keeps.catching (hattempt items deletion i) fun e => ?_
      cases e with
      | other e => exact Keeps.raise _
      | connection e => exact Keeps.bind (hlog items) fun _ => ih (i + 1) (some e)
  unfold Service.handleInventoryEvent
  split
  · rename_i items
    refine Keeps.ite (fun _ => Keeps.raise _) fun _ => Keeps.ite (fun _ => Keeps.ite (fun _ => ?_) fun _ => ?_)
      fun _ => Keeps.pure ()
    · exact Keeps.bind (hretrying items .uploads _ _ _) fun _ =>
        Keeps.bind (hretrying items .reports _ _ _) fun _ => hretrying items .hostAcks _ _ _
    · exact Keeps.bind (hlog items) fun _ => Keeps.raise _
  · exact Keeps.raise _

def KeepsIntact (s s' : State) : Prop := Intact s → Intact s'

instance : Std.Refl KeepsIntact := ⟨fun _ h => h⟩

instance : IsTrans State KeepsIntact := ⟨fun _ _ _ h h' hs => h' (h hs)⟩

theorem removal_intact (settings : CleanupSettings) (outages : Outages) (message : Json) :
    Keeps KeepsIntact (Service.handleInventoryEvent lib settings outages message) :=
  handleInventoryEvent_keeps (fun _ f deletion hs => remove_intact hs f deletion) settings outages message

theorem content_intact (hs : Intact s) (rules : Table Rule.id) (ruleIds : (rules.rows.map (·.ruleId)).Nodup) :
    Intact (withContent s rules ruleIds) := by
  have hplaced := (content_narrows s rules ruleIds).placed hs.toPlaced
  have hthere : ∀ rule, ((rules.get? rule).isNone) = false → (rules.get? rule).isSome := by
    intro rule h
    rw [Option.isSome_iff_ne_none]
    rintro hnone
    rw [hnone] at h
    cases h
  refine ⟨hplaced, ⟨hs.hosts.uploads, ?_, ?_, ?_⟩, ?_, ?_, ?_, hs.sources⟩
  · exact fun report hreport => hs.hosts.reports report (Table.mem_deleteWhere.mp hreport).1
  · exact fun report hreport => hs.hosts.reportUploads report (Table.mem_deleteWhere.mp hreport).1
  · exact fun ack hack => hs.hosts.hostAcks ack (Table.mem_deleteWhere.mp hack).1
  · exact fun report hreport => hthere _ (Table.mem_deleteWhere.mp hreport).2
  · exact fun ack hack => hthere _ (Table.mem_deleteWhere.mp hack).2
  · exact fun ack hack => hthere _ (Table.mem_deleteWhere.mp hack).2

end Others

section Runs

variable {lib : Library} {s : State}

theorem intact_apply (hs : Intact s) (change : Change) (hpointing : Pointing s change) : Intact (change.apply lib s) := by
  cases change with
  | upload settings faults call =>
    exact (createDbReports_written settings faults call s).intact
      ((createDbReports_stores settings faults call s).placed hs.toPlaced) hs
  | removal settings outages message => exact removal_intact settings outages message s hs
  | inventory messages => exact inventory_intact hs messages
  | content rules ruleIds => exact content_intact hs rules ruleIds
  | acks orgAcks hostAcks =>
    refine ⟨⟨hs.current, hs.placed, hs.impacted⟩, ⟨hs.hosts.uploads, hs.hosts.reports, hs.hosts.reportUploads, ?_⟩,
      hs.reportRules, hpointing.1, ?_, hs.sources⟩
    · exact fun ack hack => (hpointing.2 ack hack).2
    · exact fun ack hack => (hpointing.2 ack hack).1

/-- Whatever the services and the importers did, and wherever the database or a producer let them down: every upload,
report and ack is for a host and a rule that are there, a report is of an upload of its host and organisation, and a
source has one upload for a host. -/
theorem intact_of_reached (h : Reached lib Pointing s) : Intact s := by
  induction h with
  | start => exact ⟨⟨nofun, nofun, nofun⟩, ⟨nofun, nofun, nofun, nofun⟩, nofun, nofun, nofun, List.nodup_nil⟩
  | step _ hpointing ih => exact intact_apply ih _ hpointing

theorem intact_seenByOther : Intact seenByOther := by
  have himported : Reached Inventory.isoLibrary Pointing imported := .step .start trivial
  rw [seenByOther, reporting]
  exact intact_of_reached (.step (.step himported trivial) trivial)

end Runs

end Advisor.Reports
