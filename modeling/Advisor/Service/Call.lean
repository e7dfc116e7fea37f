import Advisor.Service.Messages
import Advisor.Service.Reports

/-! A whole call: the host it finds or creates, and the transaction after it. -/

namespace Advisor.Service

open Python Procedure Django Relational

variable {settings : Settings} {faults : Faults} {call : UploadCall} {s : State}

def State.newAcks (s : State) (call : UploadCall) : List Ack :=
  if s.uploads.rows.any fun upload => upload.orgId = call.orgId && upload.current then []
  else s.autoackRules.map call.autoack

def State.withAcks (s : State) (call : UploadCall) : State :=
  match s.acks.insertMany? (s.newAcks call) with
  | some acks => { s with acks }
  | none => s

/-- The state a call starts its transaction from. -/
def State.withHost (s : State) (call : UploadCall) : State :=
  match s.hosts.get? call.inventoryId with
  | some host => if call.updatesHost then (updateHostRow (call.updateHost host) s).2 else s
  | none =>
    if call.identified then
      match s.hosts.insert? (call.updateHost call.newHost) with
      | some hosts => { s.withAcks call with hosts }
      | none => s.withAcks call
    else s

theorem autoackRules_no_ack {rule : Rule} (h : rule ∈ s.autoackRules) (orgId : String) :
    s.acks.get? (rule.id, orgId) = none := by
  rw [Table.get?_eq_none]
  intro ack hack hkey
  simp only [State.autoackRules, List.mem_filter, Bool.and_eq_true, Bool.not_eq_true', List.any_eq_false] at h
  have hne := h.2.2 ack hack
  simp [(Prod.mk.inj hkey).1] at hne

theorem insertMany?_newAcks (s : State) (call : UploadCall) : (s.acks.insertMany? (s.newAcks call)).isSome := by
  rw [Table.insertMany?_isSome]
  unfold State.newAcks
  split_ifs
  · simp
  · constructor
    · have hkeys : (s.autoackRules.map call.autoack).map Ack.key =
          (s.autoackRules.map (·.id)).map fun id => (id, call.orgId) := by
        rw [List.map_map, List.map_map]
        rfl
      rw [hkeys]
      refine List.Nodup.map (fun a b hab => (Prod.mk.inj hab).1) ?_
      exact s.rules.unique.sublist (List.filter_sublist.map _)
    · intro ack hack
      obtain ⟨rule, hrule, rfl⟩ := List.mem_map.mp hack
      exact autoackRules_no_ack hrule call.orgId

theorem withAcks_frame (s : State) (call : UploadCall) : s.withAcks call = { s with acks := (s.withAcks call).acks } := by
  unfold State.withAcks
  split <;> rfl

theorem withHost_frame (s : State) (call : UploadCall) :
    s.withHost call = { s with hosts := (s.withHost call).hosts, acks := (s.withHost call).acks } := by
  unfold State.withHost
  split
  · split_ifs <;> rfl
  · split_ifs
    · split <;> rw [withAcks_frame]
    · rfl

@[simp] theorem withHost_reports (s : State) (call : UploadCall) : (s.withHost call).reports = s.reports := by
  rw [withHost_frame]

@[simp] theorem withHost_rules (s : State) (call : UploadCall) : (s.withHost call).rules = s.rules := by
  rw [withHost_frame]

@[simp] theorem withHost_uploads (s : State) (call : UploadCall) : (s.withHost call).uploads = s.uploads := by
  rw [withHost_frame]

@[simp] theorem withHost_inventory (s : State) (call : UploadCall) : (s.withHost call).inventory = s.inventory := by
  rw [withHost_frame]

@[simp] theorem withHost_hostAcks (s : State) (call : UploadCall) : (s.withHost call).hostAcks = s.hostAcks := by
  rw [withHost_frame]

@[simp] theorem withHost_sent (s : State) (call : UploadCall) : (s.withHost call).sent = s.sent := by
  rw [withHost_frame]

theorem insertHostRow_new (hnone : s.hosts.get? call.inventoryId = none) :
    ∃ hosts, s.hosts.insert? (call.updateHost call.newHost) = some hosts ∧ (hosts.get? call.inventoryId).isSome ∧
      insertHostRow (call.updateHost call.newHost) s = (.ok (), { s with hosts }) := by
  have hfree : s.hosts.get? (call.updateHost call.newHost).inventoryId = none := hnone
  obtain ⟨hosts, hinsert⟩ := Table.exists_insert? hfree
  refine ⟨hosts, hinsert, ?_, by rw [insertHostRow, hinsert]⟩
  rw [Table.get?_insert? hinsert]
  exact congrArg Option.isSome (if_pos rfl)

theorem withHost_host (s : State) (call : UploadCall)
    (h : s.hosts.get? call.inventoryId = none → call.identified = true) :
    ((s.withHost call).hosts.get? call.inventoryId).isSome := by
  unfold State.withHost
  cases hfound : s.hosts.get? call.inventoryId with
  | some host =>
    dsimp only
    split_ifs
    · rw [updateHostRow, Table.get?_updateWhere, hfound]
      rfl
    · rw [hfound]
      rfl
  | none =>
    dsimp only
    rw [if_pos (h hfound)]
    obtain ⟨hosts, hinsert, hhost, -⟩ := insertHostRow_new hfound
    rw [hinsert]
    exact hhost

theorem withHost_refused (hnone : s.hosts.get? call.inventoryId = none) (h : call.identified = false) :
    s.withHost call = s := by
  unfold State.withHost
  rw [hnone, h]
  rfl

structure State.HostReady (s : State) (faults : Faults) (call : UploadCall) : Prop where
  identified : s.hosts.get? call.inventoryId = none → call.identified = true
  lookup : faults .hostLookup = none
  update : ((s.hosts.get? call.inventoryId).isSome → call.updatesHost = true) → faults .hostUpdate = none
  insert : s.hosts.get? call.inventoryId = none → faults .orgUploads = none ∧ faults .hostInsert = none
  acks : s.hosts.get? call.inventoryId = none →
    (s.uploads.rows.any fun upload => upload.orgId = call.orgId && upload.current) = false →
      faults .autoackRules = none ∧ (s.newAcks call ≠ [] → faults .ackInsert = none)

/-- The call inserts acks and cannot save its host then. -/
structure State.AcksStay (s : State) (faults : Faults) (call : UploadCall) : Prop where
  identified : call.identified = true
  host : s.hosts.get? call.inventoryId = none
  acks : s.newAcks call ≠ []
  inserted : ∀ site ∈ [Site.hostLookup, .orgUploads, .autoackRules, .ackInsert], faults site = none
  save : faults .hostUpdate ≠ none ∨ faults .hostInsert ≠ none

theorem withAcks_of_nil (h : s.newAcks call = []) : s.withAcks call = s := by
  rw [State.withAcks, h]
  rfl

theorem statement_error {α : Type} {site : Site} {e : Exception} (h : faults site = some e) (p : Run α) (s : State) :
    statement faults site p s = (.error e, s) := by
  rw [statement, h]
  rfl

theorem insertAcks_newAcks (s : State) (call : UploadCall) :
    insertAcks (s.newAcks call) s = (.ok (), s.withAcks call) := by
  obtain ⟨acks, hacks⟩ := Option.isSome_iff_exists.mp (insertMany?_newAcks s call)
  rw [insertAcks, State.withAcks, hacks]

theorem createAutoacks_eq (faults : Faults) (s : State) (hidentified : call.identified = true) :
    (faults .orgUploads = none ∧
        ((s.uploads.rows.any fun upload => upload.orgId = call.orgId && upload.current) = false →
          faults .autoackRules = none ∧ (s.newAcks call ≠ [] → faults .ackInsert = none)) ∧
        createAutoacks faults call s = (.ok (), s.withAcks call)) ∨
      ¬ (faults .orgUploads = none ∧
        ((s.uploads.rows.any fun upload => upload.orgId = call.orgId && upload.current) = false →
          faults .autoackRules = none ∧ (s.newAcks call ≠ [] → faults .ackInsert = none))) ∧
        ∃ e, createAutoacks faults call s = (.error e, s) := by
  unfold createAutoacks
  simp only [selecting_of hidentified, identifying_of hidentified]
  cases huploads : faults .orgUploads with
  | some e =>
    refine Or.inr ⟨by simp, e, ?_⟩
    rw [bind_of_error (statement_error huploads _ s)]
  | none =>
    rw [statement_of_none huploads, read_bind]
    cases hknown : s.uploads.rows.any fun upload => upload.orgId = call.orgId && upload.current with
    | true =>
      refine Or.inl ⟨rfl, by simp, ?_⟩
      rw [withAcks_of_nil (by rw [State.newAcks, if_pos hknown])]
      rfl
    | false =>
      have hacks : s.newAcks call = s.autoackRules.map call.autoack := by rw [State.newAcks, hknown]; rfl
      rw [if_neg Bool.false_ne_true]
      cases hrules : faults .autoackRules with
      | some e =>
        refine Or.inr ⟨by simp, e, ?_⟩
        rw [bind_of_error (statement_error hrules _ s)]
      | none =>
        rw [statement_of_none hrules, read_bind]
        by_cases hnil : s.autoackRules = []
        · refine Or.inl ⟨rfl, by simp [hacks, hnil], ?_⟩
          rw [withAcks_of_nil (by rw [hacks, hnil]; rfl), hnil]
          rfl
        · rw [if_neg (by simpa using hnil), ← hacks]
          have hnew : s.newAcks call ≠ [] := by simpa [hacks] using hnil
          cases hinsert : faults .ackInsert with
          | some e =>
            refine Or.inr ⟨by simp [hnew], e, ?_⟩
            exact statement_error hinsert _ s
          | none =>
            refine Or.inl ⟨rfl, by simp, ?_⟩
            rw [statement_of_none hinsert, insertAcks_newAcks]

theorem saveNewHost_eq (faults : Faults) (hidentified : call.identified = true)
    (hnone : s.hosts.get? call.inventoryId = none) (acks : State) (hacks : acks.hosts = s.hosts) :
    (faults .hostUpdate = none ∧ faults .hostInsert = none ∧ ∃ hosts,
        s.hosts.insert? (call.updateHost call.newHost) = some hosts ∧
          saveNewHost faults call (call.updateHost call.newHost) acks = (.ok (), { acks with hosts })) ∨
      (faults .hostUpdate ≠ none ∨ faults .hostInsert ≠ none) ∧
        ∃ e, saveNewHost faults call (call.updateHost call.newHost) acks = (.error e, acks) := by
  have hmissing : acks.hosts.get? (call.updateHost call.newHost).inventoryId = none := by rw [hacks]; exact hnone
  have hnothing : updateHostRow (call.updateHost call.newHost) acks = (.ok false, acks) := by
    have hsame : acks.hosts.updateWhere (fun row => row.inventoryId = (call.updateHost call.newHost).inventoryId)
        (overwriteHost (call.updateHost call.newHost)) = acks.hosts := by
      have hmap : acks.hosts.rows.map (fun row => if row.inventoryId = (call.updateHost call.newHost).inventoryId then
          (overwriteHost (call.updateHost call.newHost)).1 row else row) = acks.hosts.rows.map id :=
        List.map_congr_left fun row hrow => if_neg (Table.get?_eq_none.mp hmissing row hrow)
      simp only [Table.updateWhere, decide_eq_true_eq]
      congr 1
      rw [hmap, List.map_id]
    rw [updateHostRow, hmissing, hsame]
    rfl
  unfold saveNewHost
  simp only [identifying_of hidentified]
  cases hupdate : faults .hostUpdate with
  | some e => exact Or.inr ⟨by simp, e, by rw [bind_of_error (statement_error hupdate _ acks)]⟩
  | none =>
    rw [statement_of_none hupdate, bind_of_ok hnothing, if_neg Bool.false_ne_true]
    cases hinsert : faults .hostInsert with
    | some e => exact Or.inr ⟨by simp, e, statement_error hinsert _ acks⟩
    | none =>
      obtain ⟨hosts, hrow, -, hinserted⟩ := insertHostRow_new (hacks ▸ hnone)
      rw [hacks] at hrow
      exact Or.inl ⟨rfl, rfl, hosts, hrow, by rw [statement_of_none hinsert, hinserted]⟩

theorem createAutoacks_refused (faults : Faults) (s : State) (hrefused : call.identified = false) :
    (createAutoacks faults call s = (.ok (), s)) ∨ ∃ e, createAutoacks faults call s = (.error e, s) := by
  unfold createAutoacks
  cases huploads : faults .orgUploads with
  | some e => exact Or.inr ⟨e, by rw [bind_of_error (statement_error huploads _ s)]⟩
  | none =>
    rw [statement_of_none huploads]
    rcases selecting_cases call (read fun s : State =>
      s.uploads.rows.any fun upload => upload.orgId = call.orgId && upload.current) s with hselects | ⟨-, e, herror⟩
    · rw [hselects, read_bind]
      cases s.uploads.rows.any fun upload => upload.orgId = call.orgId && upload.current with
      | true => exact Or.inl rfl
      | false =>
        rw [if_neg Bool.false_ne_true]
        cases hrules : faults .autoackRules with
        | some e => exact Or.inr ⟨e, by rw [bind_of_error (statement_error hrules _ s)]⟩
        | none =>
          rw [statement_of_none hrules, read_bind]
          split_ifs
          · exact Or.inl rfl
          · cases hinsert : faults .ackInsert with
            | some e => exact Or.inr ⟨e, statement_error hinsert _ s⟩
            | none =>
              rw [statement_of_none hinsert]
              exact Or.inr (identifying_refused hrefused _ s)
    · exact Or.inr ⟨e, by rw [bind_of_error herror]⟩

theorem saveNewHost_refused (faults : Faults) (s : State) (hrefused : call.identified = false) (host : Host) :
    ∃ e, saveNewHost faults call host s = (.error e, s) := by
  unfold saveNewHost
  cases hupdate : faults .hostUpdate with
  | some e => exact ⟨e, by rw [bind_of_error (statement_error hupdate _ s)]⟩
  | none =>
    obtain ⟨e, herror⟩ := identifying_refused hrefused (updateHostRow host) s
    exact ⟨e, by rw [statement_of_none hupdate, bind_of_error herror]⟩

theorem findOrCreateHost_found {host : Host} (hlookup : faults .hostLookup = none)
    (hfound : s.hosts.get? call.inventoryId = some host) :
    (s.HostReady faults call ∧ findOrCreateHost faults call s = (.ok (), s.withHost call)) ∨
      (¬ s.HostReady faults call ∧ ∃ e, findOrCreateHost faults call s = (.error e, s)) := by
  unfold findOrCreateHost
  rw [statement_of_none hlookup, read_bind, hfound]
  dsimp only
  cases hupdates : call.updatesHost with
  | false =>
    refine Or.inl ⟨⟨by simp [hfound], hlookup, by simp [hfound, hupdates], by simp [hfound], by simp [hfound]⟩, ?_⟩
    rw [State.withHost, hfound]
    simp [hupdates]
  | true =>
    rw [if_pos rfl]
    cases hupdate : faults .hostUpdate with
    | some e =>
      refine Or.inr ⟨fun h => ?_, e, ?_⟩
      · simp [h.update fun _ => hupdates] at hupdate
      · rw [bind_of_error (statement_error hupdate _ s)]
    | none =>
      refine Or.inl ⟨⟨by simp [hfound], hlookup, fun _ => hupdate, by simp [hfound], by simp [hfound]⟩, ?_⟩
      rw [statement_of_none hupdate, State.withHost, hfound]
      simp only [hupdates, if_true]
      rfl

theorem findOrCreateHost_unidentified (hlookup : faults .hostLookup = none)
    (hfound : s.hosts.get? call.inventoryId = none) (hidentified : call.identified = false) :
    ∃ e, findOrCreateHost faults call s = (.error e, s) := by
  unfold findOrCreateHost
  rw [statement_of_none hlookup, read_bind, hfound]
  dsimp only
  rcases createAutoacks_refused faults s hidentified with heq | ⟨e, heq⟩
  · obtain ⟨e, hsave⟩ := saveNewHost_refused faults s hidentified (call.updateHost call.newHost)
    exact ⟨e, by rw [bind_of_ok heq, hsave]⟩
  · exact ⟨e, by rw [bind_of_error heq]⟩

/-- The acks of a new host are stored before the host is, so they stay when saving the host fails. -/
theorem findOrCreateHost_new (hlookup : faults .hostLookup = none)
    (hfound : s.hosts.get? call.inventoryId = none) (hidentified : call.identified = true) :
    (s.HostReady faults call ∧ findOrCreateHost faults call s = (.ok (), s.withHost call)) ∨
      (¬ s.HostReady faults call ∧ s.AcksStay faults call ∧
        ∃ e, findOrCreateHost faults call s = (.error e, s.withAcks call)) ∨
      (¬ s.HostReady faults call ∧ ¬ s.AcksStay faults call ∧
        ∃ e, findOrCreateHost faults call s = (.error e, s)) := by
  unfold findOrCreateHost
  rw [statement_of_none hlookup, read_bind, hfound]
  dsimp only
  rcases createAutoacks_eq faults s hidentified with ⟨horg, hrules, heq⟩ | ⟨hnot, e, heq⟩
  · rw [bind_of_ok heq]
    have hhosts : (s.withAcks call).hosts = s.hosts := by rw [withAcks_frame]
    rcases saveNewHost_eq faults hidentified hfound (s.withAcks call) hhosts with
      ⟨hupdate, hinsert, hosts, hrow, hsave⟩ | ⟨hfail, e, hsave⟩
    · refine Or.inl ⟨⟨fun _ => hidentified, hlookup, fun _ => hupdate, fun _ => ⟨horg, hinsert⟩, fun _ => hrules⟩, ?_⟩
      rw [hsave, State.withHost, hfound]
      dsimp only
      rw [if_pos hidentified, hrow]
    · have hready : ¬ s.HostReady faults call := by
        intro h
        rcases hfail with hf | hf
        · exact hf (h.update fun hs => by simp [hfound] at hs)
        · exact hf (h.insert hfound).2
      by_cases hnew : s.newAcks call = []
      · refine Or.inr (Or.inr ⟨hready, fun h => h.acks hnew, e, ?_⟩)
        rw [hsave, withAcks_of_nil hnew]
      · refine Or.inr (Or.inl ⟨hready, ⟨hidentified, hfound, hnew, ?_, hfail⟩, e, hsave⟩)
        have hknown : (s.uploads.rows.any fun upload => upload.orgId = call.orgId && upload.current) = false := by
          by_contra hknown
          exact hnew (by rw [State.newAcks, if_pos (by simpa using hknown)])
        obtain ⟨hautoack, hinsert⟩ := hrules hknown
        simp [hlookup, horg, hautoack, hinsert hnew]
  · refine Or.inr (Or.inr ⟨fun h => hnot ⟨(h.insert hfound).1, h.acks hfound⟩, fun h => hnot ?_, e, ?_⟩)
    · exact ⟨h.inserted .orgUploads (by simp), fun _ => ⟨h.inserted .autoackRules (by simp),
        fun _ => h.inserted .ackInsert (by simp)⟩⟩
    · rw [bind_of_error heq]

/-- The first part of a call makes the host, or raises: after the acks, or before anything is written. -/
theorem findOrCreateHost_cases (s : State) (faults : Faults) (call : UploadCall) :
    (s.HostReady faults call ∧ findOrCreateHost faults call s = (.ok (), s.withHost call)) ∨
      (¬ s.HostReady faults call ∧ s.AcksStay faults call ∧
        ∃ e, findOrCreateHost faults call s = (.error e, s.withAcks call)) ∨
      (¬ s.HostReady faults call ∧ ¬ s.AcksStay faults call ∧
        ∃ e, findOrCreateHost faults call s = (.error e, s)) := by
  cases hlookup : faults .hostLookup with
  | some e =>
    refine Or.inr (Or.inr ⟨fun h => by simp [h.lookup] at hlookup, fun h => ?_, e, ?_⟩)
    · rw [h.inserted .hostLookup (by simp)] at hlookup
      cases hlookup
    · rw [findOrCreateHost, bind_of_error (statement_error hlookup _ s)]
  | none =>
    cases hfound : s.hosts.get? call.inventoryId with
    | some host =>
      rcases findOrCreateHost_found hlookup hfound with h | ⟨hready, e, h⟩
      · exact Or.inl h
      · exact Or.inr (Or.inr ⟨hready, fun hstay => absurd hstay.host (by simp [hfound]), e, h⟩)
    | none =>
      cases hidentified : call.identified with
      | false =>
        refine Or.inr (Or.inr ⟨fun h => ?_, fun h => ?_, findOrCreateHost_unidentified hlookup hfound hidentified⟩)
        · rw [h.identified hfound] at hidentified
          cases hidentified
        · rw [h.identified] at hidentified
          cases hidentified
      | true => exact findOrCreateHost_new hlookup hfound hidentified

/-- The transaction of a call reaches its commit. -/
structure State.Passes (s : State) (settings : Settings) (faults : Faults) (call : UploadCall) : Prop where
  quiet : ∀ site ∈ prepareSites, faults site = none
  accepts : s.Accepts settings call
  stores : s.Stores settings call
  sites : ∀ site ∈ s.storeSites settings call, faults site = none

def Plan.messages (plan : Plan) (settings : Settings) (faults : Faults) (call : UploadCall) (s : State) :
    List Message :=
  s.hookMessages settings faults call plan.collected.webhookRules plan.known.stored ++
    viewMessages settings faults call plan.collected

theorem processUpload_cases (s : State) (settings : Settings) (faults : Faults) (call : UploadCall) :
    (s.Passes settings faults call ∧ ∃ plan s₁ s₂, Prepared settings faults call s plan s₁ ∧
        store faults call plan s₁ = (.ok (), s₂) ∧ processUpload settings faults call s =
          (.ok (s₂.hooksAbort settings faults call), s₂.sending (plan.messages settings faults call s₂))) ∨
      (¬ s.Passes settings faults call ∧
        ∃ e s', processUpload settings faults call s = (.error e, s') ∧ s'.sent = s.sent) := by
  unfold processUpload
  rcases hprepare : prepare settings faults call s with ⟨e | plan, s₁⟩
  · refine Or.inr ⟨fun h => ?_, e, s₁, bind_of_error hprepare, ?_⟩
    · obtain ⟨plan, s', hok⟩ := prepare_of_accepts h.quiet h.accepts
      rw [hok] at hprepare
      cases congrArg Prod.fst hprepare
    · have hsilent := silent_prepare settings faults call s
      rwa [hprepare] at hsilent
  · rw [bind_of_ok hprepare]
    have hp := prepare_ok hprepare
    rcases hstore : store faults call plan s₁ with ⟨e | _, s₂⟩
    · refine Or.inr ⟨fun h => ?_, e, s₂, bind_of_error hstore, ?_⟩
      · obtain ⟨s', hok⟩ := store_of_stores hp h.stores h.sites
        rw [hok] at hstore
        cases congrArg Prod.fst hstore
      · have hsilent := silent_store faults call plan s₁
        rw [hstore] at hsilent
        rw [hsilent, hp.frame]
    · obtain ⟨hstores, hsites, -, -⟩ := store_ok hp hstore
      refine Or.inl ⟨⟨hp.quiet, hp.accepts, hstores, hsites⟩, plan, s₁, s₂, hp, hstore, ?_⟩
      rw [bind_of_ok hstore, bind_of_ok (runHooks_eq plan s₂), bind_of_ok (sendInventoryViewEvent_eq plan _),
        State.sending_sending]
      rfl

def noFaults : Faults := fun _ => none

section WithHost

variable (s : State) (settings : Settings) (call : UploadCall)

theorem withHost_known (upload : Nat) :
    (s.withHost call).known settings call upload =
      { s.known settings call upload with
        disabled := (s.withHost call).orgDisabledRules call ++ s.hostDisabledRules call } := by
  simp only [State.known, State.storedReports, State.reportRules, State.hostDisabledRules, withHost_reports,
    withHost_rules, withHost_hostAcks]

@[simp] theorem withHost_reported : (s.withHost call).reported settings call = s.reported settings call := by
  rw [State.reported, withHost_known]
  rfl

@[simp] theorem withHost_newEntries : (s.withHost call).newEntries settings call = s.newEntries settings call := by
  rw [State.newEntries, withHost_reported, withHost_known]
  rfl

@[simp] theorem withHost_existingEntries :
    (s.withHost call).existingEntries settings call = s.existingEntries settings call := by
  rw [State.existingEntries, withHost_reported, withHost_known]
  rfl

@[simp] theorem withHost_storedReports : (s.withHost call).storedReports call = s.storedReports call := by
  simp only [State.storedReports, withHost_reports, withHost_rules]

@[simp] theorem withHost_resolvedRuleIds :
    (s.withHost call).resolvedRuleIds settings call = s.resolvedRuleIds settings call := by
  rw [State.resolvedRuleIds, withHost_storedReports]
  rfl

theorem withHost_resolves (row : CurrentReport) :
    resolves (s.withHost call) settings call row = resolves s settings call row := by
  simp only [resolves, withHost_rules, withHost_resolvedRuleIds]

@[simp] theorem withHost_leaves (known : Known) (k : String × Nat × Uuid) :
    (s.withHost call).leaves settings call known k = s.leaves settings call known k := by
  simp only [State.leaves, withHost_reports, withHost_newEntries, withHost_existingEntries, withHost_resolves]

theorem withHost_stores : (s.withHost call).Stores settings call ↔ s.Stores settings call := by
  constructor
  · intro h
    exact ⟨by simpa using h.distinct, by simpa using h.storable, by simpa using h.notNull⟩
  · intro h
    exact ⟨by simpa using h.distinct, by simpa using h.storable, by simpa using h.notNull⟩

end WithHost

/-- A call that nothing lets down goes through. -/
structure State.Takes (s : State) (settings : Settings) (call : UploadCall) : Prop where
  accepts : (s.withHost call).Accepts settings call
  stores : s.Stores settings call

structure Stored (settings : Settings) (call : UploadCall) (s s' : State) (known : Known) : Prop where
  frame : s' = { s.withHost call with uploads := s'.uploads, reports := s'.reports, sent := s'.sent }
  knows : known = (s.withHost call).known settings call known.upload
  upload : ∃ s₁, updateOrCreateUpload call (s.withHost call) = (.ok known.upload, s₁) ∧ s'.uploads = s₁.uploads
  reports : ∀ k, s'.reports.get? k = s.leaves settings call known k
  sent : ∃ counts, s'.sent = s.sent ++ (s'.hookMessages settings noFaults call
      (if settings.webhooksTopic || settings.remediationsHookTopic then (s.reported settings call).map (·.rule) else [])
      (s.storedReports call) ++ viewMessages settings noFaults call counts)

theorem createDbReports_of_error {e : Exception} {s' : State} (h : findOrCreateHost faults call s = (.error e, s')) :
    createDbReports settings faults call s = (.ok false, s') := by
  have hready : catching (do findOrCreateHost faults call; return true) (fun _ => return false) s =
      (.ok false, s') := by
    rw [catching, bind_of_error h]
    rfl
  rw [createDbReports, bind_of_ok hready]
  rfl

theorem createDbReports_of_ok {s' : State} (h : findOrCreateHost faults call s = (.ok (), s')) :
    createDbReports settings faults call s =
      catching (do transaction faults (processUpload settings faults call); return true) (fun _ => return false) s' := by
  have hready : catching (do findOrCreateHost faults call; return true) (fun _ => return false) s =
      (.ok true, s') := by
    rw [catching, bind_of_ok h]
    rfl
  rw [createDbReports, bind_of_ok hready, if_pos rfl]

/-- What a call leaves: what its transaction does, or what it has written before that. -/
theorem createDbReports_state (settings : Settings) (faults : Faults) (call : UploadCall) (s : State) :
    (createDbReports settings faults call s).2 =
        (transaction faults (processUpload settings faults call) (s.withHost call)).2 ∨
      (s.AcksStay faults call ∧ (createDbReports settings faults call s).2 = s.withAcks call) ∨
      (createDbReports settings faults call s).2 = s := by
  rcases findOrCreateHost_cases s faults call with ⟨-, heq⟩ | ⟨-, hstay, e, heq⟩ | ⟨-, -, e, heq⟩
  · refine Or.inl ?_
    rw [createDbReports_of_ok heq, catching]
    rcases htransaction : transaction faults (processUpload settings faults call) (s.withHost call) with ⟨e | _, s'⟩
    · rw [bind_of_error htransaction]
      rfl
    · rw [bind_of_ok htransaction]
      rfl
  · exact Or.inr (Or.inl ⟨hstay, by rw [createDbReports_of_error heq]⟩)
  · exact Or.inr (Or.inr (by rw [createDbReports_of_error heq]))

theorem hostReady_noFaults (h : s.hosts.get? call.inventoryId = none → call.identified = true) :
    s.HostReady noFaults call :=
  ⟨h, rfl, fun _ => rfl, fun _ => ⟨rfl, rfl⟩, fun _ _ => ⟨rfl, fun _ => rfl⟩⟩

theorem findOrCreateHost_noFaults (s : State) (call : UploadCall) :
    ((s.hosts.get? call.inventoryId = none → call.identified = true) ∧
        findOrCreateHost noFaults call s = (.ok (), s.withHost call)) ∨
      (s.hosts.get? call.inventoryId = none ∧ call.identified = false ∧
        ∃ e, findOrCreateHost noFaults call s = (.error e, s)) := by
  rcases findOrCreateHost_cases s noFaults call with ⟨hready, h⟩ | ⟨-, hstay, -⟩ | ⟨hnot, -, h⟩
  · exact Or.inl ⟨hready.identified, h⟩
  · exact absurd hstay.save (by simp [noFaults])
  · have hrefused : ¬ (s.hosts.get? call.inventoryId = none → call.identified = true) :=
      fun hidentified => hnot (hostReady_noFaults hidentified)
    push Not at hrefused
    exact Or.inr ⟨hrefused.1, by simpa using hrefused.2, h⟩

theorem createDbReports_noFaults (s : State) (settings : Settings) (call : UploadCall) :
    (s.Takes settings call ∧ ∃ s' known, createDbReports settings noFaults call s = (.ok true, s') ∧
        Stored settings call s s' known) ∨
      (¬ s.Takes settings call ∧ createDbReports settings noFaults call s = (.ok false, s.withHost call)) := by
  rcases findOrCreateHost_noFaults s call with ⟨-, hhost⟩ | ⟨hnone, hrefused, e, hhost⟩
  swap
  · have hnot : ¬ s.Takes settings call := fun h => by
      rw [h.accepts.identified] at hrefused
      cases hrefused
    exact Or.inr ⟨hnot, by rw [createDbReports_of_error hhost, withHost_refused hnone hrefused]⟩
  rcases processUpload_cases (s.withHost call) settings noFaults call with
    ⟨hpasses, plan, s₁, s₂, hp, hstore, heq⟩ | ⟨hnot, e, s', heq, hsent⟩
  · have htakes : s.Takes settings call := ⟨hpasses.accepts, (withHost_stores s settings call).mp hpasses.stores⟩
    have habort : s₂.hooksAbort settings noFaults call = false := by simp [State.hooksAbort, noFaults]
    obtain ⟨-, -, hs₂, hget⟩ := store_ok hp hstore
    refine Or.inl ⟨htakes, s₂.sending (plan.messages settings noFaults call s₂), plan.known, ?_, ?_⟩
    · rw [createDbReports_of_ok hhost, catching]
      have hcommit : transaction noFaults (processUpload settings noFaults call) (s.withHost call) =
          (.ok (), s₂.sending (plan.messages settings noFaults call s₂)) := by
        rw [transaction, heq, habort]
        rfl
      rw [bind_of_ok hcommit]
      rfl
    · refine ⟨?_, hp.known, ⟨s₁, hp.upload, ?_⟩, ?_, plan.collected, ?_⟩
      · rw [hs₂, hp.frame]
        rfl
      · rw [hs₂]
        rfl
      · intro k
        exact (hget k).trans (withHost_leaves s settings call plan.known k)
      · have hrules : plan.collected.webhookRules =
            if settings.webhooksTopic || settings.remediationsHookTopic then (s.reported settings call).map (·.rule)
            else [] := by
          rw [hp.adds.webhookRules, hp.known, ← withHost_reported]
          rfl
        have hstored : plan.known.stored = s.storedReports call := by
          rw [hp.known, ← withHost_storedReports]
          rfl
        rw [← hrules, ← hstored]
        have hsent : s₂.sent = s.sent := by rw [hs₂, hp.frame, ← withHost_sent s call]
        change s₂.sent ++ _ = _
        rw [hsent]
        rfl
  · have hnotTakes : ¬ s.Takes settings call := fun h =>
      hnot ⟨fun _ _ => rfl, h.accepts, (withHost_stores s settings call).mpr h.stores, fun _ _ => rfl⟩
    refine Or.inr ⟨hnotTakes, ?_⟩
    rw [createDbReports_of_ok hhost, catching]
    have hfails : transaction noFaults (processUpload settings noFaults call) (s.withHost call) =
        (.error e, s.withHost call) := by
      rw [transaction, heq]
      simp only [State.rolledBack, hsent]
    rw [bind_of_error hfails]
    rfl

def State.empty : State := ⟨.empty, .empty, .empty, .empty, .empty, .empty, .empty, [], List.nodup_nil⟩

def notifying : Settings := ⟨false, [], false, [], true, true, true, "https://console"⟩

/-- An upload of the insights client for a host of an organisation without an account. -/
def clientUpload (reports : List Json) : UploadCall where
  reports
  inventoryId := 7
  account := none
  orgId := "1234"
  systemType := 1
  source := "insights-client"
  checkedOn := 0
  now := 0

def hardening : Rule where
  id := 1
  ruleId := "hardening|WEAK_KEYS"
  active := true
  totalRisk := 2
  publishDate := some 0

def State.ready : State :=
  { State.empty with
    inventory := .single ⟨"1234", 7, 0, []⟩
    rules := .single hardening
    hosts := .single ⟨7, none, "1234", none, none⟩
    ruleIds := List.nodup_singleton _ }

def weakKeys : Json := .dict [("rule_id", .str "hardening|WEAK_KEYS"), ("details", .dict [])]

end Advisor.Service
