import Advisor.Acks.Views
import Advisor.Importer.AckRuns
import Advisor.Service.Call

/-! Who made an ack, over a history of uploads, imports and the requests of users, and whether that can be told from its
`created_by`. -/

namespace Advisor.Acks

open Importer Python Procedure Relational

inductive Creator where
  | service
  | importer
  | user
  deriving DecidableEq

def asImported (rule : Advisor.Rule) (ack : Advisor.Ack) : Importer.Ack :=
  ⟨rule.ruleId, ack.account, ack.orgId, ack.justification, ack.createdBy⟩

/-- The tables of the service and those of the importers are the same ones. -/
structure Coherent (s : Service.State) (db : Importer.Database) : Prop where
  rules : ∀ ruleId active, (∃ rule ∈ s.rules, rule.ruleId = ruleId ∧ rule.active = active) ↔
    ∃ rule ∈ db.rules, rule.ruleId = ruleId ∧ rule.active = active
  tags : ∀ rule ∈ s.rules, ∀ tag, tag ∈ rule.tags ↔ (rule.ruleId, tag) ∈ db.ruleTags
  hosts : ∀ account orgId, (∃ host ∈ s.hosts, host.account = account ∧ host.orgId = orgId) ↔ (account, orgId) ∈ db.hosts
  acks : ∀ ack, ack ∈ db.acks ↔ ∃ rule ∈ s.rules, ∃ stored ∈ s.acks, stored.rule = rule.id ∧ asImported rule stored = ack
  reports : ∀ rule ∈ s.rules, ∀ account orgId host,
    (∃ report ∈ s.reports, report.rule = rule.id ∧ report.account = account ∧ report.orgId = orgId ∧ report.host = host) ↔
      ⟨rule.ruleId, account, orgId, host⟩ ∈ db.reports
  unique : (db.acks.map fun ack => (ack.rule, ack.orgId)).Nodup

/-- The tables as the service and as the importers have them, and who made the acks that there are. -/
structure World where
  service : Service.State
  importer : Api.State
  creator : String → String → Creator

def World.db (w : World) : Importer.Database := w.importer.db

inductive Event where
  | upload (settings : Service.Settings) (faults : Service.Faults) (call : Service.UploadCall)
  | handle (env : Environment) (listing : Listing) (sources : Management.Sources)
  | importAll (env : Environment) (settings : Api.Settings) (config : Api.Config) (content : List ContentRow)
  | create (request : AckRequest) (ruleId justification : String)
  | update (request : AckRequest) (ruleId justification : String)
  | destroy (request : AckRequest) (ruleId : String)
  | satelliteCreate (request : AckRequest) (ruleId : String)
  | satelliteDestroy (request : AckRequest) (ruleId : String)

def Event.imports : Event → Bool
  | .handle .. | .importAll .. => true
  | _ => false

namespace World

variable (w : World)

def madeBy (creator : Creator) (ruleId orgId : String) : Creator :=
  if w.db.acks.any fun ack => ack.rule = ruleId && ack.orgId = orgId then w.creator ruleId orgId else creator

def takenOver (request : AckRequest) (ruleId : String) (r orgId : String) : Creator :=
  if r = ruleId ∧ orgId = request.orgId then .user else w.creator r orgId

/-- The service has its tables as an import leaves them: what the importers do not have is as it was. -/
def ImportedAs (s : Service.State) : Prop :=
  s.inventory = w.service.inventory ∧ s.hosts = w.service.hosts ∧ s.uploads = w.service.uploads ∧ s.sent = w.service.sent

def AckedAs (s : Service.State) : Prop := s = { w.service with acks := s.acks }

end World

inductive Step (w : World) : Event → World → Prop
  | upload {settings : Service.Settings} {faults : Service.Faults} {call : Service.UploadCall} {s : Service.State}
      {db : Importer.Database} : (Service.createDbReports settings faults call w.service).2 = s →
        db = { w.db with hosts := db.hosts, acks := db.acks, reports := db.reports } → Coherent s db →
          Step w (.upload settings faults call) ⟨s, { w.importer with db }, w.madeBy .service⟩
  | handle {env : Environment} {listing : Listing} {sources : Management.Sources} {s : Service.State}
      {db : Importer.Database} : Management.handle env listing sources w.db = .ok db → w.ImportedAs s → Coherent s db →
        Step w (.handle env listing sources) ⟨s, { w.importer with db }, w.madeBy .importer⟩
  | handleRaises {env : Environment} {listing : Listing} {sources : Management.Sources} {s : Service.State}
      {db : Importer.Database} : Management.Interrupted env listing sources w.db db → w.ImportedAs s → Coherent s db →
        Step w (.handle env listing sources) ⟨s, { w.importer with db }, w.madeBy .importer⟩
  | importAll {env : Environment} {settings : Api.Settings} {config : Api.Config} {content : List ContentRow}
      {s : Service.State} {state : Api.State} : (Api.importAll env settings config content w.importer).2 = state →
        w.ImportedAs s → Coherent s state.db →
          Step w (.importAll env settings config content) ⟨s, state, w.madeBy .importer⟩
  | create {request : AckRequest} {ruleId justification : String} {s : Service.State} {db : Importer.Database} :
      AckViewSet.create request ruleId justification w.db = .ok db → w.AckedAs s → Coherent s db →
        Step w (.create request ruleId justification) ⟨s, { w.importer with db }, w.takenOver request ruleId⟩
  | update {request : AckRequest} {ruleId justification : String} {s : Service.State} {db : Importer.Database} :
      AckViewSet.update request ruleId justification w.db = .ok db → w.AckedAs s → Coherent s db →
        Step w (.update request ruleId justification) ⟨s, { w.importer with db }, w.takenOver request ruleId⟩
  | destroy {request : AckRequest} {ruleId : String} {s : Service.State} {db : Importer.Database} :
      AckViewSet.destroy request ruleId w.db = .ok db → w.AckedAs s → Coherent s db →
        Step w (.destroy request ruleId) ⟨s, { w.importer with db }, w.creator⟩
  | satelliteCreate {request : AckRequest} {ruleId : String} {s : Service.State} {db : Importer.Database} :
      SatelliteAckViewSet.create request ruleId w.db = .ok db → w.AckedAs s → Coherent s db →
        Step w (.satelliteCreate request ruleId) ⟨s, { w.importer with db }, w.takenOver request ruleId⟩
  | satelliteDestroy {request : AckRequest} {ruleId : String} {s : Service.State} {db : Importer.Database} :
      SatelliteAckViewSet.destroy request ruleId w.db = .ok db → w.AckedAs s → Coherent s db →
        Step w (.satelliteDestroy request ruleId) ⟨s, { w.importer with db }, w.creator⟩

/-- The worlds after histories that begin without acks and whose events all meet a condition. -/
inductive Reached (meets : World → Event → Prop) : World → Prop
  | start {w : World} : w.db.acks = [] → Coherent w.service w.db → Reached meets w
  | step {w w' : World} {event : Event} : Reached meets w → meets w event → Step w event w' → Reached meets w'

section Uploads

open Service

variable {settings : Service.Settings} {faults : Faults} {call : UploadCall} {s : Service.State}

theorem transaction_frame (settings : Service.Settings) (faults : Faults) (call : UploadCall) (s : Service.State) :
    ∃ uploads reports sent,
      (transaction faults (processUpload settings faults call) s).2 = { s with uploads, reports, sent } := by
  unfold transaction
  rcases processUpload_cases s settings faults call with ⟨-, plan, s₁, s₂, hp, hstore, heq⟩ | ⟨-, e, s', heq, -⟩
  · obtain ⟨-, -, hs₂, -⟩ := store_ok hp hstore
    have hframe : s₂ = { s with uploads := s₂.uploads, reports := s₂.reports, sent := s₂.sent } := by
      rw [hs₂, hp.frame]
    rw [heq]
    dsimp only
    cases faults .commit with
    | some e => exact ⟨s.uploads, s.reports, _, rfl⟩
    | none =>
      dsimp only
      split_ifs
      · exact ⟨s.uploads, s.reports, _, rfl⟩
      · rw [State.sending, hframe]
        exact ⟨_, _, _, rfl⟩
  · rw [heq]
    exact ⟨s.uploads, s.reports, _, rfl⟩

theorem withHost_acks (s : Service.State) (call : UploadCall) :
    (s.withHost call).acks = s.acks ∨
      s.hosts.get? call.inventoryId = none ∧ (s.withHost call).acks = (s.withAcks call).acks := by
  unfold State.withHost
  cases hfound : s.hosts.get? call.inventoryId with
  | some host =>
    dsimp only
    split_ifs <;> exact Or.inl rfl
  | none =>
    dsimp only
    split_ifs
    · refine Or.inr ⟨rfl, ?_⟩
      cases s.hosts.insert? (call.updateHost call.newHost) <;> rfl
    · exact Or.inl rfl

theorem createDbReports_acks (settings : Service.Settings) (faults : Faults) (call : UploadCall) (s : Service.State) :
    (createDbReports settings faults call s).2.rules = s.rules ∧
      ((createDbReports settings faults call s).2.acks = s.acks ∨
        s.hosts.get? call.inventoryId = none ∧
          (createDbReports settings faults call s).2.acks = (s.withAcks call).acks) := by
  rcases createDbReports_state settings faults call s with hstate | ⟨hstay, hstate⟩ | hstate
  · obtain ⟨uploads, reports, sent, hframe⟩ := transaction_frame settings faults call (s.withHost call)
    rw [hstate, hframe]
    exact ⟨withHost_rules s call, withHost_acks s call⟩
  · rw [hstate]
    exact ⟨by rw [withAcks_frame], Or.inr ⟨hstay.host, rfl⟩⟩
  · rw [hstate]
    exact ⟨rfl, Or.inl rfl⟩

theorem mem_withAcks {ack : Advisor.Ack} (h : ack ∈ (s.withAcks call).acks) : ack ∈ s.acks ∨ ack ∈ s.newAcks call := by
  unfold State.withAcks at h
  cases hinsert : s.acks.insertMany? (s.newAcks call) with
  | none => exact Or.inl (by simpa [hinsert] using h)
  | some acks =>
    rw [hinsert] at h
    have hget := Table.mem_iff_get?.mp h
    rw [Table.get?_insertMany? hinsert, Option.or_eq_some_iff] at hget
    rcases hget with hnew | ⟨-, hold⟩
    · exact Or.inr (List.mem_of_find?_eq_some hnew)
    · exact Or.inl (Table.mem_iff_get?.mpr hold)

theorem newAcks_eq {ack : Advisor.Ack} (h : ack ∈ s.newAcks call) :
    ¬ (∃ upload ∈ s.uploads, upload.orgId = call.orgId ∧ upload.current = true) ∧
      ∃ rule ∈ s.autoackRules, call.autoack rule = ack := by
  unfold State.newAcks at h
  split_ifs at h with hknown
  · cases h
  · refine ⟨?_, List.mem_map.mp h⟩
    rintro ⟨upload, hupload, horg, hcurrent⟩
    exact hknown (List.any_eq_true.mpr ⟨upload, hupload, by simp [horg, hcurrent]⟩)

end Uploads

section Steps

variable {w w' : World} {event : Event} {ack : Importer.Ack}

def Event.Makes (w : World) (ack : Importer.Ack) : Event → Prop
  | .upload _ _ call =>
    w.service.hosts.get? call.inventoryId = none ∧
      ¬ (∃ upload ∈ w.service.uploads, upload.orgId = call.orgId ∧ upload.current = true) ∧
        w.service.autoackRules ≠ [] ∧ ack.createdBy = "Red Hat Insights"
  | .handle .. | .importAll .. => ack.createdBy = autoackCreatedBy
  | .create request .. | .update request .. => ack.createdBy = request.username
  | .satelliteCreate .. => ack.createdBy = "Satellite compatibility"
  | .destroy .. | .satelliteDestroy .. => False

def Event.maker : Event → Creator
  | .upload .. => .service
  | .handle .. | .importAll .. => .importer
  | _ => .user

/-- Where an ack comes from that is there after an event: it was there before; or the event made it; or it is an
automatic one in the place of an automatic one. -/
inductive Origin (w : World) (event : Event) (creator : Creator) (ack : Importer.Ack) : Prop
  | kept : ack ∈ w.db.acks → creator = w.creator ack.rule ack.orgId → Origin w event creator ack
  | made : creator = event.maker → event.Makes w ack → Origin w event creator ack
  | remade (old : Importer.Ack) : old ∈ w.db.acks → old.rule = ack.rule → old.orgId = ack.orgId →
      old.createdBy = autoackCreatedBy → ack.createdBy = autoackCreatedBy →
        creator = w.creator ack.rule ack.orgId → Origin w event creator ack

theorem ack_eq {db : Importer.Database} (hunique : (db.acks.map fun ack => (ack.rule, ack.orgId)).Nodup)
    {a b : Importer.Ack} (ha : a ∈ db.acks) (hb : b ∈ db.acks) (hrule : a.rule = b.rule) (horg : a.orgId = b.orgId) :
    a = b := List.inj_on_of_nodup_map hunique ha hb (Prod.ext hrule horg)

theorem Coherent.rule {s : Service.State} {db : Importer.Database} (h : Coherent s db) (hack : ack ∈ db.acks) :
    ∃ rule ∈ db.rules, rule.ruleId = ack.rule := by
  obtain ⟨rule, hrule, stored, -, -, rfl⟩ := (h.acks ack).mp hack
  obtain ⟨found, hfound, hid, -⟩ := (h.rules rule.ruleId rule.active).mp ⟨rule, hrule, rfl, rfl⟩
  exact ⟨found, hfound, hid⟩

theorem Step.coherent (h : Step w event w') : Coherent w'.service w'.db := by
  cases h <;> assumption

/-- An import leaves the acks that are not automatic, but for those of rules that go. -/
theorem Step.left (h : Step w event w') (himports : event.imports = true) :
    (∀ ack ∈ w'.db.acks, ack.createdBy ≠ autoackCreatedBy → ack ∈ w.db.acks) ∧
      ∀ ack ∈ w.db.acks, ack.createdBy ≠ autoackCreatedBy → (∃ rule ∈ w'.db.rules, rule.ruleId = ack.rule) →
        ack ∈ w'.db.acks := by
  have hmem {db : Importer.Database} {ack : Importer.Ack} :
      ack ∈ Management.userAcks db ↔ ack ∈ db.acks ∧ ack.createdBy ≠ autoackCreatedBy := by
    simp [Management.userAcks]
  have hsame {db db' : Importer.Database} (hsame : Management.userAcks db' = Management.userAcks db) :
      (∀ ack ∈ db'.acks, ack.createdBy ≠ autoackCreatedBy → ack ∈ db.acks) ∧
        ∀ ack ∈ db.acks, ack.createdBy ≠ autoackCreatedBy → (∃ rule ∈ db'.rules, rule.ruleId = ack.rule) →
          ack ∈ db'.acks := by
    constructor
    · intro ack hack hby
      exact (hmem.mp (hsame ▸ hmem.mpr ⟨hack, hby⟩)).1
    · intro ack hack hby _
      exact (hmem.mp (hsame.symm ▸ hmem.mpr ⟨hack, hby⟩)).1
  cases h with
  | handle hhandle _ _ => exact hsame (Management.userAcks_handle hhandle)
  | handleRaises hraises _ _ => exact hsame (Management.userAcks_interrupted hraises)
  | @importAll env settings config content s state heq _ _ =>
    have hleft : Api.UserAcksLeft w.importer (Api.importAll env settings config content w.importer).2 :=
      Api.importAll_left config content w.importer
    rw [heq] at hleft
    constructor
    · intro ack hack hby
      exact (hmem.mp (hleft.old ack (hmem.mpr ⟨hack, hby⟩))).1
    · intro ack hack hby hrule
      exact (hmem.mp (hleft.stay ack (hmem.mpr ⟨hack, hby⟩) hrule)).1
  | _ => cases himports

theorem madeBy_of_mem {old : Importer.Ack} (hold : old ∈ w.db.acks) (creator : Creator) :
    w.madeBy creator old.rule old.orgId = w.creator old.rule old.orgId := by
  rw [World.madeBy, if_pos (List.any_eq_true.mpr ⟨old, hold, by simp⟩)]

theorem origin_imported {creator : String → String → Creator} (hmaker : event.maker = .importer)
    (hmakes : ∀ ack : Importer.Ack, ack.createdBy = autoackCreatedBy → event.Makes w ack)
    (hcreator : creator = w.madeBy .importer) {db : Importer.Database} {s : Service.State} (hcoherent : Coherent s db)
    (hold : ∀ ack ∈ db.acks, ack.createdBy ≠ autoackCreatedBy → ack ∈ w.db.acks)
    (hstay : ∀ ack ∈ w.db.acks, ack.createdBy ≠ autoackCreatedBy → (∃ rule ∈ db.rules, rule.ruleId = ack.rule) →
      ack ∈ db.acks) (hack : ack ∈ db.acks) : Origin w event (creator ack.rule ack.orgId) ack := by
  subst hcreator
  by_cases hby : ack.createdBy = autoackCreatedBy
  · by_cases hthere : ∃ old ∈ w.db.acks, old.rule = ack.rule ∧ old.orgId = ack.orgId
    · obtain ⟨old, hmem, hrule, horg⟩ := hthere
      have hsame : w.madeBy .importer ack.rule ack.orgId = w.creator ack.rule ack.orgId := by
        rw [← hrule, ← horg]
        exact madeBy_of_mem hmem _
      by_cases holdBy : old.createdBy = autoackCreatedBy
      · exact .remade old hmem hrule horg holdBy hby hsame
      · have hkept := hstay old hmem holdBy (by rw [hrule]; exact hcoherent.rule hack)
        rw [← ack_eq hcoherent.unique hkept hack hrule horg] at hby
        exact absurd hby holdBy
    · refine .made ?_ (hmakes ack hby)
      rw [World.madeBy, if_neg, hmaker]
      intro hany
      obtain ⟨old, hmem, hkey⟩ := List.any_eq_true.mp hany
      exact hthere ⟨old, hmem, by simpa using hkey⟩
  · have hmem := hold ack hack hby
    exact .kept hmem (madeBy_of_mem hmem _)

theorem origin_requested {request : AckRequest} {ruleId username : String} {db : Importer.Database}
    (hmaker : event.maker = .user) (hmakes : ∀ ack : Importer.Ack, ack.createdBy = username → event.Makes w ack)
    (h : Changed request.orgId ruleId username w.db db) (hack : ack ∈ db.acks) :
    Origin w event (w.takenOver request ruleId ack.rule ack.orgId) ack := by
  rcases h.acks ack hack with ⟨hrule, horg, hby⟩ | ⟨hold, hkey⟩
  · exact .made (by rw [World.takenOver, if_pos ⟨hrule, horg⟩, hmaker]) (hmakes ack hby)
  · exact .kept hold (by rw [World.takenOver, if_neg hkey])

theorem Step.origin (hw : Coherent w.service w.db) (h : Step w event w') (hack : ack ∈ w'.db.acks) :
    Origin w event (w'.creator ack.rule ack.orgId) ack := by
  cases h with
  | @upload settings faults call s db heq _ hcoherent =>
    obtain ⟨rule, hrule, stored, hstored, hid, rfl⟩ := (hcoherent.acks ack).mp hack
    obtain ⟨hrules, hacks⟩ := createDbReports_acks settings faults call w.service
    rw [heq] at hrules hacks
    rw [hrules] at hrule
    have hkept (hold : stored ∈ w.service.acks) :
        Origin w (.upload settings faults call) (w.madeBy .service rule.ruleId stored.orgId) (asImported rule stored) := by
      have hmem : asImported rule stored ∈ w.db.acks := (hw.acks _).mpr ⟨rule, hrule, stored, hold, hid, rfl⟩
      exact .kept hmem (madeBy_of_mem hmem _)
    rcases hacks with hsame | ⟨hnone, hsame⟩
    · rw [hsame] at hstored
      exact hkept hstored
    · rw [hsame] at hstored
      rcases mem_withAcks hstored with hold | hnew
      · exact hkept hold
      · obtain ⟨hcurrent, autoack, hautoack, rfl⟩ := newAcks_eq hnew
        refine .made ?_ ⟨hnone, hcurrent, List.ne_nil_of_mem hautoack, rfl⟩
        change w.madeBy .service rule.ruleId call.orgId = .service
        rw [World.madeBy, if_neg]
        intro hany
        obtain ⟨old, hmem, hkey⟩ := List.any_eq_true.mp hany
        simp only [Bool.and_eq_true, decide_eq_true_eq] at hkey
        obtain ⟨other, hother, found, hfound, hfoundId, rfl⟩ := (hw.acks old).mp hmem
        obtain rfl : other = rule := List.inj_on_of_nodup_map w.service.ruleIds hother hrule hkey.1
        have hfree := List.mem_filter.mp hautoack
        simp only [Bool.and_eq_true, Bool.not_eq_true', List.any_eq_false, decide_eq_true_eq] at hfree
        exact hfree.2.2 found hfound (hfoundId.trans hid.symm)
  | handle hhandle hs hcoherent =>
    obtain ⟨hold, hstay⟩ := (Step.handle hhandle hs hcoherent).left rfl
    exact origin_imported rfl (fun _ h => h) rfl hcoherent hold hstay hack
  | handleRaises hraises hs hcoherent =>
    obtain ⟨hold, hstay⟩ := (Step.handleRaises hraises hs hcoherent).left rfl
    exact origin_imported rfl (fun _ h => h) rfl hcoherent hold hstay hack
  | importAll heq hs hcoherent =>
    obtain ⟨hold, hstay⟩ := (Step.importAll heq hs hcoherent).left rfl
    exact origin_imported rfl (fun _ h => h) rfl hcoherent hold hstay hack
  | create h _ _ => exact origin_requested rfl (fun _ h => h) (create_changed h) hack
  | update h _ _ => exact origin_requested rfl (fun _ h => h) (update_changed h) hack
  | destroy h _ _ => exact .kept (destroy_subset h ack hack) rfl
  | satelliteCreate h _ _ => exact origin_requested rfl (fun _ h => h) (satelliteCreate_changed h) hack
  | satelliteDestroy h _ _ => exact .kept (satelliteDestroy_subset h ack hack) rfl

end Steps

/-- The ack is taken for an automatic one: its rule is shown as disabled by Red Hat, and it is not listed. -/
def Automatic (db : Importer.Database) (ack : Importer.Ack) : Prop :=
  (∀ status, (ack.rule, status) ∈ forAccount db ack.orgId → status = "rhdisabled") ∧ ack ∉ AckViewSet.all db

/-- The ack is taken for one of a user's: its rule is shown as disabled, and it is listed if the rule is active. -/
def Manual (db : Importer.Database) (ack : Importer.Ack) : Prop :=
  (∀ status, (ack.rule, status) ∈ forAccount db ack.orgId → status = "disabled") ∧
    (isActive db ack.rule = true → ack ∈ AckViewSet.all db)

/-- The acks of the service are taken for automatic ones, and those of users are not. -/
structure Recognised (w : World) : Prop where
  service : ∀ ack ∈ w.db.acks, w.creator ack.rule ack.orgId = .service → Automatic w.db ack
  user : ∀ ack ∈ w.db.acks, w.creator ack.rule ack.orgId = .user → Manual w.db ack

def LosesTag (w w' : World) (ruleId : String) : Prop :=
  (ruleId, autoackTag) ∈ w.db.ruleTags ∧ (ruleId, autoackTag) ∉ w'.db.ruleTags ∧ ∃ rule ∈ w'.db.rules, rule.ruleId = ruleId

/-- When a rule loses its tag, the acks of the service go, and those of users stay. -/
structure Handled (w w' : World) : Prop where
  service : ∀ ack ∈ w.db.acks, w.creator ack.rule ack.orgId = .service → LosesTag w w' ack.rule →
    ∀ left ∈ w'.db.acks, ¬ (left.rule = ack.rule ∧ left.orgId = ack.orgId)
  user : ∀ ack ∈ w.db.acks, w.creator ack.rule ack.orgId = .user → LosesTag w w' ack.rule → ack ∈ w'.db.acks

/-- An upload makes no acks, and no user has the name that automatic acks go by. -/
def Clear (w : World) : Event → Prop
  | .upload _ _ call => w.service.hosts.get? call.inventoryId = none →
      (∃ upload ∈ w.service.uploads, upload.orgId = call.orgId ∧ upload.current = true) ∨ w.service.autoackRules = []
  | .create request .. | .update request .. => request.username ≠ autoackCreatedBy
  | _ => True

section Runs

variable {meets : World → Event → Prop} {w w' : World} {event : Event} {ack : Importer.Ack}

theorem Reached.coherent (h : Reached meets w) : Coherent w.service w.db := by
  cases h with
  | start _ hcoherent => exact hcoherent
  | step _ _ hstep => exact hstep.coherent

/-- The acks of the service have its name. -/
theorem Reached.service (h : Reached meets w) :
    ∀ ack ∈ w.db.acks, w.creator ack.rule ack.orgId = .service → ack.createdBy = "Red Hat Insights" := by
  induction h with
  | start hnone _ =>
    intro ack hack
    rw [hnone] at hack
    cases hack
  | @step w w' event hw _ hstep ih =>
    intro ack hack hcreator
    cases hstep.origin hw.coherent hack with
    | kept hold hsame => exact ih ack hold (hsame.symm.trans hcreator)
    | made hmaker hmakes =>
      rw [hcreator] at hmaker
      cases event with
      | upload settings faults call => exact hmakes.2.2.2
      | _ => cases hmaker
    | remade old hold hrule horg hby _ hsame =>
      have hname := ih old hold (by rw [hrule, horg, ← hsame, hcreator])
      rw [hname] at hby
      exact absurd hby (by decide)

theorem Reached.clean (h : Reached meets w) (hclear : ∀ w event, meets w event → Clear w event) :
    ∀ ack ∈ w.db.acks, w.creator ack.rule ack.orgId ≠ .service ∧
      (w.creator ack.rule ack.orgId = .user → ack.createdBy ≠ autoackCreatedBy) := by
  induction h with
  | start hnone _ =>
    intro ack hack
    rw [hnone] at hack
    cases hack
  | @step w w' event hw hmeets hstep ih =>
    have hevent := hclear w event hmeets
    intro ack hack
    cases hstep.origin hw.coherent hack with
    | kept hold hsame =>
      rw [hsame]
      exact ih ack hold
    | made hmaker hmakes =>
      rw [hmaker]
      cases event with
      | upload settings faults call =>
        obtain ⟨hnone, hcurrent, hrules, -⟩ := hmakes
        rcases hevent hnone with h | h
        · exact absurd h hcurrent
        · exact absurd h hrules
      | handle | importAll => simp [Event.maker]
      | create | update =>
        refine ⟨by simp [Event.maker], fun _ hby => hevent ?_⟩
        rw [← hby]
        exact hmakes.symm
      | satelliteCreate =>
        refine ⟨by simp [Event.maker], fun _ hby => ?_⟩
        rw [show ack.createdBy = "Satellite compatibility" from hmakes] at hby
        exact absurd hby (by decide)
      | destroy | satelliteDestroy => exact hmakes.elim
    | remade old hold hrule horg holdBy hby hsame =>
      have hclean := ih old hold
      rw [hrule, horg, ← hsame] at hclean
      exact ⟨hclean.1, fun huser => absurd holdBy (hclean.2 huser)⟩

theorem manual_of_createdBy {db : Importer.Database} (hunique : (db.acks.map fun ack => (ack.rule, ack.orgId)).Nodup)
    (hack : ack ∈ db.acks) (hby : ack.createdBy ≠ autoackCreatedBy) : Manual db ack := by
  constructor
  · intro status hstatus
    obtain ⟨rule, -, hpair⟩ := List.mem_map.mp hstatus
    obtain ⟨hid, hshown⟩ := Prod.mk.inj hpair
    rw [← hshown, hid, ruleStatus_of_mem hunique hack, if_neg hby]
  · intro hactive
    exact mem_all.mpr ⟨hack, hactive, hby⟩

theorem recognised_runs (meets : World → Event → Prop) (w : World) (h : Reached meets w) :
    ((∀ w event, meets w event → Clear w event) →
      Recognised w ∧ ∀ event w', event.imports = true → Step w event w' → Handled w w') ∧
    ∀ ack ∈ w.db.acks, w.creator ack.rule ack.orgId = .service → Manual w.db ack ∧
      ∀ event w', event.imports = true → Step w event w' → LosesTag w w' ack.rule → ack ∈ w'.db.acks := by
  constructor
  · intro hclear
    have hclean := h.clean hclear
    refine ⟨⟨fun ack hack hservice => absurd hservice (hclean ack hack).1, fun ack hack huser => ?_⟩, ?_⟩
    · exact manual_of_createdBy h.coherent.unique hack ((hclean ack hack).2 huser)
    · intro event w' himports hstep
      refine ⟨fun ack hack hservice => absurd hservice (hclean ack hack).1, fun ack hack huser hloses => ?_⟩
      exact (hstep.left himports).2 ack hack ((hclean ack hack).2 huser) hloses.2.2
  · intro ack hack hservice
    have hby : ack.createdBy ≠ autoackCreatedBy := by
      rw [h.service ack hack hservice]
      decide
    refine ⟨manual_of_createdBy h.coherent.unique hack hby, ?_⟩
    intro event w' himports hstep hloses
    exact (hstep.left himports).2 ack hack hby hloses.2.2

end Runs

/-- The importers' tables with the hosts, the acks and the reports of the service. -/
def shared (s : Service.State) (db : Importer.Database) : Importer.Database :=
  { db with
    hosts := s.hosts.rows.map fun host => (host.account, host.orgId)
    acks := s.rules.rows.flatMap fun rule => (s.acks.rows.filter (·.rule = rule.id)).map (asImported rule)
    reports := s.rules.rows.flatMap fun rule =>
      (s.reports.rows.filter (·.rule = rule.id)).map fun report =>
        ⟨rule.ruleId, report.account, report.orgId, report.host⟩ }

theorem coherent_shared {s s' : Service.State} {db : Importer.Database} (h : Coherent s db) (hrules : s'.rules = s.rules)
    (hunique : ((shared s' db).acks.map fun ack => (ack.rule, ack.orgId)).Nodup) : Coherent s' (shared s' db) where
  rules := by
    rw [hrules]
    exact h.rules
  tags := by
    rw [hrules]
    exact h.tags
  hosts account orgId := by simp [shared, Table.mem_def]
  acks ack := by simp [shared, Table.mem_def, and_assoc]
  reports rule hrule account orgId host := by
    simp only [shared, List.mem_flatMap, List.mem_map, List.mem_filter, decide_eq_true_eq, Table.mem_def] at hrule ⊢
    constructor
    · rintro ⟨report, hreport, hid, rfl, rfl, rfl⟩
      exact ⟨rule, hrule, report, ⟨hreport, hid⟩, rfl⟩
    · rintro ⟨other, hother, report, ⟨hreport, hid⟩, heq⟩
      simp only [Importer.CurrentReport.mk.injEq] at heq
      obtain rfl : other = rule := List.inj_on_of_nodup_map s'.ruleIds hother hrule heq.1
      exact ⟨report, hreport, hid, heq.2⟩
  unique := hunique

def autoacked : Advisor.Rule := { Service.hardening with tags := ["autoack"] }

def tagged : Service.State :=
  { Service.State.empty with rules := .single autoacked, ruleIds := List.nodup_singleton _ }

def taggedDatabase : Importer.Database :=
  { Management.fixtures with
    hosts := []
    rules := [⟨"https://rules", "hardening|WEAK_KEYS", "", 2, true, false, some 0, "Stability", none, 0, none, "", "", "", "", ""⟩]
    ruleTags := [("hardening|WEAK_KEYS", "autoack")] }

theorem coherent_tagged : Coherent tagged taggedDatabase where
  rules ruleId active := by simp [tagged, taggedDatabase, autoacked, Service.hardening]
  tags rule hrule tag := by
    obtain rfl := Table.mem_single.mp hrule
    simp [taggedDatabase, autoacked, Service.hardening]
  hosts account orgId := by
    constructor
    · rintro ⟨host, hhost, -⟩
      cases hhost
    · intro hhost
      cases hhost
  acks ack := by
    constructor
    · intro hack
      cases hack
    · rintro ⟨rule, -, stored, hstored, -⟩
      cases hstored
  reports rule hrule account orgId host := by
    constructor
    · rintro ⟨report, hreport, -⟩
      cases hreport
    · intro hreport
      cases hreport
  unique := List.nodup_nil

def taggedWorld : World := ⟨tagged, { db := taggedDatabase }, fun _ _ => .importer⟩

def firstUpload : Event := .upload Service.notifying Service.noFaults (Service.clientUpload [])

def uploaded : Service.State :=
  (Service.createDbReports Service.notifying Service.noFaults (Service.clientUpload []) tagged).2

def uploadedWorld : World :=
  ⟨uploaded, { db := shared uploaded taggedDatabase }, taggedWorld.madeBy .service⟩

theorem reached_uploaded : Reached (fun _ _ => True) uploadedWorld := by
  have hrules : uploaded.rules = tagged.rules := (createDbReports_acks _ _ _ _).1
  have hstep : Step taggedWorld firstUpload uploadedWorld :=
    .upload rfl rfl (coherent_shared coherent_tagged hrules (by decide +kernel))
  exact .step (.start rfl coherent_tagged) trivial hstep

/-- The ack that the service makes then is shown and listed as one of a user's. -/
theorem not_recognised : Reached (fun _ _ => True) uploadedWorld ∧ ¬ Recognised uploadedWorld := by
  refine ⟨reached_uploaded, fun h => ?_⟩
  have hack : (⟨"hardening|WEAK_KEYS", none, "1234", autoackJustification, "Red Hat Insights"⟩ : Importer.Ack) ∈
      uploadedWorld.db.acks := by decide +kernel
  have hstatus := (h.service _ hack rfl).1 "disabled" (by decide +kernel)
  exact absurd hstatus (by decide)

def ackedBy (username : String) : Service.State :=
  { tagged with acks := .single ⟨1, none, "1234", "", username⟩ }

def userRequest : AckRequest := ⟨"1234", none, "jdoe"⟩

def userWorld : World :=
  ⟨ackedBy "jdoe", { db := shared (ackedBy "jdoe") taggedDatabase },
    taggedWorld.takenOver userRequest "hardening|WEAK_KEYS"⟩

theorem reached_user : Reached Clear userWorld := by
  have hstep : Step taggedWorld (.create userRequest "hardening|WEAK_KEYS" "") userWorld :=
    .create (by decide +kernel) rfl (coherent_shared coherent_tagged rfl (by decide +kernel))
  have hclear : Clear taggedWorld (.create userRequest "hardening|WEAK_KEYS" "") := by
    show "jdoe" ≠ autoackCreatedBy
    decide
  exact .step (.start rfl coherent_tagged) hclear hstep

theorem recognised_user :
    (Recognised userWorld ∧ ∀ event w', event.imports = true → Step userWorld event w' → Handled userWorld w') ∧
      ∀ ack ∈ userWorld.db.acks, userWorld.creator ack.rule ack.orgId = .service → Manual userWorld.db ack ∧
        ∀ event w', event.imports = true → Step userWorld event w' → LosesTag userWorld w' ack.rule →
          ack ∈ w'.db.acks :=
  ⟨(recognised_runs Clear userWorld reached_user).1 fun _ _ h => h, (recognised_runs Clear userWorld reached_user).2⟩

end Advisor.Acks
