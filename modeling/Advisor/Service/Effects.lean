import Mathlib.Data.List.MinMax
import Advisor.Python.Raise
import Advisor.Service.Upload

/-! What each part of storing an upload does: when the loop over its entries ends and with which
reports, and the report that the three writes leave for each rule. -/

namespace Advisor.Service

open Python Procedure Django Relational

def ruleReport? (rules : List Rule) (report : Json) : Option RuleReport :=
  match ruleReport rules report with
  | .ok entry => entry
  | .error _ => none

def entries (rules : List Rule) (reports : List Json) : List RuleReport := reports.filterMap (ruleReport? rules)

theorem ruleReport?_of_ok {rules : List Rule} {report : Json} {entry : Option RuleReport}
    (h : ruleReport rules report = .ok entry) : ruleReport? rules report = entry := by
  rw [ruleReport?, h]

theorem entries_singleton {rules : List Rule} {report : Json} {found : Option RuleReport}
    (h : ruleReport rules report = .ok found) : entries rules [report] = found.toList := by
  simp only [entries, List.filterMap_cons, ruleReport?_of_ok h, List.filterMap_nil]
  cases found <;> rfl

theorem entries_cons (rules : List Rule) (report : Json) (rest : List Json) :
    entries rules (report :: rest) = entries rules [report] ++ entries rules rest := by
  simp only [entries, ← List.filterMap_append, List.singleton_append]

theorem mem_entries {rules : List Rule} {reports : List Json} {entry : RuleReport} :
    entry ∈ entries rules reports ↔ ∃ report ∈ reports, ruleReport rules report = .ok (some entry) := by
  simp only [entries, List.mem_filterMap, ruleReport?]
  constructor
  · rintro ⟨report, hreport, h⟩
    refine ⟨report, hreport, ?_⟩
    cases hread : ruleReport rules report with
    | error e => simp [hread] at h
    | ok found => simpa [hread] using h
  · rintro ⟨report, hreport, h⟩
    exact ⟨report, hreport, by rw [h]⟩

theorem update_isOk (counts : InventoryViewCounts) {rule : Rule} :
    (∃ counts', counts.update rule = .ok counts') ↔ rule.totalRisk ≤ 4 := by
  rcases hr : rule.totalRisk with _ | _ | _ | _ | _ | n <;> simp [InventoryViewCounts.update, hr]

namespace Known

variable (known : Known) (call : UploadCall) (settings : Settings)

/-- An entry can be read, and if it is counted its rule has a risk that has a name. -/
def Accepts (report : Json) : Prop :=
  ∃ found, ruleReport known.rules report = .ok found ∧
    ∀ entry ∈ found, entry.rule.id ∉ known.disabled → entry.rule.totalRisk ≤ 4

/-- The loop has added reports of some entries to what it had collected. -/
structure Adds (entries : List RuleReport) (collected collected' : Collected) : Prop where
  newReports : collected'.newReports = collected.newReports ++
    (entries.filter fun entry => !known.isStored entry.rule).map (known.reportObject call)
  existingReports : collected'.existingReports = collected.existingReports ++
    (entries.filter fun entry => known.isStored entry.rule).map (known.reportObject call)
  webhookRules : collected'.webhookRules = collected.webhookRules ++
    if settings.webhooksTopic || settings.remediationsHookTopic then entries.map (·.rule) else []

variable {known call settings}

theorem Adds.refl (collected : Collected) : Adds known call settings [] collected collected :=
  ⟨by simp, by simp, by simp⟩

theorem Adds.trans {es es' : List RuleReport} {a b c : Collected} (h : Adds known call settings es a b)
    (h' : Adds known call settings es' b c) : Adds known call settings (es ++ es') a c := by
  refine ⟨?_, ?_, ?_⟩
  · rw [h'.newReports, h.newReports, List.filter_append, List.map_append, List.append_assoc]
  · rw [h'.existingReports, h.existingReports, List.filter_append, List.map_append, List.append_assoc]
  · rw [h'.webhookRules, h.webhookRules, List.append_assoc]
    split_ifs <;> simp

theorem Adds.add (collected : Collected) (entry : RuleReport) (counts : InventoryViewCounts) :
    Adds known call settings [entry] collected (known.add call settings collected entry counts) := by
  refine ⟨?_, ?_, ?_⟩
  · cases hs : known.isStored entry.rule <;> simp [Known.add, hs]
  · cases hs : known.isStored entry.rule <;> simp [Known.add, hs]
  · simp only [Known.add]
    split_ifs <;> simp

theorem count_isOk (counts : InventoryViewCounts) {rule : Rule} :
    (∃ counts', known.count counts rule = .ok counts') ↔ (rule.id ∉ known.disabled → rule.totalRisk ≤ 4) := by
  by_cases hdisabled : rule.id ∈ known.disabled
  · simp [Known.count, hdisabled]
  · simp [Known.count, hdisabled, update_isOk]

theorem collect_of_accepts {report : Json} (h : known.Accepts report) (collected : Collected) :
    ∃ collected', known.collect call settings collected report = .ok collected' := by
  obtain ⟨found, hfound, hrisk⟩ := h
  cases found with
  | none => exact ⟨collected, by simp only [Known.collect, hfound]; rfl⟩
  | some entry =>
    obtain ⟨counts, hcounts⟩ := (count_isOk collected.counts).mpr (hrisk entry rfl)
    exact ⟨known.add call settings collected entry counts, by
      simp only [Known.collect, hfound, bind, Except.bind, hcounts]; rfl⟩

theorem collect_ok {report : Json} {collected collected' : Collected}
    (h : known.collect call settings collected report = .ok collected') :
    known.Accepts report ∧ Adds known call settings (entries known.rules [report]) collected collected' := by
  rw [Known.collect, bind_eq_ok] at h
  obtain ⟨found, hfound, h⟩ := h
  rw [entries_singleton hfound]
  cases found with
  | none =>
    obtain rfl := Except.ok.inj h
    exact ⟨⟨none, hfound, by simp⟩, .refl collected⟩
  | some entry =>
    rw [bind_eq_ok] at h
    obtain ⟨counts, hcounts, h⟩ := h
    obtain rfl := Except.ok.inj h
    refine ⟨⟨some entry, hfound, ?_⟩, .add collected entry counts⟩
    intro e he
    obtain rfl := Option.some.inj he
    exact (count_isOk collected.counts).mp ⟨counts, hcounts⟩

theorem foldlM_collect_of_accepts {reports : List Json} (h : ∀ report ∈ reports, known.Accepts report)
    (collected : Collected) : ∃ collected', reports.foldlM (known.collect call settings) collected = .ok collected' := by
  induction reports generalizing collected with
  | nil => exact ⟨collected, rfl⟩
  | cons report rest ih =>
    obtain ⟨next, hnext⟩ := collect_of_accepts (h report (by simp)) collected
    obtain ⟨collected', hrest⟩ := ih (fun r hr => h r (by simp [hr])) next
    exact ⟨collected', by rw [List.foldlM_cons, hnext]; exact hrest⟩

theorem foldlM_collect_ok {reports : List Json} {collected collected' : Collected}
    (h : reports.foldlM (known.collect call settings) collected = .ok collected') :
    (∀ report ∈ reports, known.Accepts report) ∧
      Adds known call settings (entries known.rules reports) collected collected' := by
  induction reports generalizing collected with
  | nil =>
    obtain rfl := Except.ok.inj h
    exact ⟨by simp, .refl collected⟩
  | cons report rest ih =>
    rw [List.foldlM_cons, bind_eq_ok] at h
    obtain ⟨next, hnext, h⟩ := h
    obtain ⟨haccepts, hadds⟩ := collect_ok hnext
    obtain ⟨haccepts', hadds'⟩ := ih h
    refine ⟨?_, ?_⟩
    · intro r hr
      rcases List.mem_cons.mp hr with rfl | hr'
      · exact haccepts
      · exact haccepts' r hr'
    · rw [entries_cons]
      exact hadds.trans hadds'

end Known

structure UploadCall.Stamps (call : UploadCall) (upload : Upload) : Prop where
  own : call.ownUpload upload = true
  account : upload.account = call.account
  systemType : upload.systemType = call.systemType
  checkedOn : upload.checkedOn = call.checkedOn
  isSatellite : upload.isSatellite = call.satelliteManaged

/-- The call has one upload to refresh, or none and nothing in the way of a new one. -/
structure State.UploadFits (s : State) (call : UploadCall) : Prop where
  one : (s.uploads.rows.filter call.ownUpload).length ≤ 1
  free : s.uploads.rows.filter call.ownUpload = [] →
    ∀ upload ∈ s.uploads, upload.host = call.inventoryId → upload.source = call.source → upload.current = false

theorem lt_nextUploadId {s : State} {upload : Upload} (h : upload ∈ s.uploads) : upload.id < nextUploadId s :=
  Nat.lt_succ_of_le (List.le_max_of_le' 0 (List.mem_map.mpr ⟨upload, h, rfl⟩) (Nat.le_refl _))

/-- The upload of a call is the row it has, refreshed, or a new one. -/
theorem updateOrCreateUpload_cases {call : UploadCall} {s s' : State} {id : Nat}
    (h : updateOrCreateUpload call s = (.ok id, s')) :
    (∃ own, s.uploads.rows.filter call.ownUpload = [own] ∧ own.id = id ∧
        s' = { s with uploads := s.uploads.updateWhere (fun row => row.id = own.id) call.refresh }) ∨
      (s.uploads.rows.filter call.ownUpload = [] ∧
        (∀ upload ∈ s.uploads, upload.host = call.inventoryId → upload.source = call.source → upload.current = false) ∧
          nextUploadId s = id ∧ ∃ uploads, s.uploads.insert? (call.newUpload id) = some uploads ∧
            s' = { s with uploads }) := by
  unfold updateOrCreateUpload at h
  rcases hown : s.uploads.rows.filter call.ownUpload with _ | ⟨own, _ | ⟨other, rest⟩⟩
  · rw [hown] at h
    dsimp only at h
    split_ifs at h with htaken
    · cases congrArg Prod.fst h
    · cases hinsert : s.uploads.insert? (call.newUpload (nextUploadId s)) with
      | none =>
        rw [hinsert] at h
        cases congrArg Prod.fst h
      | some uploads =>
        rw [hinsert] at h
        obtain ⟨hid, rfl⟩ := Prod.mk.inj h
        obtain rfl := Except.ok.inj hid
        refine Or.inr ⟨rfl, ?_, rfl, uploads, hinsert, rfl⟩
        intro upload hupload hhost hsource
        by_contra hcurrent
        apply htaken
        rw [List.any_eq_true]
        exact ⟨upload, hupload, by simpa [hhost, hsource] using hcurrent⟩
  · rw [hown] at h
    obtain ⟨hid, rfl⟩ := Prod.mk.inj h
    exact Or.inl ⟨own, rfl, Except.ok.inj hid, rfl⟩
  · rw [hown] at h
    cases congrArg Prod.fst h

theorem updateOrCreateUpload_ok {call : UploadCall} {s s' : State} {id : Nat}
    (h : updateOrCreateUpload call s = (.ok id, s')) :
    s.UploadFits call ∧ s' = { s with uploads := s'.uploads } ∧
      ∃ upload, s'.uploads.get? id = some upload ∧ call.Stamps upload := by
  rcases updateOrCreateUpload_cases h with ⟨own, hown, rfl, rfl⟩ | ⟨hown, hfree, -, uploads, hinsert, rfl⟩
  · obtain ⟨hupload, how⟩ := List.mem_filter.mp (by rw [hown]; simp : own ∈ s.uploads.rows.filter call.ownUpload)
    refine ⟨⟨by simp [hown], by simp [hown]⟩, rfl, call.refresh.1 own, ?_, how, rfl, rfl, rfl, rfl⟩
    rw [Table.get?_updateWhere, Table.get?_eq_some.mpr ⟨hupload, rfl⟩]
    simp
  · refine ⟨⟨by simp [hown], fun _ => hfree⟩, rfl, call.newUpload id, ?_, ?_⟩
    · rw [Table.get?_insert? hinsert]
      exact if_pos rfl
    · exact ⟨by simp [UploadCall.ownUpload, UploadCall.newUpload], rfl, rfl, rfl, rfl⟩

theorem stamps_iff {call : UploadCall} {s s' : State} {id other : Nat}
    (h : updateOrCreateUpload call s = (.ok id, s')) (hother : (s.uploads.get? other).isSome) :
    (∃ upload, s'.uploads.get? other = some upload ∧ call.Stamps upload) ↔
      ∃ upload, s.uploads.get? other = some upload ∧ call.ownUpload upload = true := by
  obtain ⟨upload, hupload⟩ := Option.isSome_iff_exists.mp hother
  obtain ⟨hmem, hid⟩ := Table.get?_eq_some.mp hupload
  rcases updateOrCreateUpload_cases h with ⟨own, hown, rfl, rfl⟩ | ⟨hown, -, rfl, uploads, hinsert, rfl⟩
  · obtain ⟨hmem', how⟩ := List.mem_filter.mp (by rw [hown]; simp : own ∈ s.uploads.rows.filter call.ownUpload)
    simp only [Table.get?_updateWhere, hupload, Option.map_some, Option.some.injEq, exists_eq_left', decide_eq_true_eq]
    by_cases hsame : upload.id = own.id
    · obtain rfl := s.uploads.key_injOn hmem hmem' hsame
      simp only [if_true]
      exact iff_of_true ⟨how, rfl, rfl, rfl, rfl⟩ how
    · rw [if_neg hsame]
      refine ⟨fun hs => hs.own, fun hs => ?_⟩
      have hin := List.mem_filter.mpr ⟨hmem, hs⟩
      rw [hown, List.mem_singleton] at hin
      exact absurd (congrArg Upload.id hin) hsame
  · have hlt := lt_nextUploadId hmem
    have hne : ¬ nextUploadId s = other := by
      intro heq
      change upload.id = other at hid
      omega
    rw [show uploads.get? other = s.uploads.get? other by rw [Table.get?_insert? hinsert]; exact if_neg hne, hupload]
    simp only [Option.some.injEq, exists_eq_left']
    have hnot : call.ownUpload upload = false := by
      by_contra hs
      have hin := List.mem_filter.mpr ⟨hmem, by simpa using hs⟩
      rw [hown] at hin
      cases hin
    exact iff_of_false (fun hs => by simp [hs.own] at hnot) (by simp [hnot])

theorem updateOrCreateUpload_of_fits {call : UploadCall} {s : State} (h : s.UploadFits call) :
    ∃ id s', updateOrCreateUpload call s = (.ok id, s') := by
  unfold updateOrCreateUpload
  rcases hown : s.uploads.rows.filter call.ownUpload with _ | ⟨upload, _ | ⟨other, rest⟩⟩
  · have hfree : (s.uploads.rows.any fun upload =>
        decide (upload.host = call.inventoryId) && decide (upload.source = call.source) && upload.current) = false := by
      rw [Bool.eq_false_iff, ne_eq, List.any_eq_true]
      rintro ⟨upload, hupload, hc⟩
      simp only [Bool.and_eq_true, decide_eq_true_eq] at hc
      rw [h.free hown upload hupload hc.1.1 hc.1.2] at hc
      exact absurd hc.2 (by decide)
    have hnew : s.uploads.insert? (call.newUpload (nextUploadId s)) ≠ none := by
      rw [ne_eq, Table.insert?_eq_none, Option.isSome_iff_exists]
      rintro ⟨upload, hupload⟩
      obtain ⟨hmem, hid⟩ := Table.get?_eq_some.mp hupload
      have hlt := lt_nextUploadId hmem
      rw [hid] at hlt
      exact absurd hlt (Nat.lt_irrefl _)
    obtain ⟨uploads, huploads⟩ := Option.ne_none_iff_exists'.mp hnew
    exact ⟨_, _, by dsimp only; rw [hfree, huploads]; rfl⟩
  · exact ⟨_, _, rfl⟩
  · have hone := h.one
    rw [hown] at hone
    simp at hone

def reportedRuleIds (reports : List Json) : List String :=
  reports.filterMap fun report => (report.field? "rule_id").bind text?

def State.known (s : State) (settings : Settings) (call : UploadCall) (upload : Nat) : Known where
  upload
  stored := s.storedReports call
  rules := s.reportRules (finalRuleIds settings (reportedRuleIds call.reports))
  disabled := s.orgDisabledRules call ++ s.hostDisabledRules call

theorem mapM_item {reports : List Json} {ids : List Json}
    (h : reports.mapM (fun report => report.item "rule_id") = .ok ids) :
    ids.filterMap text? = reportedRuleIds reports := by
  have hall := mapM_forall₂ h
  clear h
  induction hall with
  | nil => rfl
  | @cons report id _ _ hitem _ ih =>
    have hfield : report.field? "rule_id" = some id := by
      cases report with
      | dict items =>
        simp only [Json.item] at hitem
        cases hl : items.lookup "rule_id" with
        | none => simp [hl] at hitem
        | some found =>
          simp only [hl, Except.ok.injEq] at hitem
          simp [Json.field?, hl, hitem]
      | null | bool | int | float | str | list => cases hitem
    simp only [reportedRuleIds, List.filterMap_cons, hfield, Option.bind_some] at ih ⊢
    rw [ih]

/-- A call can go through all entries of its upload. -/
structure State.Accepts (s : State) (settings : Settings) (call : UploadCall) : Prop where
  host : (s.hosts.get? call.inventoryId).isSome
  identified : call.identified = true
  source : charStorable 50 call.source = true
  upload : s.UploadFits call
  texts : ∀ ruleId ∈ finalRuleIds settings (reportedRuleIds call.reports), '\x00' ∉ ruleId.toList
  entries : ∀ report ∈ call.reports, (s.known settings call 0).Accepts report

/-- The sites of the database that every call passes on its way through `prepare`. -/
def prepareSites : List Site := [.lock, .snapshot, .uploadSource, .upload, .reportRules, .orgAcks, .hostAcks]

variable {settings : Settings} {faults : Faults} {call : UploadCall}

theorem statement_ok {α : Type} {site : Site} {p : Run α} {s s' : State} {a : α}
    (h : statement faults site p s = (.ok a, s')) : faults site = none ∧ p s = (.ok a, s') := by
  unfold statement at h
  cases hf : faults site with
  | none => exact ⟨rfl, by simpa [hf] using h⟩
  | some e =>
    rw [hf] at h
    cases congrArg Prod.fst h

theorem statement_of_none {α : Type} {site : Site} (h : faults site = none) (p : Run α) :
    statement faults site p = p := by
  rw [statement, h]

theorem bind_ok {α β : Type} {p : Run α} {f : α → Run β} {s s' : State} {b : β}
    (h : (p >>= f) s = (.ok b, s')) : ∃ a s₁, p s = (.ok a, s₁) ∧ f a s₁ = (.ok b, s') := by
  simp only [Bind.bind] at h
  rcases hp : p s with ⟨e | a, s₁⟩
  · rw [hp] at h
    cases congrArg Prod.fst h
  · rw [hp] at h
    exact ⟨a, s₁, rfl, h⟩

theorem read_ok {α : Type} {f : State → α} {s s' : State} {a : α}
    (h : Procedure.read f s = ((.ok a : Except Exception α), s')) : f s = a ∧ s = s' :=
  ⟨Except.ok.inj (congrArg Prod.fst h), congrArg Prod.snd h⟩

theorem statement_read_ok {α : Type} {site : Site} {f : State → α} {s s' : State} {a : α}
    (h : statement faults site (Procedure.read f) s = (.ok a, s')) : faults site = none ∧ f s = a ∧ s = s' := by
  obtain ⟨hf, hread⟩ := statement_ok h
  exact ⟨hf, read_ok hread⟩

theorem lift_ok {α : Type} {x : Except Exception α} {s s' : State} {a : α}
    (h : (lift x : Run α) s = (.ok a, s')) : x = .ok a ∧ s = s' :=
  ⟨congrArg Prod.fst h, congrArg Prod.snd h⟩

theorem pure_ok {α : Type} {a b : α} {s s' : State} (h : (pure a : Run α) s = (.ok b, s')) : a = b ∧ s = s' :=
  ⟨Except.ok.inj (congrArg Prod.fst h), congrArg Prod.snd h⟩

theorem selecting_cases (call : UploadCall) {α : Type} (p : Run α) (s : State) :
    call.selecting p = p ∨ call.identified = false ∧ ∃ e, call.selecting p s = (.error e, s) := by
  unfold UploadCall.selecting
  split_ifs with hnul
  · refine Or.inr ⟨?_, _, rfl⟩
    rw [UploadCall.identified, charStorable, hnul]
    rfl
  · exact Or.inl rfl

theorem identifying_cases (call : UploadCall) {α : Type} (p : Run α) (s : State) :
    call.identified = true ∧ call.identifying p = p ∨
      call.identified = false ∧ ∃ e, call.identifying p s = (.error e, s) := by
  unfold UploadCall.identifying
  cases call.identified with
  | true => exact Or.inl ⟨rfl, rfl⟩
  | false => exact Or.inr ⟨rfl, _, rfl⟩

theorem selecting_of (h : call.identified = true) {α : Type} (p : Run α) : call.selecting p = p := by
  funext s
  rcases selecting_cases call p s with hsame | ⟨hrefused, -⟩
  · rw [hsame]
  · rw [h] at hrefused
    cases hrefused

theorem identifying_of (h : call.identified = true) {α : Type} (p : Run α) : call.identifying p = p := if_pos h

theorem identifying_refused (h : call.identified = false) {α : Type} (p : Run α) (s : State) :
    ∃ e, call.identifying p s = (.error e, s) := by
  rcases identifying_cases call p s with ⟨hidentified, -⟩ | ⟨-, herror⟩
  · rw [h] at hidentified
    cases hidentified
  · exact herror

theorem selecting_ok {α : Type} {p : Run α} {s s' : State} {a : α} (h : call.selecting p s = (.ok a, s')) :
    p s = (.ok a, s') := by
  rcases selecting_cases call p s with hsame | ⟨-, e, herror⟩
  · rwa [hsame] at h
  · cases congrArg Prod.fst (herror.symm.trans h)

theorem identifying_ok {α : Type} {p : Run α} {s s' : State} {a : α} (h : call.identifying p s = (.ok a, s')) :
    call.identified = true ∧ p s = (.ok a, s') := by
  rcases identifying_cases call p s with ⟨hidentified, hsame⟩ | ⟨-, e, herror⟩
  · rw [hsame] at h
    exact ⟨hidentified, h⟩
  · cases congrArg Prod.fst (herror.symm.trans h)

theorem uploadSource_ok {s s' : State} {u : Unit} (h : uploadSource call s = (.ok u, s')) :
    charStorable 50 call.source = true ∧ s = s' := by
  unfold uploadSource at h
  split_ifs at h with hsource
  · exact ⟨hsource, congrArg Prod.snd h⟩
  · cases congrArg Prod.fst h

theorem lockHost_ok {s s' : State} {u : Unit} (h : lockHost call s = (.ok u, s')) :
    (s.hosts.get? call.inventoryId).isSome ∧ s = s' := by
  unfold lockHost at h
  split_ifs at h with hlocked
  · exact ⟨hlocked, congrArg Prod.snd h⟩
  · cases congrArg Prod.fst h

theorem selectRules_ok {ruleIds : List String} {s s' : State} {rules : List Rule}
    (h : selectRules ruleIds s = (.ok rules, s')) :
    (∀ ruleId ∈ ruleIds, '\x00' ∉ ruleId.toList) ∧ s.reportRules ruleIds = rules ∧ s = s' := by
  unfold selectRules at h
  split_ifs at h with hnul
  · cases congrArg Prod.fst h
  · refine ⟨by simpa using hnul, Except.ok.inj (congrArg Prod.fst h), congrArg Prod.snd h⟩

theorem selectRules_of {ruleIds : List String} (h : ∀ ruleId ∈ ruleIds, '\x00' ∉ ruleId.toList) (s : State) :
    selectRules ruleIds s = (.ok (s.reportRules ruleIds), s) := by
  rw [selectRules, if_neg (by simpa using h)]

structure Prepared (settings : Settings) (faults : Faults) (call : UploadCall) (s : State) (plan : Plan)
    (s' : State) : Prop where
  quiet : ∀ site ∈ prepareSites, faults site = none
  accepts : s.Accepts settings call
  upload : updateOrCreateUpload call s = (.ok plan.known.upload, s')
  known : plan.known = s.known settings call plan.known.upload
  ruleIds : plan.ruleIds = finalRuleIds settings (reportedRuleIds call.reports)
  adds : Known.Adds plan.known call settings (entries plan.known.rules call.reports) {} plan.collected

theorem known_of_upload (settings : Settings) {s s₁ : State} {upload : Nat} (h : updateOrCreateUpload call s = (.ok upload, s₁)) :
    (⟨upload, s.storedReports call, s₁.reportRules (finalRuleIds settings (reportedRuleIds call.reports)),
      s₁.orgDisabledRules call ++ s₁.hostDisabledRules call⟩ : Known) = s.known settings call upload := by
  rw [(updateOrCreateUpload_ok h).2.1]
  rfl

theorem prepare_ok {s s' : State} {plan : Plan} (h : prepare settings faults call s = (.ok plan, s')) :
    Prepared settings faults call s plan s' := by
  obtain ⟨_, _, hlock, h⟩ := bind_ok h
  obtain ⟨flock, hlock⟩ := statement_ok hlock
  obtain ⟨hlocked, rfl⟩ := lockHost_ok hlock
  obtain ⟨_, _, hstored, h⟩ := bind_ok h
  obtain ⟨fsnapshot, hstored⟩ := statement_ok hstored
  obtain ⟨rfl, rfl⟩ := read_ok (selecting_ok hstored)
  obtain ⟨_, _, hsource, h⟩ := bind_ok h
  obtain ⟨fsource, hsource⟩ := statement_ok hsource
  obtain ⟨hwidth, rfl⟩ := uploadSource_ok hsource
  obtain ⟨upload, s₁, hupload, h⟩ := bind_ok h
  obtain ⟨fupload, hupload⟩ := statement_ok hupload
  obtain ⟨hidentified, hupload⟩ := identifying_ok hupload
  obtain ⟨ids, _, hids, h⟩ := bind_ok h
  obtain ⟨hread, rfl⟩ := lift_ok hids
  obtain ⟨_, _, hrules, h⟩ := bind_ok h
  obtain ⟨frules, hrules⟩ := statement_ok hrules
  obtain ⟨htexts, rfl, rfl⟩ := selectRules_ok hrules
  obtain ⟨_, _, horg, h⟩ := bind_ok h
  obtain ⟨forg, rfl, rfl⟩ := statement_read_ok horg
  obtain ⟨_, _, hhost, h⟩ := bind_ok h
  obtain ⟨fhost, rfl, rfl⟩ := statement_read_ok hhost
  obtain ⟨collected, _, hcollected, h⟩ := bind_ok h
  obtain ⟨hcollect, rfl⟩ := lift_ok hcollected
  obtain ⟨rfl, rfl⟩ := pure_ok h
  have hknown := known_of_upload settings hupload
  obtain ⟨hfits, -, -⟩ := updateOrCreateUpload_ok hupload
  rw [mapM_item hread, hknown] at hcollect
  rw [mapM_item hread] at htexts
  rw [mapM_item hread]
  obtain ⟨haccepts, hadds⟩ := Known.foldlM_collect_ok hcollect
  refine ⟨?_, ⟨hlocked, hidentified, hwidth, hfits, htexts, haccepts⟩, hupload, hknown, rfl, ?_⟩
  · simp [prepareSites, flock, fsnapshot, fsource, fupload, frules, forg, fhost]
  · have hsame : s₁.reportRules (finalRuleIds settings (reportedRuleIds call.reports)) =
        (s.known settings call upload).rules := congrArg Known.rules hknown
    dsimp only
    rw [hknown, hsame]
    exact hadds

theorem item_of_accepts {known : Known} {report : Json} (h : known.Accepts report) :
    ∃ id, report.item "rule_id" = .ok id := by
  obtain ⟨found, hfound, -⟩ := h
  rw [ruleReport, bind_eq_ok] at hfound
  obtain ⟨id, hid, -⟩ := hfound
  exact ⟨id, hid⟩

theorem prepare_of_accepts {s : State} (hquiet : ∀ site ∈ prepareSites, faults site = none)
    (h : s.Accepts settings call) : ∃ plan s', prepare settings faults call s = (.ok plan, s') := by
  have hsite (site : Site) (hs : site ∈ prepareSites) {α : Type} (p : Run α) : statement faults site p = p :=
    statement_of_none (hquiet site hs) p
  have hlock : lockHost call s = (.ok (), s) := by rw [lockHost, if_pos h.host]
  have hsource : uploadSource call s = (.ok (), s) := by
    rw [uploadSource, if_pos h.source]
    rfl
  obtain ⟨upload, s₁, hupload⟩ := updateOrCreateUpload_of_fits h.upload
  obtain ⟨ids, hids⟩ := mapM_of_isOk fun report hr => item_of_accepts (h.entries report hr)
  have haccepts : ∀ report ∈ call.reports, (s.known settings call upload).Accepts report := h.entries
  obtain ⟨collected, hcollected⟩ := Known.foldlM_collect_of_accepts haccepts {}
  refine ⟨⟨s.known settings call upload, finalRuleIds settings (reportedRuleIds call.reports), collected⟩, s₁, ?_⟩
  unfold prepare
  rw [hsite .lock (by simp [prepareSites]), bind_of_ok hlock, hsite .snapshot (by simp [prepareSites]),
    selecting_of h.identified, read_bind, hsite .uploadSource (by simp [prepareSites]), bind_of_ok hsource,
    hsite .upload (by simp [prepareSites]), identifying_of h.identified, bind_of_ok hupload, hids, lift_ok_bind,
    mapM_item hids]
  dsimp only
  rw [hsite .reportRules (by simp [prepareSites]), bind_of_ok (selectRules_of h.texts s₁), hsite .orgAcks (by simp [prepareSites]), read_bind,
    hsite .hostAcks (by simp [prepareSites]), read_bind, known_of_upload settings hupload, hcollected]
  rfl

theorem insertReports_ok {reports : List CurrentReport} {s s' : State} {u : Unit}
    (h : insertReports reports s = (.ok u, s')) :
    (∀ report ∈ reports, storable report = true) ∧
      ∃ rows, s.reports.insertMany? reports = some rows ∧ s' = { s with reports := rows } := by
  unfold insertReports at h
  split_ifs at h with hstorable hjson
  · refine ⟨List.all_eq_true.mp hstorable, ?_⟩
    cases hrows : s.reports.insertMany? reports with
    | none =>
      rw [hrows] at h
      cases congrArg Prod.fst h
    | some rows =>
      rw [hrows] at h
      exact ⟨rows, rfl, (congrArg Prod.snd h).symm⟩
  · cases congrArg Prod.fst h
  · cases congrArg Prod.fst h

theorem insertReports_of {reports : List CurrentReport} {s : State} {rows : Table CurrentReport.key}
    (hstorable : ∀ report ∈ reports, storable report = true) (h : s.reports.insertMany? reports = some rows) :
    insertReports reports s = (.ok (), { s with reports := rows }) := by
  rw [insertReports, if_pos (List.all_eq_true.mpr hstorable), h]

def Writable (rows : Table CurrentReport.key) (report : CurrentReport) : Prop :=
  jsonStorable report.details = true ∧ (report.details = .null → ∀ row ∈ rows, sameReport report row = false)

theorem updateReport_eq (report : CurrentReport) (s : State) :
    (Writable s.reports report ∧ updateReport report s =
        (.ok (), { s with reports := s.reports.updateWhere (sameReport report) (rewriteReport report) })) ∨
      (¬ Writable s.reports report ∧ ∃ e, updateReport report s = (.error e, s)) := by
  unfold updateReport
  split_ifs with hjson hnull
  · exact Or.inr ⟨fun h => by simp [h.1] at hjson, _, rfl⟩
  · refine Or.inr ⟨fun h => ?_, _, rfl⟩
    simp only [Bool.and_eq_true, decide_eq_true_eq, List.any_eq_true] at hnull
    obtain ⟨hdetails, row, hrow, hsame⟩ := hnull
    rw [h.2 hdetails row hrow] at hsame
    cases hsame
  · refine Or.inl ⟨⟨by simpa using hjson, ?_⟩, rfl⟩
    intro hdetails row hrow
    cases hsame : sameReport report row with
    | false => rfl
    | true =>
      refine absurd ?_ hnull
      simp only [Bool.and_eq_true, decide_eq_true_eq, List.any_eq_true]
      exact ⟨hdetails, row, hrow, hsame⟩

theorem sameReport_rewrite (report other row : CurrentReport) :
    sameReport report ((rewriteReport other).1 row) = sameReport report row := rfl

theorem writable_update {rows : Table CurrentReport.key} {other report : CurrentReport} :
    Writable (rows.updateWhere (sameReport other) (rewriteReport other)) report ↔ Writable rows report := by
  refine and_congr_right fun _ => imp_congr_right fun _ => ?_
  have hsame (row : CurrentReport) :
      sameReport report (if sameReport other row then (rewriteReport other).1 row else row) =
        sameReport report row := by
    split_ifs
    · exact sameReport_rewrite _ _ _
    · rfl
  constructor
  · intro h row hrow
    rw [← hsame row]
    exact h _ (Table.mem_updateWhere.mpr ⟨row, hrow, rfl⟩)
  · intro h row hrow
    obtain ⟨old, hold, rfl⟩ := Table.mem_updateWhere.mp hrow
    rw [hsame old]
    exact h old hold

/-- What updates of existing reports, one after the other, make of a row: the last one for it counts. -/
def rewritten (reports : List CurrentReport) (row : CurrentReport) : CurrentReport :=
  match reports.reverse.find? fun report => sameReport report row with
  | some report => (rewriteReport report).1 row
  | none => row

theorem rewritten_cons (report : CurrentReport) (rest : List CurrentReport) (row : CurrentReport) :
    rewritten rest (if sameReport report row then (rewriteReport report).1 row else row) =
      rewritten (report :: rest) row := by
  unfold rewritten
  rw [List.reverse_cons, List.find?_append]
  cases hsame : sameReport report row with
  | false => simp [hsame]
  | true =>
    simp only [if_true, sameReport_rewrite]
    cases rest.reverse.find? fun report => sameReport report row with
    | none => simp [hsame]
    | some last => rfl

theorem updateReports_ok {reports : List CurrentReport} {k : Nat} {s s' : State} {u : Unit}
    (h : updateReports faults reports k s = (.ok u, s')) :
    (∀ i < reports.length, faults (.reportUpdate (k + i)) = none) ∧ (∀ report ∈ reports, Writable s.reports report) ∧
      s' = { s with reports := s'.reports } ∧ ∀ key, s'.reports.get? key = (s.reports.get? key).map (rewritten reports) := by
  induction reports generalizing k s with
  | nil =>
    obtain ⟨-, rfl⟩ := pure_ok h
    exact ⟨by simp, by simp, rfl, fun key => by cases s.reports.get? key <;> rfl⟩
  | cons report rest ih =>
    obtain ⟨_, s₁, hfirst, hrest⟩ := bind_ok h
    obtain ⟨hsite, hupdate⟩ := statement_ok hfirst
    rcases updateReport_eq report s with ⟨hwritable, heq⟩ | ⟨-, e, heq⟩
    · obtain rfl : _ = s₁ := congrArg Prod.snd (heq.symm.trans hupdate)
      obtain ⟨hsites, hall, hframe, hget⟩ := ih hrest
      refine ⟨?_, ?_, hframe, ?_⟩
      · intro i hi
        cases i with
        | zero => exact hsite
        | succ i =>
          rw [show k + (i + 1) = k + 1 + i by omega]
          exact hsites i (by simpa using hi)
      · intro r hr
        rcases List.mem_cons.mp hr with rfl | hr'
        · exact hwritable
        · exact writable_update.mp (hall r hr')
      · intro key
        rw [hget, Table.get?_updateWhere, Option.map_map]
        congr 1
        funext row
        exact rewritten_cons report rest row
    · cases (congrArg Prod.fst (heq.symm.trans hupdate) : Except.error e = Except.ok _)

theorem updateReports_of {reports : List CurrentReport} {k : Nat} {s : State}
    (hsites : ∀ i < reports.length, faults (.reportUpdate (k + i)) = none)
    (hall : ∀ report ∈ reports, Writable s.reports report) :
    ∃ s', updateReports faults reports k s = (.ok (), s') := by
  induction reports generalizing k s with
  | nil => exact ⟨s, rfl⟩
  | cons report rest ih =>
    rcases updateReport_eq report s with ⟨-, heq⟩ | ⟨hnot, -⟩
    · have hrest : ∃ s', updateReports faults rest (k + 1)
          { s with reports := s.reports.updateWhere (sameReport report) (rewriteReport report) } = (.ok (), s') := by
        refine ih ?_ ?_
        · intro i hi
          rw [show k + 1 + i = k + (i + 1) by omega]
          exact hsites (i + 1) (by simpa using hi)
        · intro r hr
          exact writable_update.mpr (hall r (by simp [hr]))
      obtain ⟨s', hs'⟩ := hrest
      refine ⟨s', ?_⟩
      have hfirst : statement faults (.reportUpdate k) (updateReport report) s =
          (.ok (), { s with reports := s.reports.updateWhere (sameReport report) (rewriteReport report) }) := by
        have hsite : faults (.reportUpdate k) = none := hsites 0 (by simp)
        rw [statement_of_none hsite]
        exact heq
      exact (bind_of_ok hfirst).trans hs'
    · exact absurd (hall report (by simp)) hnot

end Advisor.Service
