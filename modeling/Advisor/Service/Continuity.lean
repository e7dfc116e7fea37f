import Advisor.Service.Reconcile

/-! The date of a report over a sequence of uploads: the time of the first upload of the unbroken run of uploads
that reported its rule. -/

namespace Advisor.Service

open Python Procedure Django Relational

variable {settings : Settings} {call : UploadCall} {s s' : State} {host : Uuid} {orgId : String} {id : Nat}
  {ruleId : String}

def State.HasRule (s : State) (id : Nat) (ruleId : String) : Prop := ∃ rule ∈ s.rules, rule.id = id ∧ rule.ruleId = ruleId

/-- Other requests between two uploads of a host: the rule stays, and so does its report. -/
structure Meanwhile (host : Uuid) (orgId : String) (id : Nat) (ruleId : String) (s s' : State) : Prop where
  rule : s'.HasRule id ruleId
  report : s'.reports.get? (orgId, id, host) = s.reports.get? (orgId, id, host)

/-- Successful uploads of a host, the latest first, from a state without a report of the rule. -/
inductive History (meets : Settings → UploadCall → State → Prop) (host : Uuid) (orgId : String) (id : Nat)
    (ruleId : String) : List (Settings × UploadCall) → State → Prop
  | start {s : State} : s.HasRule id ruleId → s.reports.get? (orgId, id, host) = none → History meets host orgId id ruleId [] s
  | meanwhile {calls : List (Settings × UploadCall)} {s s' : State} : History meets host orgId id ruleId calls s →
      Meanwhile host orgId id ruleId s s' → History meets host orgId id ruleId calls s'
  | upload {calls : List (Settings × UploadCall)} {settings : Settings} {call : UploadCall} {s s' : State} :
      History meets host orgId id ruleId calls s → call.inventoryId = host → call.orgId = orgId →
        createDbReports settings noFaults call s = (.ok true, s') → meets settings call s →
          History meets host orgId id ruleId ((settings, call) :: calls) s'

def runStart (ruleId : String) : List (Settings × UploadCall) → Option Instant
  | [] => none
  | (settings, call) :: earlier =>
    if (passing settings (reportedRuleIds call.reports)).contains ruleId then some ((runStart ruleId earlier).getD call.now)
    else none

/-- The rule of a stored or a reported report is among the final ones exactly if it passes the filters. -/
def Continues (id : Nat) (ruleId : String) (settings : Settings) (call : UploadCall) (s : State) : Prop :=
  (s.reports.get? (call.key id)).isSome ∨ ruleId ∈ reportedRuleIds call.reports →
    (ruleId ∈ finalRuleIds settings (reportedRuleIds call.reports) ↔
      ruleId ∈ passing settings (reportedRuleIds call.reports))

theorem details_of_accepts (h : s.Accepts settings call) {rule : Rule} (hrule : rule ∈ s.rules)
    (hfinal : rule.ruleId ∈ finalRuleIds settings (reportedRuleIds call.reports)) :
    ∀ report ∈ call.reports, report.item "rule_id" = .ok (.str rule.ruleId) →
      ∃ details, report.item "details" = .ok details := by
  intro report hreport hid
  obtain ⟨found, hfound, -⟩ := h.entries report hreport
  cases hdetails : report.item "details" with
  | ok details => exact ⟨details, rfl⟩
  | error e =>
    have hfind : (s.known settings call 0).rules.find? (fun r => r.ruleId = rule.ruleId) = some rule :=
      find?_reportRules hrule hfinal
    simp only [ruleReport, hid, hdetails, bind, Except.bind, Json.hashable, text?, Option.bind, hfind] at hfound
    cases hfound

theorem date_reported {known : Known} (h : Stored settings call s s' known) (hstores : s.Stores settings call)
    {entry : RuleReport} (hentry : entry ∈ s.reported settings call) {start : Option Instant}
    (hstart : (s.reports.get? (call.key entry.rule.id)).map (·.impactedDate) = start.map some) :
    (s'.reports.get? (call.key entry.rule.id)).map (·.impactedDate) = some (some (start.getD call.now)) := by
  have hknown (rule : Rule) (hrule : rule ∈ s.rules) : known.impactedDate call rule =
      ((s.reports.get? (call.key rule.id)).bind (·.impactedDate)).getD call.now := by
    rw [h.knows, impactedDate_eq (by rwa [withHost_rules]), withHost_reports]
  rw [h.reports]
  cases hold : s.reports.get? (call.key entry.rule.id) with
  | none =>
    rw [hold] at hstart
    obtain rfl : start = none := by simpa using hstart.symm
    have hnew := mem_newEntries.mpr ⟨hentry, hold⟩
    rw [leaves_new known hnew hstores.distinct]
    simp only [Option.map_some, Known.reportObject, hknown entry.rule (entry_of_mem hentry).1, hold]
    rfl
  | some old =>
    rw [hold] at hstart
    obtain ⟨t, rfl, hsame⟩ := Option.map_eq_some_iff.mp hstart.symm
    have hdate : old.impactedDate = some t := hsame.symm
    rcases leaves_existing known hentry hold with ⟨-, last, hlast, hid, hleaves⟩ | ⟨-, hleaves⟩
    · rw [hleaves]
      simp only [Option.map_some, rewriteReport, Known.reportObject, hknown last.rule (entry_of_mem hlast).1, hid, hold]
      simp [hdate]
    · rw [hleaves, Option.map_some, hdate]
      rfl

theorem date_upload (hrule : s.HasRule id ruleId) (hcall : createDbReports settings noFaults call s = (.ok true, s'))
    (hcontinues : Continues id ruleId settings call s) {start : Option Instant}
    (hstart : (s.reports.get? (call.key id)).map (·.impactedDate) = start.map some) :
    s'.HasRule id ruleId ∧ (s'.reports.get? (call.key id)).map (·.impactedDate) =
      (if (passing settings (reportedRuleIds call.reports)).contains ruleId then some (start.getD call.now)
        else none).map some := by
  obtain ⟨rule, hmem, rfl, rfl⟩ := hrule
  rcases createDbReports_noFaults s settings call with ⟨htakes, s₁, known, heq, hstored⟩ | ⟨-, heq⟩
  · obtain rfl : s' = s₁ := congrArg Prod.snd (hcall.symm.trans heq)
    refine ⟨⟨rule, by rw [hstored.frame, withHost_rules]; exact hmem, rfl, rfl⟩, ?_⟩
    have hentry : (∃ entry ∈ s.reported settings call, entry.rule = rule) →
        rule.ruleId ∈ reportedRuleIds call.reports ∧
          rule.ruleId ∈ finalRuleIds settings (reportedRuleIds call.reports) := by
      rintro ⟨entry, he, rfl⟩
      obtain ⟨-, hfinal, report, hreport, hid, -⟩ := entry_of_mem he
      exact ⟨mem_reportedRuleIds.mpr ⟨report, hreport, hid⟩, hfinal⟩
    cases hpass : (passing settings (reportedRuleIds call.reports)).contains rule.ruleId with
    | true =>
      have hpassing := List.contains_iff_mem.mp hpass
      have hreported := passing_subset _ _ _ hpassing
      have hfinal := (hcontinues (Or.inr hreported)).mpr hpassing
      have hdetails := details_of_accepts htakes.accepts (by rwa [withHost_rules]) hfinal
      obtain ⟨entry, he, rfl⟩ := (reported_iff hdetails).mpr ⟨hmem, hreported, hfinal⟩
      exact date_reported hstored htakes.stores he hstart
    | false =>
      have hnotPassing : rule.ruleId ∉ passing settings (reportedRuleIds call.reports) := by
        rw [← List.contains_iff_mem, hpass]
        exact Bool.false_ne_true
      have hnot : ¬ ∃ entry ∈ s.reported settings call, entry.rule = rule := fun he =>
        hnotPassing ((hcontinues (Or.inr (hentry he).1)).mp (hentry he).2)
      have hgone : s'.reports.get? (call.key rule.id) = none := by
        rw [hstored.reports]
        cases hleaves : s.leaves settings call known (call.key rule.id) with
        | none => rfl
        | some report =>
          obtain ⟨hold, hfinal⟩ := (leaves_unreported_iff known hmem hnot).mp hleaves
          exact absurd ((hcontinues (Or.inl (by rw [hold]; rfl))).mp hfinal) hnotPassing
      rw [hgone]
      rfl
  · rw [heq] at hcall
    cases congrArg Prod.fst hcall

/-- Over a history whose uploads all continue the rule, its report is there exactly while uploads report the
rule, with the date of the first of them. -/
theorem date_history {calls : List (Settings × UploadCall)} (h : History (Continues id ruleId) host orgId id ruleId calls s) :
    s.HasRule id ruleId ∧
      (s.reports.get? (orgId, id, host)).map (·.impactedDate) = (runStart ruleId calls).map some := by
  induction h with
  | start hrule hnone => exact ⟨hrule, by rw [hnone]; rfl⟩
  | meanwhile _ hmeanwhile ih => exact ⟨hmeanwhile.rule, by rw [hmeanwhile.report, ih.2]⟩
  | upload _ hhost horg hcall hcontinues ih =>
    subst hhost horg
    exact date_upload ih.1 hcall hcontinues ih.2

/-- A report that is there after uploads that all continue its rule has the date at which the current run of
uploads that report the rule began. -/
theorem impactedDate_history (host : Uuid) (orgId : String) (id : Nat) (ruleId : String)
    (calls : List (Settings × UploadCall)) (s : State) (h : History (Continues id ruleId) host orgId id ruleId calls s) :
    ∀ report, s.reports.get? (orgId, id, host) = some report → report.impactedDate = runStart ruleId calls := by
  intro report hreport
  have hdate := (date_history h).2
  rw [hreport, Option.map_some] at hdate
  obtain ⟨t, ht, hsame⟩ := Option.map_eq_some_iff.mp hdate.symm
  rw [ht, hsame]

def after (settings : Settings) (call : UploadCall) (s : State) : State := (createDbReports settings noFaults call s).2

theorem eq_after (h : (createDbReports settings noFaults call s).1 = .ok true) :
    createDbReports settings noFaults call s = (.ok true, after settings call s) := Prod.ext h rfl

def returning : List (Settings × UploadCall) :=
  [(notifying, { clientUpload [weakKeys] with now := 4 }), (notifying, { clientUpload [weakKeys] with now := 3 }),
    (notifying, { clientUpload [] with now := 2 }), (notifying, { clientUpload [weakKeys] with now := 1 })]

def afterAll (calls : List (Settings × UploadCall)) (s : State) : State :=
  calls.foldr (fun call s => after call.1 call.2 s) s

theorem history_returning : History (Continues 1 "hardening|WEAK_KEYS") 7 "1234" 1 "hardening|WEAK_KEYS" returning
    (afterAll returning .ready) := by
  have hstart : History (Continues 1 "hardening|WEAK_KEYS") 7 "1234" 1 "hardening|WEAK_KEYS" [] State.ready :=
    .start ⟨hardening, Table.mem_single.mpr rfl, rfl, rfl⟩ rfl
  have hfirst := hstart.upload rfl rfl (eq_after (by decide +kernel) : createDbReports notifying noFaults
    { clientUpload [weakKeys] with now := 1 } .ready = _) fun _ => by decide
  have hsecond := hfirst.upload rfl rfl (eq_after (by decide +kernel) : createDbReports notifying noFaults
    { clientUpload [] with now := 2 } _ = _) fun _ => by decide
  have hthird := hsecond.upload rfl rfl (eq_after (by decide +kernel) : createDbReports notifying noFaults
    { clientUpload [weakKeys] with now := 3 } _ = _) fun _ => by decide
  exact hthird.upload rfl rfl (eq_after (by decide +kernel)) fun _ => by decide

theorem impactedDate_history_returning :
    runStart "hardening|WEAK_KEYS" returning = some 3 ∧
      (⟨none, "1234", 1, 7, 1, .dict [], some 3⟩ : CurrentReport).impactedDate =
        runStart "hardening|WEAK_KEYS" returning :=
  ⟨by decide, impactedDate_history 7 "1234" 1 "hardening|WEAK_KEYS" returning (afterAll returning .ready)
    history_returning _ (by decide +kernel)⟩

def bothRules (now : Instant) : UploadCall :=
  { clientUpload [.dict [("rule_id", .str "other_linux|SYSTEM"), ("details", .dict [])],
      .dict [("rule_id", .str "other_linux|SYSTEM_V2"), ("details", .dict [])]] with now }

def State.nonRhelKnown : State := { State.nonRhelReported with uploads := .empty, reports := .empty }

/-- Both rules are reported, then the first alone, then both: the second one's report has the date of the first
upload, although its run began with the third. -/
theorem impactedDate_history_nonRhel :
    ∃ s, History (fun _ _ _ => True) 7 "1234" 2 "other_linux|SYSTEM_V2"
        [(nonRhel, bothRules 3), (nonRhel, { nonRhelUpload with now := 2 }), (nonRhel, bothRules 1)] s ∧
      (s.reports.get? ("1234", 2, 7)).map (·.impactedDate) = some (some 1) ∧
        runStart "other_linux|SYSTEM_V2"
          [(nonRhel, bothRules 3), (nonRhel, { nonRhelUpload with now := 2 }), (nonRhel, bothRules 1)] = some 3 := by
  refine ⟨after nonRhel (bothRules 3) (after nonRhel { nonRhelUpload with now := 2 }
    (after nonRhel (bothRules 1) .nonRhelKnown)), ?_, by decide +kernel, by decide⟩
  have hstart : History (fun _ _ _ => True) 7 "1234" 2 "other_linux|SYSTEM_V2" [] State.nonRhelKnown :=
    .start ⟨⟨2, "other_linux|SYSTEM_V2", true, 2, "", none, false, []⟩,
      List.mem_cons_of_mem _ List.mem_cons_self, rfl, rfl⟩ rfl
  have hfirst := hstart.upload rfl rfl (eq_after (by decide +kernel) : createDbReports nonRhel noFaults
    (bothRules 1) .nonRhelKnown = _) trivial
  have hsecond := hfirst.upload rfl rfl (eq_after (by decide +kernel) : createDbReports nonRhel noFaults
    { nonRhelUpload with now := 2 } (after nonRhel (bothRules 1) .nonRhelKnown) = _) trivial
  exact hsecond.upload rfl rfl (eq_after (by decide +kernel)) trivial

end Advisor.Service
