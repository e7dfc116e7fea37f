import Advisor.Service.Call

/-! The acks of a new organisation: what the first upload of one adds to them, and when every rule that is
disabled by default is acked after it. -/

namespace Advisor.Service

open Python Procedure Django Relational

variable {settings : Settings} {call : UploadCall} {s : State}

/-- The first host of an organisation that has no current uploads. -/
structure NewOrg (call : UploadCall) (s : State) : Prop where
  host : s.hosts.get? call.inventoryId = none
  uploads : ∀ upload ∈ s.uploads, upload.orgId = call.orgId → upload.current = false

/-- One ack of the organisation for each rule that is disabled by default, and nothing else changed. -/
structure Autoacked (orgId : String) (s s' : State) : Prop where
  tagged : ∀ rule ∈ s.rules, autoackTag ∈ rule.tags → ∃! ack, ack ∈ s'.acks ∧ ack.rule = rule.id ∧ ack.orgId = orgId
  kept : ∀ ack ∈ s.acks, ack.orgId = orgId → ack ∈ s'.acks
  others : ∀ ack, ack.orgId ≠ orgId → (ack ∈ s'.acks ↔ ack ∈ s.acks)

/-- The call goes through, and the acks of the organisation are as they should be. -/
def StartsAcked (settings : Settings) (call : UploadCall) (s : State) : Prop :=
  (createDbReports settings noFaults call s).1 = .ok true ∧
    Autoacked call.orgId s (createDbReports settings noFaults call s).2

theorem NewOrg.newAcks (h : NewOrg call s) : s.newAcks call = s.autoackRules.map call.autoack := by
  unfold State.newAcks
  rw [if_neg]
  intro hany
  obtain ⟨upload, hupload, hcurrent⟩ := List.any_eq_true.mp hany
  obtain ⟨horg, hcurrent⟩ : upload.orgId = call.orgId ∧ upload.current = true := by simpa using hcurrent
  rw [h.uploads upload hupload horg] at hcurrent
  cases hcurrent

theorem mem_autoackRules {rule : Rule} :
    rule ∈ s.autoackRules ↔ rule ∈ s.rules ∧ autoackTag ∈ rule.tags ∧ ∀ ack ∈ s.acks, ack.rule ≠ rule.id := by
  simp only [State.autoackRules, List.mem_filter, Bool.and_eq_true, List.contains_iff_mem, Bool.not_eq_true',
    List.any_eq_false, decide_eq_true_eq]
  rfl

theorem NewOrg.acks (h : NewOrg call s) (hidentified : call.identified = true) (ack : Ack) :
    ack ∈ (s.withHost call).acks ↔ ack ∈ s.acks ∨ ∃ rule ∈ s.autoackRules, ack = call.autoack rule := by
  obtain ⟨acks, hacks⟩ := Option.isSome_iff_exists.mp (insertMany?_newAcks s call)
  have hafter : (s.withHost call).acks = acks := by
    unfold State.withHost
    rw [h.host]
    dsimp only
    rw [if_pos hidentified]
    cases s.hosts.insert? (call.updateHost call.newHost) <;> simp only [State.withAcks, hacks]
  rw [hafter, Table.mem_insertMany? hacks, h.newAcks, List.mem_map]
  simp only [eq_comm]

theorem createDbReports_acks (settings : Settings) (call : UploadCall) (s : State) :
    (createDbReports settings noFaults call s).2.acks = (s.withHost call).acks ∧
      ((createDbReports settings noFaults call s).1 = .ok true ↔ s.Takes settings call) := by
  rcases createDbReports_noFaults s settings call with ⟨htakes, s', known, hrun, hstored⟩ | ⟨hnot, hrun⟩
  · rw [hrun]
    refine ⟨?_, iff_of_true rfl htakes⟩
    rw [hstored.frame]
  · rw [hrun]
    exact ⟨rfl, iff_of_false (by simp) hnot⟩

/-- An ack of another organisation keeps this one from being given its own. -/
theorem NewOrg.startsAcked_iff (h : NewOrg call s) :
    StartsAcked settings call s ↔ s.Takes settings call ∧
      ∀ rule ∈ s.rules, autoackTag ∈ rule.tags → ∀ other ∈ s.acks, other.rule = rule.id →
        ∃ own ∈ s.acks, own.rule = rule.id ∧ own.orgId = call.orgId := by
  obtain ⟨hacks, htakes⟩ := createDbReports_acks settings call s
  unfold StartsAcked
  rw [htakes]
  refine and_congr_right fun htaken => ⟨?_, ?_⟩
  · intro hacked rule hrule htag other hother hsame
    obtain ⟨own, ⟨hown, hownRule, hownOrg⟩, -⟩ := hacked.tagged rule hrule htag
    rw [hacks, h.acks htaken.accepts.identified] at hown
    rcases hown with hown | ⟨new, hnew, rfl⟩
    · exact ⟨own, hown, hownRule, hownOrg⟩
    · exact absurd (hsame.trans hownRule.symm) ((mem_autoackRules.mp hnew).2.2 other hother)
  · intro hown
    refine ⟨fun rule hrule htag => ?_, fun ack hack _ => ?_, fun ack horg => ?_⟩
    · have hex : ∃ ack ∈ (s.withHost call).acks, ack.rule = rule.id ∧ ack.orgId = call.orgId := by
        by_cases hfree : ∀ ack ∈ s.acks, ack.rule ≠ rule.id
        · have hnew := mem_autoackRules.mpr ⟨hrule, htag, hfree⟩
          exact ⟨call.autoack rule, (h.acks htaken.accepts.identified _).mpr (Or.inr ⟨rule, hnew, rfl⟩), rfl, rfl⟩
        · push Not at hfree
          obtain ⟨other, hother, hsame⟩ := hfree
          obtain ⟨own, hstored, heq⟩ := hown rule hrule htag other hother hsame
          exact ⟨own, (h.acks htaken.accepts.identified own).mpr (Or.inl hstored), heq⟩
      obtain ⟨ack, hack, hackRule, hackOrg⟩ := hex
      rw [hacks]
      refine ⟨ack, ⟨hack, hackRule, hackOrg⟩, ?_⟩
      rintro ack' ⟨hack', hackRule', hackOrg'⟩
      exact Table.key_injOn _ hack' hack (Prod.ext (hackRule'.trans hackRule.symm) (hackOrg'.trans hackOrg.symm))
    · rw [hacks, h.acks htaken.accepts.identified]
      exact Or.inl hack
    · rw [hacks, h.acks htaken.accepts.identified]
      refine or_iff_left ?_
      rintro ⟨rule, -, rfl⟩
      exact horg rfl

def State.unheard : State :=
  { State.empty with
    rules := .single { hardening with tags := [autoackTag] }
    ruleIds := List.nodup_singleton _ }

theorem State.unheard_newOrg : NewOrg (clientUpload []) State.unheard :=
  ⟨rfl, fun _ hupload => nomatch hupload⟩

theorem startsAcked_unheard :
    StartsAcked notifying (clientUpload []) State.unheard ↔ State.unheard.Takes notifying (clientUpload []) ∧
      ∀ rule ∈ State.unheard.rules, autoackTag ∈ rule.tags → ∀ other ∈ State.unheard.acks, other.rule = rule.id →
        ∃ own ∈ State.unheard.acks, own.rule = rule.id ∧ own.orgId = (clientUpload []).orgId :=
  State.unheard_newOrg.startsAcked_iff

def State.heard : State := { State.unheard with acks := .single { rule := 1, account := none, orgId := "5678" } }

theorem foreign_ack_keeps_autoack :
    NewOrg (clientUpload []) State.heard ∧ ¬StartsAcked notifying (clientUpload []) State.heard := by
  have hnone : (createDbReports notifying noFaults (clientUpload []) State.heard).2.acks.get? (1, "1234") = none := by
    decide +kernel
  refine ⟨⟨rfl, fun _ hupload => nomatch hupload⟩, fun h => ?_⟩
  obtain ⟨ack, ⟨hack, hrule, horg⟩, -⟩ := h.2.tagged _ (Table.mem_single.mpr rfl) (by decide)
  exact Table.get?_eq_none.mp hnone ack hack (Prod.ext hrule horg)

end Advisor.Service
