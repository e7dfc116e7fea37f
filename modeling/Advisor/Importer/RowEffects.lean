import Advisor.Importer.Notices
import Advisor.Importer.Resolved

/-! What a row of the content makes of the tags and the date of its rule. -/

namespace Advisor.Importer.Api

open Python Procedure Django Relational

variable {env : Environment} {settings : Settings} {accounts : List (Option String × String)} {ruleId : String}

def Unchanged {α : Type} (f : Database → α) (s s' : State) : Prop := f s'.db = f s.db

instance unchanged_refl {α : Type} (f : Database → α) : Std.Refl (Unchanged f) := ⟨fun _ => rfl⟩

instance unchanged_trans {α : Type} (f : Database → α) : IsTrans State (Unchanged f) := ⟨fun _ _ _ h h' => h'.trans h⟩

section Unchanged

variable {α : Type} {f : Database → α}

theorem importRule_unchanged (hf : ∀ (db : Database) (rules : List Rule), f { db with rules } = f db) (ruleset : String)
    (row : ContentRow) : Keeps (Unchanged f) (importRule env settings ruleset row) := by
  unfold importRule
  refine Keeps.bind (Keeps.read _) fun db => ?_
  cases db.rules.find? fun rule => rule.ruleset = ruleset && rule.ruleId = row.ruleId with
  | some stored =>
    refine Keeps.bind (Keeps.lift _) fun date => Keeps.bind ?_ fun _ => Keeps.bind (Keeps.lift _) fun rule => ?_
    · exact notifAction_keeps (fun _ _ => rfl) row stored date
    · exact Keeps.write fun s => hf s.db _
  | none =>
    refine Keeps.bind (Keeps.lift _) fun rule => Keeps.bind (Keeps.lift _) fun rules => ?_
    exact Keeps.write fun s => hf s.db _

theorem setPathway_unchanged (hf : ∀ (db : Database) (rules : List Rule), f { db with rules } = f db) (row : ContentRow) :
    Keeps (Unchanged f) (setPathway env row) := by
  unfold setPathway
  exact Keeps.bind (Keeps.read _) fun db => Keeps.bind (Keeps.lift _) fun pathway => Keeps.write fun s => hf s.db _

theorem importResolution_unchanged
    (hf : ∀ (db : Database) (resolutions : List Resolution) (playbooks : List Playbook),
      f { db with resolutions, playbooks } = f db) (row : ContentRow) : Keeps (Unchanged f) (importResolution env row) :=
  importResolution_keeps (fun s _ _ => hf s.db _ _) row

theorem addAutoacksForRule_unchanged (hf : ∀ (db : Database) (acks : List Ack), f { db with acks } = f db) :
    Keeps (Unchanged f) (addAutoacksForRule accounts ruleId) := by
  unfold addAutoacksForRule
  exact Keeps.bind (Keeps.read _) fun db => Keeps.bind (Keeps.lift _) fun acks => Keeps.write fun s => hf s.db _

theorem importTags_unchanged (hacks : ∀ (db : Database) (acks : List Ack), f { db with acks } = f db)
    (htags : ∀ (db : Database) (tags : List String) (ruleTags : List (String × String)),
      f { db with tags, ruleTags } = f db) (row : ContentRow) : Keeps (Unchanged f) (importTags env accounts row) :=
  importTags_keeps (fun s _ _ => htags s.db _ _) (addAutoacksForRule_unchanged hacks) (Keeps.write fun s => hacks s.db _)

end Unchanged

theorem addTag_ruleTags {tag : String} {s s' : State} (h : addTag env accounts ruleId tag s = (.ok (), s')) :
    s'.db.ruleTags = if s.db.ruleTags.contains (ruleId, tag) then s.db.ruleTags else s.db.ruleTags ++ [(ruleId, tag)] := by
  rw [addTag, run_bind_eq_ok] at h
  obtain ⟨_, t, hcreated, h⟩ := h
  have hsame : t.db.ruleTags = s.db.ruleTags := by
    have hkeeps : Keeps (Unchanged Database.ruleTags) (getOrCreateTag env tag) := by
      unfold getOrCreateTag
      refine Keeps.bind (Keeps.read _) fun db => Keeps.ite (fun _ => ?_) fun _ => Keeps.pure _
      exact Keeps.bind (Keeps.lift _) fun name => Keeps.write fun s => rfl
    exact hkeeps.of_eq hcreated
  rw [modify, write_bind, hsame] at h
  split at h
  · have hkeeps : Keeps (Unchanged Database.ruleTags) (addAutoacksForRule accounts ruleId) :=
      addAutoacksForRule_unchanged fun _ _ => rfl
    exact hkeeps.of_eq h
  · obtain ⟨-, rfl⟩ := Prod.mk.inj h
    rfl

theorem addTag_mem {tag : String} {s s' : State} (h : addTag env accounts ruleId tag s = (.ok (), s'))
    (pair : String × String) : pair ∈ s'.db.ruleTags ↔ pair ∈ s.db.ruleTags ∨ pair = (ruleId, tag) := by
  rw [addTag_ruleTags h]
  by_cases hmem : (ruleId, tag) ∈ s.db.ruleTags
  · rw [if_pos (by simpa using hmem)]
    exact ⟨Or.inl, fun hor => hor.elim id fun heq => heq ▸ hmem⟩
  · rw [if_neg (by simpa using hmem), List.mem_append, List.mem_singleton]

theorem addTag_nodup {tag : String} {s s' : State} (hnodup : s.db.ruleTags.Nodup)
    (h : addTag env accounts ruleId tag s = (.ok (), s')) : s'.db.ruleTags.Nodup := by
  rw [addTag_ruleTags h]
  by_cases hmem : (ruleId, tag) ∈ s.db.ruleTags
  · rw [if_pos (by simpa using hmem)]
    exact hnodup
  · rw [if_neg (by simpa using hmem)]
    exact hnodup.append (List.nodup_singleton _) (by simpa using hmem)

theorem addTags_mem {tags onlyInModel gone : List String} {s s' : State} (hnodup : s.db.ruleTags.Nodup)
    (honly : onlyInModel.Nodup) (hstored : ∀ tag ∈ onlyInModel, (ruleId, tag) ∈ s.db.ruleTags)
    (h : addTags env accounts ruleId tags onlyInModel s = (.ok gone, s')) :
    s'.db.ruleTags.Nodup ∧ gone.Nodup ∧ (∀ tag, tag ∈ gone ↔ tag ∈ onlyInModel ∧ tag ∉ tags) ∧
      ∀ other tag, (other, tag) ∈ s'.db.ruleTags ↔ (other, tag) ∈ s.db.ruleTags ∨ other = ruleId ∧ tag ∈ tags := by
  induction tags generalizing onlyInModel s with
  | nil =>
    obtain ⟨hgone, rfl⟩ := Prod.mk.inj h
    obtain rfl := Except.ok.inj hgone
    exact ⟨hnodup, honly, by simp, by simp⟩
  | cons first tags ih =>
    rw [addTags] at h
    split at h
    case isTrue hfirst =>
      have hmem : first ∈ onlyInModel := by simpa using hfirst
      obtain ⟨hnodup', hgone, hleft, hpairs⟩ := ih hnodup (honly.erase _)
        (fun tag ht => hstored tag (List.mem_of_mem_erase ht)) h
      refine ⟨hnodup', hgone, fun tag => ?_, fun other tag => ?_⟩
      · rw [hleft, honly.mem_erase_iff, List.mem_cons]
        tauto
      · rw [hpairs, List.mem_cons]
        constructor
        · tauto
        · rintro (hpair | ⟨rfl, rfl | htag⟩)
          · exact Or.inl hpair
          · exact Or.inl (hstored tag hmem)
          · exact Or.inr ⟨rfl, htag⟩
    case isFalse hfirst =>
      have hmem : first ∉ onlyInModel := by simpa using hfirst
      rw [run_bind_eq_ok] at h
      obtain ⟨_, t, hadded, h⟩ := h
      obtain ⟨hnodup', hgone, hleft, hpairs⟩ := ih (addTag_nodup hnodup hadded) honly
        (fun tag ht => (addTag_mem hadded _).mpr (Or.inl (hstored tag ht))) h
      refine ⟨hnodup', hgone, fun tag => ?_, fun other tag => ?_⟩
      · rw [hleft, List.mem_cons]
        constructor
        · rintro ⟨honly, htag⟩
          exact ⟨honly, fun hc => hc.elim (fun heq => hmem (heq ▸ honly)) htag⟩
        · rintro ⟨honly, htag⟩
          exact ⟨honly, fun hc => htag (Or.inr hc)⟩
      · rw [hpairs, addTag_mem hadded, List.mem_cons, Prod.mk.injEq]
        tauto

theorem removeTags_mem {gone : List String} {s s' : State}
    (h : each gone (fun tag => do
      modify fun db => { db with ruleTags := db.ruleTags.filter fun pair => pair ≠ (ruleId, tag) }
      if tag = autoackTag then removeAutoacksForRule ruleId) s = (.ok (), s')) :
    s'.db.ruleTags = s.db.ruleTags.filter fun pair => !(pair.1 = ruleId && gone.contains pair.2) := by
  induction gone generalizing s with
  | nil =>
    obtain ⟨-, rfl⟩ := Prod.mk.inj h
    simp
  | cons first gone ih =>
    rw [each_cons, run_bind_eq_ok] at h
    obtain ⟨_, t, hremoved, h⟩ := h
    have ht : t.db.ruleTags = s.db.ruleTags.filter fun pair => pair ≠ (ruleId, first) := by
      rw [modify, write_bind] at hremoved
      split at hremoved
      · obtain ⟨-, rfl⟩ := Prod.mk.inj hremoved
        rfl
      · obtain ⟨-, rfl⟩ := Prod.mk.inj hremoved
        rfl
    rw [ih h, ht, List.filter_filter]
    refine List.filter_congr fun pair _ => ?_
    obtain ⟨other, tag⟩ := pair
    by_cases ho : other = ruleId <;> by_cases htag : tag = first <;> simp [ho, htag]

theorem importTags_mem {row : ContentRow} {s s' : State} (hnodup : s.db.ruleTags.Nodup)
    (h : importTags env accounts row s = (.ok (), s')) :
    s'.db.ruleTags.Nodup ∧ ∀ other tag,
      (other, tag) ∈ s'.db.ruleTags ↔ if other = row.ruleId then tag ∈ row.tags else (other, tag) ∈ s.db.ruleTags := by
  rw [importTags, read_bind, run_bind_eq_ok] at h
  obtain ⟨gone, t, hadded, h⟩ := h
  have hmem : ∀ tag, tag ∈ (s.db.ruleTags.filter fun pair => pair.1 = row.ruleId).map Prod.snd ↔
      (row.ruleId, tag) ∈ s.db.ruleTags := by
    intro tag
    simp [List.mem_map, List.mem_filter]
  have honly : ((s.db.ruleTags.filter fun pair => pair.1 = row.ruleId).map Prod.snd).Nodup := by
    refine (hnodup.filter _).map_on fun pair hpair pair' hpair' heq => ?_
    have hfst : pair.1 = row.ruleId := by simpa using (List.mem_filter.mp hpair).2
    have hfst' : pair'.1 = row.ruleId := by simpa using (List.mem_filter.mp hpair').2
    exact Prod.ext (hfst.trans hfst'.symm) heq
  obtain ⟨hnodup', -, hgone, hpairs⟩ := addTags_mem hnodup honly (fun tag ht => (hmem tag).mp ht) hadded
  rw [removeTags_mem h]
  refine ⟨hnodup'.filter _, fun other tag => ?_⟩
  simp only [List.mem_filter, hpairs, Bool.not_eq_true', Bool.and_eq_false_iff, decide_eq_false_iff_not, List.contains_eq_mem,
    hgone, hmem]
  by_cases ho : other = row.ruleId
  · subst ho
    simp
    tauto
  · simp [ho]

def writtenDate (env : Environment) (row : ContentRow) : Option Instant :=
  match row.publishDate with
  | some (.json (.str "null")) => none
  | some (.json (.str "")) => none
  | some (.json (.str text)) => dateFormats.findSome? fun format => env.strptime text format
  | _ => none

def saysActive (row : ContentRow) : Bool := ((row.get? "status").getD .null).eq (.str "active")

def enhances (row : ContentRow) : Bool :=
  match (row.get? "notif_action").getD .null with
  | .str text => "enhance".toList.isPrefixOf text.toLower.toList
  | _ => false

theorem updatePublishDate_of_written {row : ContentRow} {date : Instant} (h : writtenDate env row = some date)
    (stored : Option Instant) :
    (row.publishDateItem >>= updatePublishDate env stored) = .ok (laterDate stored date) := by
  unfold writtenDate at h
  unfold ContentRow.publishDateItem
  split at h
  case h_1 => cases h
  case h_2 => cases h
  case h_3 text hnull hempty hpublish =>
    rw [hpublish]
    change updatePublishDate env stored (.json (.str text)) = _
    rw [updatePublishDate, h]
    · exact hnull
    · exact hempty
  case h_4 => cases h

theorem enhances_of_not_truthy {row : ContentRow} (h : ¬((row.get? "notif_action").getD .null).truthy = true) :
    enhances row = false := by
  unfold enhances
  cases hvalue : (row.get? "notif_action").getD .null with
  | str text =>
    have hempty : text = "" := by simpa [hvalue, Json.truthy] using h
    rw [hempty]
    decide +kernel
  | _ => rfl

variable (settings) in
/-- What becomes of a date when its rule is found inactive, or not. -/
def dateOnceActive (row : ContentRow) (inactive : Bool) (date : Option Instant) : Option Instant :=
  if inactive && saysActive row && enhances row then laterDate date settings.now else date

theorem notifAction_date {row : ContentRow} {stored : Rule} {date date' : Option Instant} {s s' : State}
    (h : notifAction settings row stored date s = (.ok date', s')) :
    date' = dateOnceActive settings row (!stored.active) date := by
  unfold notifAction at h
  unfold dateOnceActive
  split at h
  case isFalse hfalse =>
    obtain ⟨hdate, -⟩ := Prod.mk.inj h
    rw [enhances_of_not_truthy hfalse, Bool.and_false]
    exact (Except.ok.inj hdate).symm
  case isTrue =>
    cases hvalue : (row.get? "notif_action").getD .null with
    | str text =>
      have henhances : enhances row = "enhance".toList.isPrefixOf text.toLower.toList := by rw [enhances, hvalue]
      rw [hvalue] at h
      simp only [handleNotifAction, run_bind_eq_ok, run_lift_eq_ok] at h
      obtain ⟨status, _, ⟨hitem, rfl⟩, h⟩ := h
      have hstatus : saysActive row = status.eq (.str "active") := by
        rw [saysActive, item_eq_ok.mp hitem, Option.getD_some]
      rw [henhances, hstatus]
      split at h
      case isTrue hdown =>
        have hactive : stored.active = true := (Bool.and_eq_true _ _ ▸ hdown).1
        have hdate : date' = date := by
          split at h
          · exact (Except.ok.inj (Prod.mk.inj h).1).symm
          · exact (Except.ok.inj (Prod.mk.inj h).1).symm
        simp [hactive, hdate]
      case isFalse =>
        split at h
        · rename_i hnow
          rw [if_pos hnow]
          exact (Except.ok.inj (Prod.mk.inj h).1).symm
        · rename_i hnow
          rw [if_neg hnow]
          exact (Except.ok.inj (Prod.mk.inj h).1).symm
    | _ =>
      rw [hvalue] at h
      cases h

def flagAndDate (db : Database) (ruleId : String) : Option (Bool × Option Instant) :=
  (db.rules.find? fun rule => rule.ruleId = ruleId).map fun rule => (rule.active, rule.publishDate)

def flagsAndDates (db : Database) : List (String × Bool × Option Instant) :=
  db.rules.map fun rule => (rule.ruleId, rule.active, rule.publishDate)

theorem flagAndDate_congr {db db' : Database} (h : flagsAndDates db' = flagsAndDates db) (ruleId : String) :
    flagAndDate db' ruleId = flagAndDate db ruleId := by
  have hfind : ∀ db : Database, flagAndDate db ruleId =
      ((flagsAndDates db).find? fun e => e.1 = ruleId).map Prod.snd := by
    intro db
    rw [flagsAndDates, List.find?_map, Option.map_map]
    rfl
  rw [hfind, h, hfind]

theorem flagAndDate_of_apart {s s' : State} (h : Apart ruleId s s') : flagAndDate s'.db ruleId = flagAndDate s.db ruleId := by
  rw [flagAndDate, ← List.head?_filter, h.rules, List.head?_filter]
  rfl

theorem flagAndDate_of_mem {db : Database} (h : RuleIdsUnique db) {rule : Rule} (hm : rule ∈ db.rules) :
    flagAndDate db rule.ruleId = some (rule.active, rule.publishDate) := by
  unfold flagAndDate
  cases hfind : db.rules.find? fun other => other.ruleId = rule.ruleId with
  | none => simpa using List.find?_eq_none.mp hfind rule hm
  | some found =>
    have hid : found.ruleId = rule.ruleId := by simpa using List.find?_some hfind
    rw [List.inj_on_of_nodup_map h (List.mem_of_find?_eq_some hfind) hm hid]
    rfl

theorem flagAndDate_of_not_mem {db : Database} (h : ∀ rule ∈ db.rules, rule.ruleId ≠ ruleId) :
    flagAndDate db ruleId = none := by
  rw [flagAndDate, List.find?_eq_none.mpr fun rule hrule => by simpa using h rule hrule]
  rfl

theorem updatedRule_date {db : Database} {row : ContentRow} {stored rule : Rule} {date : Option Instant}
    (h : updatedRule env settings db row stored date = .ok rule) : rule.publishDate = date := by
  simp only [updatedRule, bind_eq_ok] at h
  obtain ⟨_, -, _, -, _, -, _, -, _, -, _, -, _, -, _, -, _, -, hsave⟩ := h
  exact (save_ok hsave).publishDate

variable (settings) in
/-- The date of a rule once a row with a date has been imported. -/
def dateAfter (row : ContentRow) (before : Option (Bool × Option Instant)) (date : Instant) : Option Instant :=
  dateOnceActive settings row (before.map Prod.fst = some false) (laterDate (before.bind Prod.snd) date)

theorem importRule_date {ruleset : String} {row : ContentRow} {date : Instant} {s s' : State}
    (hunique : RuleIdsUnique s.db) (hdate : writtenDate env row = some date)
    (h : importRule env settings ruleset row s = (.ok (), s')) :
    (flagAndDate s'.db row.ruleId).map Prod.snd = some (dateAfter settings row (flagAndDate s.db row.ruleId) date) := by
  have hunique' := (importRule_turns hunique h).unique
  rw [importRule, read_bind] at h
  cases hfind : s.db.rules.find? fun rule => rule.ruleset = ruleset && rule.ruleId = row.ruleId with
  | some stored =>
    have hmem := List.mem_of_find?_eq_some hfind
    have hid : stored.ruleId = row.ruleId := by
      have hfound := List.find?_some hfind
      simp only [Bool.and_eq_true, decide_eq_true_eq] at hfound
      exact hfound.2
    rw [hfind] at h
    simp only [run_bind_eq_ok, run_lift_eq_ok] at h
    obtain ⟨_, _, ⟨hwritten, rfl⟩, date', _, hnotif, rule, u, ⟨hrule, rfl⟩, h⟩ := h
    rw [updatePublishDate_of_written hdate] at hwritten
    obtain rfl := Except.ok.inj hwritten
    rw [modify, write, Prod.mk.injEq] at h
    obtain ⟨-, rfl⟩ := h
    have hruleId := (updatedRule_ok hrule).ruleId
    have hmem' : rule ∈ replaceRule rule u.db.rules := by
      rw [(notifAction_announced hnotif).1]
      exact mem_replaceRule hmem (hid.trans hruleId.symm)
    have hafter := flagAndDate_of_mem hunique' hmem'
    have hbefore := flagAndDate_of_mem hunique hmem
    rw [hruleId] at hafter
    rw [hid] at hbefore
    rw [hafter, hbefore, Option.map_some, updatedRule_date hrule, notifAction_date hnotif, dateAfter]
    simp
  | none =>
    rw [hfind] at h
    simp only [run_bind_eq_ok, run_lift_eq_ok] at h
    obtain ⟨rule, _, ⟨hrule, rfl⟩, rules, u, ⟨hchecked, rfl⟩, h⟩ := h
    obtain ⟨hnodup, rfl⟩ := checkUnique_eq_ok.mp hchecked
    rw [modify, write, Prod.mk.injEq] at h
    obtain ⟨-, rfl⟩ := h
    have hfields := newRule_ok hrule
    have hnew := ruleId_ne_of_added hnodup
    rw [hfields.ruleId] at hnew
    have hafter := flagAndDate_of_mem hunique' (show rule ∈ u.db.rules ++ [rule] by simp)
    have hpublish := hfields.publishDate
    rw [updatePublishDate_of_written hdate] at hpublish
    rw [hfields.ruleId] at hafter
    rw [hafter, flagAndDate_of_not_mem hnew, Option.map_some, ← Except.ok.inj hpublish]
    simp [dateAfter, dateOnceActive]

theorem setPathway_flags (row : ContentRow) : Keeps (Unchanged flagsAndDates) (setPathway env row) := by
  unfold setPathway
  refine Keeps.bind (Keeps.read _) fun db => Keeps.bind (Keeps.lift _) fun pathway => Keeps.write fun s => ?_
  rw [Unchanged, flagsAndDates, List.map_map, flagsAndDates]
  refine List.map_congr_left fun rule _ => ?_
  rw [Function.comp_apply]
  split <;> rfl

variable (env settings) in
/-- What a row leaves behind, of its own rule and of the others. -/
structure RowImported (row : ContentRow) (s s' : State) : Prop where
  systemTypes : s'.db.systemTypes = s.db.systemTypes
  unique : RuleIdsUnique s'.db
  present : row.ruleId ∈ s'.db.rules.map Rule.ruleId
  others : ∀ ruleId, ruleId ≠ row.ruleId → Apart ruleId s s'
  active : (flagAndDate s'.db row.ruleId).map Prod.fst = some (activates settings row)
  date : ∀ date, writtenDate env row = some date →
    (flagAndDate s'.db row.ruleId).map Prod.snd = some (dateAfter settings row (flagAndDate s.db row.ruleId) date)
  tagsUnique : s'.db.ruleTags.Nodup
  tags : ∀ ruleId tag,
    (ruleId, tag) ∈ s'.db.ruleTags ↔ if ruleId = row.ruleId then tag ∈ row.tags else (ruleId, tag) ∈ s.db.ruleTags
  resolves : Resolves env row s s'

def resolutionTables (db : Database) : List SystemType × List Resolution × List Playbook :=
  (db.systemTypes, db.resolutions, db.playbooks)

theorem Resolves.congr {row : ContentRow} {s t u s' : State} (h : Resolves env row t u)
    (hbefore : Unchanged resolutionTables s t) (hafter : Unchanged resolutionTables u s') : Resolves env row s s' := by
  simp only [Unchanged, resolutionTables, Prod.mk.injEq] at hbefore hafter
  have hkey : resolutionKey env t.db row = resolutionKey env s.db row := resolutionKey_congr hbefore.1 row
  have hcount : ∀ {db db' : Database}, db'.playbooks = db.playbooks → countOf db' = countOf db := by
    intro db db' heq
    funext key type
    rw [countOf, heq, countOf]
  obtain ⟨hunique, hapart, hown⟩ := h
  rw [ResolutionsUnique, ← hafter.2.1] at hunique
  rw [hkey, hbefore.2.1, ← hafter.2.1, hcount hbefore.2.2, ← hcount hafter.2.2] at hapart
  rw [hkey, ← hafter.2.1, hcount hbefore.2.2, ← hcount hafter.2.2] at hown
  exact ⟨hunique, hapart, hown⟩

theorem active_of_turns {row : ContentRow} {s s' : State} (h : Turns settings row s s') :
    (flagAndDate s'.db row.ruleId).map Prod.fst = some (activates settings row) := by
  obtain ⟨rule, hrule, hid⟩ := List.mem_map.mp h.present
  have hactive := h.active
  rw [← hid] at hactive ⊢
  rw [isActive_of_mem h.unique hrule] at hactive
  rw [flagAndDate_of_mem h.unique hrule, ← hactive]
  rfl

theorem importRow_imported {rulesets : Dict String RuleSet} {row : ContentRow} {ruleset : String} {s s' : State}
    (hto : importedTo rulesets row = some ruleset) (hcomplete : Complete row) (hunique : RuleIdsUnique s.db)
    (htags : s.db.ruleTags.Nodup) (hresolutions : ResolutionsUnique s.db)
    (h : importRow env settings rulesets accounts row s = (.ok (), s')) : RowImported env settings row s s' := by
  have hturns := importRow_turns hto hunique h
  have hbeside := (importRow_beside rulesets accounts row).of_eq h
  rw [importRow_of_some hto, run_bind_eq_ok] at h
  obtain ⟨_, t, hrule, h⟩ := h
  rw [run_bind_eq_ok] at h
  obtain ⟨_, u, hresolution, h⟩ := h
  rw [run_bind_eq_ok] at h
  obtain ⟨_, v, hpathway, htagged⟩ := h
  have hflags : flagsAndDates s'.db = flagsAndDates t.db := by
    have hu : Unchanged flagsAndDates t u := (importResolution_unchanged (fun _ _ _ => rfl) row).of_eq hresolution
    have hv : Unchanged flagsAndDates u v := (setPathway_flags row).of_eq hpathway
    have hs : Unchanged flagsAndDates v s' := (importTags_unchanged (fun _ _ => rfl) (fun _ _ _ => rfl) row).of_eq htagged
    exact hs.trans (hv.trans hu)
  have hruleTags : v.db.ruleTags = s.db.ruleTags := by
    have ht : Unchanged Database.ruleTags s t := (importRule_unchanged (fun _ _ => rfl) ruleset row).of_eq hrule
    have hu : Unchanged Database.ruleTags t u := (importResolution_unchanged (fun _ _ _ => rfl) row).of_eq hresolution
    have hv : Unchanged Database.ruleTags u v := (setPathway_unchanged (fun _ _ => rfl) row).of_eq hpathway
    exact hv.trans (hu.trans ht)
  have hbefore : Unchanged resolutionTables s t := (importRule_unchanged (fun _ _ => rfl) ruleset row).of_eq hrule
  have hafter : Unchanged resolutionTables u s' := by
    have hv : Unchanged resolutionTables u v := (setPathway_unchanged (fun _ _ => rfl) row).of_eq hpathway
    exact Eq.trans ((importTags_unchanged (fun _ _ => rfl) (fun _ _ _ => rfl) row).of_eq htagged) hv
  have hsystem : Unchanged Database.systemTypes t u :=
    (importResolution_unchanged (fun _ _ _ => rfl) row).of_eq hresolution
  have hresolutions' : ResolutionsUnique t.db := by
    rw [ResolutionsUnique, show t.db.resolutions = s.db.resolutions from congrArg (fun x => x.2.1) hbefore]
    exact hresolutions
  rw [← hruleTags] at htags
  obtain ⟨htagsUnique, hpairs⟩ := importTags_mem htags htagged
  exact {
    systemTypes := (congrArg Prod.fst hafter).trans (hsystem.trans (congrArg Prod.fst hbefore))
    unique := hturns.unique
    present := hturns.present
    others := fun ruleId hne => hbeside.apart hne
    active := active_of_turns hturns
    date := by
      intro date hdate
      rw [flagAndDate_congr hflags]
      exact importRule_date hunique hdate hrule
    tagsUnique := htagsUnique
    tags := by
      intro ruleId tag
      rw [hpairs, hruleTags]
    resolves := (importResolution_resolves hcomplete hresolutions' hresolution).congr hbefore hafter }

end Advisor.Importer.Api
