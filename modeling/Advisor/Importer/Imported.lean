import Advisor.Importer.RowEffects
import Advisor.Relational.LastWritten

/-! What the database has of the content once an import has finished: the rules of the content, each with the tags of
its last row and the latest of its dates, and the resolutions with the playbooks that their last rows list. -/

namespace Advisor.Importer.Api

open Python Procedure Django Relational

variable {env : Environment} {settings : Settings} {accounts : List (Option String × String)} {ruleId : String}
  {content : List ContentRow}

/-- What the constraints of the tables promise: unique rules, resolutions and tags of a rule, and rules of rulesets. -/
structure Sound (db : Database) : Prop where
  rules : RuleIdsUnique db
  tags : db.ruleTags.Nodup
  resolutions : ResolutionsUnique db
  rulesets : ∀ rule ∈ db.rules, ∃ ruleset ∈ db.rulesets, ruleset.ruleSource = rule.ruleset

variable (settings) in
def activeBefore (db : Database) (rows : List ContentRow) (ruleId : String) : Option Bool :=
  lastWritten (fun row => if row.ruleId = ruleId then some (some (activates settings row)) else none)
    ((flagAndDate db ruleId).map Prod.fst) rows

def typesBefore (env : Environment) (db : Database) (rows : List ContentRow) (key : String × SystemType) : List String :=
  lastWritten (fun row => if resolutionKey env db row = some key then some (listed row) else none)
    ((db.playbooks.filter fun row => row.resolution = key).map fun row => row.type.1) rows

variable (settings) in
/-- A row of the rule finds it inactive, names an enhancement and has the property. -/
def Enhanced (p : ContentRow → Bool) (db : Database) (content : List ContentRow) (ruleId : String) : Prop :=
  ∃ pre row post, content = pre ++ row :: post ∧
    row.ruleId = ruleId ∧ activeBefore settings db pre ruleId = some false ∧ enhances row = true ∧ p row = true

def datesOf (env : Environment) (db : Database) (content : List ContentRow) (ruleId : String) : Set Instant :=
  { date | (∃ rule ∈ db.rules, rule.ruleId = ruleId ∧ rule.publishDate = some date) ∨
    ∃ row ∈ content, row.ruleId = ruleId ∧ writtenDate env row = some date }

def Dated (env : Environment) (content : List ContentRow) (ruleId : String) : Prop :=
  ∀ row ∈ content, row.ruleId = ruleId → (writtenDate env row).isSome

variable (settings) in
def orNow (dates : Set Instant) (now : Prop) : Set Instant := { date | date ∈ dates ∨ date = settings.now ∧ now }

def LastOfKey (env : Environment) (db : Database) (content : List ContentRow) (key : String × SystemType)
    (pre : List ContentRow) (row : ContentRow) : Prop :=
  IsLast (fun row => resolutionKey env db row = some key) content pre row

variable (env settings content) in
/-- The rules are those of the content, as their rows have them. -/
structure Imported (db db' : Database) : Prop where
  ids : ∀ ruleId, ruleId ∈ db'.rules.map Rule.ruleId ↔ ruleId ∈ content.map ContentRow.ruleId
  tags : ∀ ruleId pre row, IsLast (fun row => row.ruleId = ruleId) content pre row →
    ∀ tag, (ruleId, tag) ∈ db'.ruleTags ↔ tag ∈ row.tags
  resolutions : ∀ key pre row, LastOfKey env db content key pre row →
    ∃ resolution, (db'.resolutions.filter fun old => old.key = key) = [resolution] ∧ Carries env row resolution
  playbooks : ∀ key pre row, LastOfKey env db content key pre row →
    ∀ type, countOf db' key type = if type ∈ listed row then 1 else 0
  dates : ∀ rule ∈ db'.rules, Dated env content rule.ruleId →
    Latest (orNow settings (datesOf env db content rule.ruleId)
      (Enhanced settings (activates settings) db content rule.ruleId)) rule.publishDate

variable (env settings content) in
/-- A type of playbook that a resolution's last row lists twice was there before that row, and a rule whose rows say after
an enhancement that it is active, though none of these makes it so, has a date that is no earlier than the import. -/
structure Unequivocal (db : Database) : Prop where
  playbooks : ∀ key pre row, LastOfKey env db content key pre row →
    ∀ type, 1 < (listed row).count type → type ∈ typesBefore env db pre key
  dates : ∀ ruleId, (∃ row ∈ content, row.ruleId = ruleId) → Dated env content ruleId →
    Enhanced settings saysActive db content ruleId → ¬Enhanced settings (activates settings) db content ruleId →
      ∃ date ∈ datesOf env db content ruleId, settings.now ≤ date

variable (env settings content) in
/-- What some rows of the content have made of the database. -/
structure RowsImported (db db' : Database) : Prop where
  systemTypes : db'.systemTypes = db.systemTypes
  unique : RuleIdsUnique db'
  tagsUnique : db'.ruleTags.Nodup
  resolutionsUnique : ResolutionsUnique db'
  present : ∀ row ∈ content, row.ruleId ∈ db'.rules.map Rule.ruleId
  active : ∀ ruleId, (flagAndDate db' ruleId).map Prod.fst = activeBefore settings db content ruleId
  types : ∀ key type, 0 < countOf db' key type ↔ type ∈ typesBefore env db content key
  tags : ∀ ruleId pre row, IsLast (fun row => row.ruleId = ruleId) content pre row →
    ∀ tag, (ruleId, tag) ∈ db'.ruleTags ↔ tag ∈ row.tags
  resolutions : ∀ key pre row, LastOfKey env db content key pre row →
    ∃ resolution, (db'.resolutions.filter fun old => old.key = key) = [resolution] ∧ Carries env row resolution
  playbooks : ∀ key pre row, LastOfKey env db content key pre row → ∀ type, countOf db' key type =
    if type ∈ typesBefore env db pre key then (if type ∈ listed row then 1 else 0) else (listed row).count type
  dates : ∀ ruleId, Dated env content ruleId →
    Latest (orNow settings (datesOf env db content ruleId) (Enhanced settings saysActive db content ruleId))
      ((flagAndDate db' ruleId).bind Prod.snd)

theorem latest_stored {db : Database} (h : RuleIdsUnique db) (ruleId : String) :
    Latest { date | ∃ rule ∈ db.rules, rule.ruleId = ruleId ∧ rule.publishDate = some date }
      ((flagAndDate db ruleId).bind Prod.snd) := by
  by_cases hmem : ∃ rule ∈ db.rules, rule.ruleId = ruleId
  · obtain ⟨rule, hrule, rfl⟩ := hmem
    have hsame : { date | ∃ other ∈ db.rules, other.ruleId = rule.ruleId ∧ other.publishDate = some date } =
        { date | rule.publishDate = some date } := by
      ext date
      constructor
      · rintro ⟨other, hother, hid, hdate⟩
        rwa [List.inj_on_of_nodup_map h hother hrule hid] at hdate
      · intro hdate
        exact ⟨rule, hrule, rfl, hdate⟩
    rw [hsame, flagAndDate_of_mem h hrule, Option.bind_some]
    cases rule.publishDate with
    | none => simp [Latest]
    | some date => simp [Latest]
  · have hnone : ∀ rule ∈ db.rules, rule.ruleId ≠ ruleId := fun rule hrule hid => hmem ⟨rule, hrule, hid⟩
    rw [flagAndDate_of_not_mem hnone]
    ext date
    simp only [Set.mem_ofPred_eq, Set.mem_empty_iff_false, iff_false]
    rintro ⟨rule, hrule, hid, -⟩
    exact hnone rule hrule hid

theorem not_enhanced_nil {p : ContentRow → Bool} {db : Database} : ¬Enhanced settings p db [] ruleId := by
  rintro ⟨pre, row, post, hsplit, -⟩
  simp at hsplit

theorem rowsImported_nil {db : Database} (h : Sound db) : RowsImported env settings [] db db where
  systemTypes := rfl
  unique := h.rules
  tagsUnique := h.tags
  resolutionsUnique := h.resolutions
  present := by simp
  active ruleId := rfl
  types key type := by
    rw [← mem_storedTypes, List.mem_dedup]
    rfl
  tags ruleId pre row hlast := absurd hlast not_isLast_nil
  resolutions key pre row hlast := absurd hlast not_isLast_nil
  playbooks key pre row hlast := absurd hlast not_isLast_nil
  dates ruleId _ := by
    have hsame : orNow settings (datesOf env db [] ruleId) (Enhanced settings saysActive db [] ruleId) =
        { date | ∃ rule ∈ db.rules, rule.ruleId = ruleId ∧ rule.publishDate = some date } := by
      ext date
      simp [orNow, datesOf, not_enhanced_nil]
    rw [hsame]
    exact latest_stored h.rules ruleId

theorem laterDate_eq (stored : Option Instant) (date : Instant) :
    laterDate stored date = some ((stored.map (max date)).getD date) := by
  cases stored with
  | none => rfl
  | some old =>
    rw [laterDate, Option.map_some, Option.getD_some]
    split
    · rw [max_eq_right ‹_›]
    · rw [max_eq_left (le_of_lt (not_le.mp ‹_›))]

theorem latest_laterDate {dates : Set Instant} {stored : Option Instant} (h : Latest dates stored) (date : Instant) :
    Latest (insert date dates) (laterDate stored date) := by
  rw [laterDate_eq]
  exact h.insert_max date

theorem orNow_insert (dates : Set Instant) (date : Instant) (now : Prop) :
    orNow settings (insert date dates) now = insert date (orNow settings dates now) := by
  ext other
  simp only [orNow, Set.mem_ofPred_eq, Set.mem_insert_iff]
  tauto

theorem orNow_or (dates : Set Instant) {now now' : Prop} (h : now') :
    orNow settings dates (now ∨ now') = insert settings.now (orNow settings dates now) := by
  ext other
  simp only [orNow, Set.mem_ofPred_eq, Set.mem_insert_iff]
  tauto

theorem activeBefore_concat (db : Database) (rows : List ContentRow) (row : ContentRow) :
    activeBefore settings db (rows ++ [row]) ruleId =
      if row.ruleId = ruleId then some (activates settings row) else activeBefore settings db rows ruleId := by
  rw [activeBefore, lastWritten_concat]
  split
  · rfl
  · rfl

theorem typesBefore_concat (db : Database) (rows : List ContentRow) (row : ContentRow) (key : String × SystemType) :
    typesBefore env db (rows ++ [row]) key =
      if resolutionKey env db row = some key then listed row else typesBefore env db rows key := by
  rw [typesBefore, lastWritten_concat]
  split
  · rfl
  · rfl

theorem enhanced_concat {p : ContentRow → Bool} {db : Database} {rows : List ContentRow} {row : ContentRow} :
    Enhanced settings p db (rows ++ [row]) ruleId ↔ Enhanced settings p db rows ruleId ∨
      row.ruleId = ruleId ∧ activeBefore settings db rows ruleId = some false ∧ enhances row = true ∧ p row = true :=
  @exists_split_concat _ (fun (pre : List ContentRow) (row : ContentRow) => row.ruleId = ruleId ∧ activeBefore settings db pre ruleId = some false ∧
    enhances row = true ∧ p row = true) rows row

theorem countAfter_pos {before : Nat} {types : List String} {type : String} :
    0 < countAfter before types type ↔ type ∈ types := by
  unfold countAfter
  split
  · split
    · simp [*]
    · simp [*]
  · exact List.count_pos_iff

theorem datesOf_concat_of_ne (db : Database) (rows : List ContentRow) {row : ContentRow} (h : row.ruleId ≠ ruleId) :
    datesOf env db (rows ++ [row]) ruleId = datesOf env db rows ruleId := by
  ext date
  simp only [datesOf, Set.mem_ofPred_eq, List.mem_append, List.mem_singleton]
  constructor
  · rintro (hstored | ⟨other, hother | rfl, hid, hdate⟩)
    · exact Or.inl hstored
    · exact Or.inr ⟨other, hother, hid, hdate⟩
    · exact absurd hid h
  · rintro (hstored | ⟨other, hother, hid, hdate⟩)
    · exact Or.inl hstored
    · exact Or.inr ⟨other, Or.inl hother, hid, hdate⟩

theorem datesOf_concat (db : Database) (rows : List ContentRow) {row : ContentRow} {date : Instant}
    (h : writtenDate env row = some date) :
    datesOf env db (rows ++ [row]) row.ruleId = insert date (datesOf env db rows row.ruleId) := by
  ext other
  simp only [datesOf, Set.mem_ofPred_eq, List.mem_append, List.mem_singleton, Set.mem_insert_iff]
  constructor
  · rintro (hstored | ⟨row', hrow' | rfl, hid, hdate⟩)
    · exact Or.inr (Or.inl hstored)
    · exact Or.inr (Or.inr ⟨row', hrow', hid, hdate⟩)
    · exact Or.inl (Option.some.inj (hdate.symm.trans h))
  · rintro (rfl | hstored | ⟨row', hrow', hid, hdate⟩)
    · exact Or.inr ⟨row, Or.inr rfl, rfl, h⟩
    · exact Or.inl hstored
    · exact Or.inr ⟨row', Or.inl hrow', hid, hdate⟩

theorem latest_concat {db : Database} {rows : List ContentRow} {row : ContentRow} {t s' : State}
    (h : RowsImported env settings rows db t.db) (hrow : RowImported env settings row t s')
    (hdated : Dated env (rows ++ [row]) ruleId) :
    Latest (orNow settings (datesOf env db (rows ++ [row]) ruleId) (Enhanced settings saysActive db (rows ++ [row]) ruleId))
      ((flagAndDate s'.db ruleId).bind Prod.snd) := by
  have hbefore := h.dates ruleId fun row hr => hdated row (by simp [hr])
  rw [enhanced_concat]
  by_cases hid : row.ruleId = ruleId
  · subst hid
    obtain ⟨date, hdate⟩ := Option.isSome_iff_exists.mp (hdated row (by simp) rfl)
    have hafter : (flagAndDate s'.db row.ruleId).bind Prod.snd = dateAfter settings row (flagAndDate t.db row.ruleId) date := by
      obtain ⟨e, he, hsnd⟩ := Option.map_eq_some_iff.mp (hrow.date date hdate)
      rw [he, Option.bind_some, hsnd]
    have hlater := latest_laterDate hbefore date
    rw [hafter, dateAfter, dateOnceActive, h.active, datesOf_concat db rows hdate, orNow_insert]
    by_cases hnow : activeBefore settings db rows row.ruleId = some false ∧ enhances row = true ∧ saysActive row = true
    · rw [if_pos (by simp [hnow]), orNow_or _ ⟨rfl, hnow⟩, Set.insert_comm]
      exact latest_laterDate hlater settings.now
    · rw [if_neg (by simpa using fun hinactive hsays henhances => hnow ⟨hinactive, henhances, hsays⟩), or_iff_left fun hc => hnow hc.2]
      exact hlater
  · rw [or_iff_left fun hc => hid hc.1, datesOf_concat_of_ne db rows hid, flagAndDate_of_apart (hrow.others ruleId (Ne.symm hid))]
    exact hbefore

theorem rowsImported_concat {db : Database} {rows : List ContentRow} {row : ContentRow} {t s' : State}
    (h : RowsImported env settings rows db t.db) (hrow : RowImported env settings row t s') :
    RowsImported env settings (rows ++ [row]) db s'.db := by
  have hkey : resolutionKey env t.db row = resolutionKey env db row := resolutionKey_congr h.systemTypes row
  obtain ⟨hresolutionsUnique, hapart, hown⟩ := hrow.resolves
  rw [hkey] at hapart hown
  exact {
    systemTypes := hrow.systemTypes.trans h.systemTypes
    unique := hrow.unique
    tagsUnique := hrow.tagsUnique
    resolutionsUnique := hresolutionsUnique
    present := by
      intro other hother
      by_cases hid : other.ruleId = row.ruleId
      · rw [hid]
        exact hrow.present
      · rcases List.mem_append.mp hother with hm | hm
        · exact (hrow.others other.ruleId hid).present (h.present other hm)
        · exact absurd (congrArg ContentRow.ruleId (List.mem_singleton.mp hm)) hid
    active := by
      intro ruleId
      rw [activeBefore_concat]
      by_cases hid : row.ruleId = ruleId
      · subst hid
        rw [if_pos rfl, hrow.active]
      · rw [if_neg hid, flagAndDate_of_apart (hrow.others ruleId (Ne.symm hid)), h.active]
    types := by
      intro key type
      rw [typesBefore_concat]
      by_cases hrowKey : resolutionKey env db row = some key
      · rw [if_pos hrowKey, (hown key hrowKey).2, countAfter_pos]
      · rw [if_neg hrowKey, (hapart key hrowKey).2, h.types]
    tags := by
      intro ruleId pre last hlast tag
      rw [hrow.tags]
      rcases hlast.of_concat with ⟨-, rfl⟩ | ⟨hid, hlast⟩
      · rw [if_pos (Eq.symm hlast.prop)]
      · rw [if_neg (Ne.symm hid), h.tags ruleId pre last hlast]
    resolutions := by
      intro key pre last hlast
      rcases hlast.of_concat with ⟨-, rfl⟩ | ⟨hrowKey, hlast⟩
      · exact (hown key hlast.prop).1
      · rw [(hapart key hrowKey).1]
        exact h.resolutions key pre last hlast
    playbooks := by
      intro key pre last hlast type
      rcases hlast.of_concat with ⟨rfl, rfl⟩ | ⟨hrowKey, hlast⟩
      · rw [(hown key hlast.prop).2, countAfter]
        simp only [h.types]
      · rw [(hapart key hrowKey).2, h.playbooks key pre last hlast]
    dates := fun ruleId hdated => latest_concat h hrow hdated }

theorem importRows_imported {rulesets : Dict String RuleSet} {s s' : State} (hsound : Sound s.db)
    (hcomplete : ∀ row ∈ content, Complete row) (hknown : ∀ row ∈ content, (importedTo rulesets row).isSome)
    (h : each content (importRow env settings rulesets accounts) s = (.ok (), s')) :
    RowsImported env settings content s.db s'.db := by
  induction content using List.reverseRecOn generalizing s' with
  | nil =>
    obtain ⟨-, rfl⟩ := Prod.mk.inj h
    exact rowsImported_nil hsound
  | append_singleton rows row ih =>
    rw [each_append, run_bind_eq_ok] at h
    obtain ⟨_, t, hrows, h⟩ := h
    rw [each_cons, run_bind_eq_ok] at h
    obtain ⟨_, u, hrow, h⟩ := h
    obtain ⟨-, rfl⟩ := Prod.mk.inj h
    have hbefore := ih (fun other hother => hcomplete other (by simp [hother]))
      (fun other hother => hknown other (by simp [hother])) hrows
    obtain ⟨ruleset, hto⟩ := Option.isSome_iff_exists.mp (hknown row (by simp))
    exact rowsImported_concat hbefore (importRow_imported hto (hcomplete row (by simp)) hbefore.unique hbefore.tagsUnique
      hbefore.resolutionsUnique hrow)

theorem deleteExtraRules_of_mem (db : Database) (hnamed : ∀ row ∈ content, row.ruleId ≠ "")
    (hmem : ∃ row ∈ content, row.ruleId = ruleId) :
    (∀ tag, (ruleId, tag) ∈ (deleteExtraRules content db).ruleTags ↔ (ruleId, tag) ∈ db.ruleTags) ∧
      ∀ systemType, ((deleteExtraRules content db).resolutions.filter fun old => old.key = (ruleId, systemType)) =
          (db.resolutions.filter fun old => old.key = (ruleId, systemType)) ∧
        ∀ type, countOf (deleteExtraRules content db) (ruleId, systemType) type = countOf db (ruleId, systemType) type := by
  obtain ⟨row, hrow, rfl⟩ := hmem
  have hstays : row.ruleId ≠ "" ∧ ∃ other ∈ content, other.ruleId = row.ruleId := ⟨hnamed row hrow, row, hrow, rfl⟩
  refine ⟨fun tag => by simp [deleteExtraRules, hstays], fun systemType => ⟨?_, fun type => ?_⟩⟩
  · rw [deleteExtraRules, List.filter_filter]
    refine List.filter_congr fun old _ => ?_
    by_cases hkey : old.key = (row.ruleId, systemType)
    · have hid : old.rule = row.ruleId := congrArg Prod.fst hkey
      simp [hkey, hid, hstays]
    · simp [hkey]
  · rw [countOf, deleteExtraRules, List.countP_filter, countOf]
    refine List.countP_congr fun old _ => ?_
    by_cases hkey : old.resolution = (row.ruleId, systemType)
    · simp [hkey, hstays]
    · simp [hkey]

theorem orNow_pos (dates : Set Instant) {now : Prop} (h : now) : orNow settings dates now = insert settings.now dates := by
  ext other
  simp only [orNow, Set.mem_ofPred_eq, Set.mem_insert_iff]
  tauto

theorem orNow_neg (dates : Set Instant) {now : Prop} (h : ¬now) : orNow settings dates now = dates := by
  ext other
  simp only [orNow, Set.mem_ofPred_eq]
  tauto

theorem Enhanced.says {db : Database} (h : Enhanced settings (activates settings) db content ruleId) :
    Enhanced settings saysActive db content ruleId := by
  obtain ⟨pre, row, post, hsplit, hid, hbefore, henhances, hactivates⟩ := h
  refine ⟨pre, row, post, hsplit, hid, hbefore, henhances, ?_⟩
  unfold activates activeOf at hactivates
  split at hactivates
  case h_1 active hactive =>
    split at hactive
    · cases hactive
      cases hactivates
    · obtain ⟨status, hstatus, rfl⟩ := map_eq_ok.mp hactive
      rw [saysActive, item_eq_ok.mp hstatus]
      exact hactivates
  case h_2 => cases hactivates

/-- The date that a rule has is the latest one exactly if the time of the import is only taken where it may be. -/
theorem latest_iff {db u : Database} (h : RowsImported env settings content db u) (hdated : Dated env content ruleId) :
    Latest (orNow settings (datesOf env db content ruleId) (Enhanced settings (activates settings) db content ruleId))
        ((flagAndDate u ruleId).bind Prod.snd) ↔
      (Enhanced settings saysActive db content ruleId → ¬Enhanced settings (activates settings) db content ruleId →
        ∃ date ∈ datesOf env db content ruleId, settings.now ≤ date) := by
  have hlatest := h.dates ruleId hdated
  by_cases hactivated : Enhanced settings (activates settings) db content ruleId
  · rw [orNow_pos _ hactivated.says] at hlatest
    rw [orNow_pos _ hactivated]
    exact iff_of_true hlatest fun _ hno => absurd hactivated hno
  · rw [orNow_neg _ hactivated]
    by_cases hsays : Enhanced settings saysActive db content ruleId
    · rw [orNow_pos _ hsays] at hlatest
      rw [latest_insert_iff hlatest]
      exact ⟨fun hdate _ _ => hdate, fun hdate => hdate hsays hactivated⟩
    · rw [orNow_neg _ hsays] at hlatest
      exact iff_of_true hlatest fun hc => absurd hc hsays

theorem counts_iff {before types : List String} :
    (∀ type, (if type ∈ before then (if type ∈ types then 1 else 0) else types.count type) =
      if type ∈ types then 1 else 0) ↔ ∀ type, 1 < types.count type → type ∈ before := by
  refine forall_congr' fun type => ?_
  by_cases hbefore : type ∈ before
  · simp [hbefore]
  · have hcount : 0 < types.count type ↔ type ∈ types := List.count_pos_iff
    rw [if_neg hbefore]
    by_cases hlisted : type ∈ types
    · have hpos := hcount.mpr hlisted
      simp only [hlisted, if_true, hbefore, imp_false]
      omega
    · have hzero := List.count_eq_zero.mpr hlisted
      simp [hlisted, hzero]

theorem mem_rules_iff {db u : Database} (h : RowsImported env settings content db u)
    (hnamed : ∀ row ∈ content, row.ruleId ≠ "") : ruleId ∈ (deleteExtraRules content u).rules.map Rule.ruleId ↔
      ruleId ∈ content.map ContentRow.ruleId := by
  constructor
  · intro hmem
    obtain ⟨rule, hrule, rfl⟩ := List.mem_map.mp hmem
    obtain ⟨-, -, row, hrow, hid⟩ := Import.mem_deleteExtraRules.mp hrule
    exact List.mem_map.mpr ⟨row, hrow, hid⟩
  · intro hmem
    obtain ⟨row, hrow, rfl⟩ := List.mem_map.mp hmem
    obtain ⟨rule, hrule, hid⟩ := List.mem_map.mp (h.present row hrow)
    exact List.mem_map.mpr ⟨rule, Import.mem_deleteExtraRules.mpr ⟨hrule, hid ▸ hnamed row hrow, row, hrow, hid.symm⟩, hid⟩

theorem dates_iff {db u : Database} (h : RowsImported env settings content db u)
    (hnamed : ∀ row ∈ content, row.ruleId ≠ "") :
    (∀ rule ∈ (deleteExtraRules content u).rules, Dated env content rule.ruleId →
      Latest (orNow settings (datesOf env db content rule.ruleId)
        (Enhanced settings (activates settings) db content rule.ruleId)) rule.publishDate) ↔
    ∀ ruleId, (∃ row ∈ content, row.ruleId = ruleId) → Dated env content ruleId →
      Enhanced settings saysActive db content ruleId → ¬Enhanced settings (activates settings) db content ruleId →
        ∃ date ∈ datesOf env db content ruleId, settings.now ≤ date := by
  have hdate : ∀ rule ∈ u.rules, (flagAndDate u rule.ruleId).bind Prod.snd = rule.publishDate := by
    intro rule hrule
    rw [flagAndDate_of_mem h.unique hrule]
    rfl
  constructor
  · rintro hdates ruleId ⟨row, hrow, rfl⟩ hdated
    obtain ⟨rule, hrule, hid⟩ := List.mem_map.mp ((mem_rules_iff h hnamed).mpr (List.mem_map_of_mem hrow))
    have hlatest := hdates rule hrule (hid ▸ hdated)
    rw [← hdate rule (Import.mem_deleteExtraRules.mp hrule).1, hid] at hlatest
    exact (latest_iff h hdated).mp hlatest
  · intro hdates rule hrule hdated
    obtain ⟨hmem, -, hrow⟩ := Import.mem_deleteExtraRules.mp hrule
    rw [← hdate rule hmem]
    exact (latest_iff h hdated).mpr (hdates rule.ruleId hrow hdated)

theorem lastOfKey_mem {db : Database} {key : String × SystemType} {pre : List ContentRow} {row : ContentRow}
    (h : LastOfKey env db content key pre row) : ∃ row ∈ content, row.ruleId = key.1 := by
  have hkey : resolutionKey env db row = some key := h.prop
  exact ⟨row, h.mem, (resolutionKey_eq_some.mp hkey).2.2.symm⟩

theorem imported_iff_of_rows {db u : Database} (h : RowsImported env settings content db u)
    (hcomplete : ∀ row ∈ content, Complete row) :
    Imported env settings content db (deleteExtraRules content u) ↔ Unequivocal env settings content db := by
  have hnamed : ∀ row ∈ content, row.ruleId ≠ "" := fun row hrow => (hcomplete row hrow).ruleId
  have hcounts : ∀ key pre row, LastOfKey env db content key pre row → ∀ type,
      countOf (deleteExtraRules content u) key type =
        if type ∈ typesBefore env db pre key then (if type ∈ listed row then 1 else 0) else (listed row).count type := by
    intro key pre row hlast type
    rw [← h.playbooks key pre row hlast type]
    exact ((deleteExtraRules_of_mem u hnamed (lastOfKey_mem hlast)).2 key.2).2 type
  constructor
  · intro himported
    refine ⟨fun key pre row hlast => ?_, (dates_iff h hnamed).mp himported.dates⟩
    refine counts_iff.mp fun type => ?_
    rw [← hcounts key pre row hlast type]
    exact himported.playbooks key pre row hlast type
  · intro hclear
    refine ⟨fun ruleId => mem_rules_iff h hnamed, fun ruleId pre row hlast tag => ?_, fun key pre row hlast => ?_,
      fun key pre row hlast type => ?_, (dates_iff h hnamed).mpr hclear.dates⟩
    · rw [(deleteExtraRules_of_mem u hnamed ⟨row, hlast.mem, hlast.prop⟩).1]
      exact h.tags ruleId pre row hlast tag
    · have hsame := ((deleteExtraRules_of_mem u hnamed (lastOfKey_mem hlast)).2 key.2).1
      obtain ⟨resolution, hone, hcarries⟩ := h.resolutions key pre row hlast
      exact ⟨resolution, hsame.trans hone, hcarries⟩
    · rw [hcounts key pre row hlast type]
      exact counts_iff.mpr (hclear.playbooks key pre row hlast) type

/-- After an import that finishes the rules are those of its content, exactly if the content is unequivocal. -/
theorem imported_iff {s s' : State} (hsound : Sound s.db) (hcomplete : ∀ row ∈ content, Complete row)
    (hknown : ∀ row ∈ content, (importedTo (rulesetStartswith s.db) row).isSome)
    (h : updateRulesetWithContent env settings content s = (.ok (), s')) :
    Imported env settings content s.db s'.db ↔ Unequivocal env settings content s.db := by
  rcases updateRulesetWithContent_ok h with ⟨hnil, rfl⟩ | ⟨u, hrows, rfl⟩
  · have hcontent : content = [] := by
      rw [List.eq_nil_iff_forall_not_mem]
      intro row hrow
      have hto := hknown row hrow
      rw [importedTo_nil hnil] at hto
      cases hto
    have hrules : s'.db.rules = [] := by
      rw [List.eq_nil_iff_forall_not_mem]
      intro rule hrule
      obtain ⟨ruleset, hruleset, -⟩ := hsound.rulesets rule hrule
      rw [hnil] at hruleset
      cases hruleset
    subst hcontent
    have hnone : ∀ {p : ContentRow → Prop} {pre row}, ¬IsLast p [] pre row := not_isLast_nil
    refine iff_of_true ⟨?_, ?_, ?_, ?_, ?_⟩ ⟨?_, ?_⟩
    · simp [hrules]
    · exact fun _ _ _ hlast => absurd hlast hnone
    · exact fun _ _ _ hlast => absurd hlast hnone
    · exact fun _ _ _ hlast => absurd hlast hnone
    · simp [hrules]
    · exact fun _ _ _ hlast => absurd hlast hnone
    · simp
  · exact imported_iff_of_rows (importRows_imported hsound hcomplete hknown hrows) hcomplete

open Management

def fixit : Json := .dict [("version", .str "1"), ("description", .str "Restart it"), ("path", .str "fixit.yml"),
  ("play", .str "- hosts: all"), ("resolution_type", .str "fixit")]

def playbookRow (playbooks : List Json) : ContentRow :=
  { hiddenRule with items := (hiddenRule.items.filter fun e => e.1 ≠ "resolution") ++
      [("resolution", .str "Restart the service"), ("playbooks", .list playbooks)] }

def gradedState : State where
  db := { fixtures with
    impacts := [⟨"Best Practice", 1⟩]
    resolutionRisks := [⟨"Adjust Service Status", 1⟩] }
  riskCache := ["Adjust Service Status"]

def afterPlaybooks (playbooks : List Json) : Except Exception Unit × State :=
  updateRulesetWithContent plainEnvironment ⟨true, 0⟩ [playbookRow playbooks] gradedState

theorem gradedState_sound : Sound gradedState.db where
  rules := List.nodup_nil
  tags := List.nodup_nil
  resolutions := List.nodup_nil
  rulesets := by simp [gradedState, fixtures]

theorem playbookRow_complete {playbooks : List Json} (h : ∀ item ∈ playbooks, (itemType item).isSome) :
    ∀ row ∈ [playbookRow playbooks], Complete row := by
  intro row hrow
  obtain rfl := List.mem_singleton.mp hrow
  exact ⟨by simp [playbookRow, hiddenRule], fun _ => ⟨playbooks, rfl, h⟩⟩

theorem playbookRow_known (playbooks : List Json) :
    ∀ row ∈ [playbookRow playbooks], (importedTo (rulesetStartswith gradedState.db) row).isSome := by
  intro row hrow
  obtain rfl := List.mem_singleton.mp hrow
  rfl

theorem fixit_typed : (itemType fixit).isSome = true := by decide +kernel

theorem afterPlaybooks_ok {playbooks : List Json} (h : isOk (afterPlaybooks playbooks).1 = true) :
    afterPlaybooks playbooks = (.ok (), (afterPlaybooks playbooks).2) := by
  obtain ⟨_, hok⟩ := isOk_iff.mp h
  exact Prod.ext hok rfl

theorem imported_iff_one_playbook :
    Imported plainEnvironment ⟨true, 0⟩ [playbookRow [fixit]] gradedState.db (afterPlaybooks [fixit]).2.db ↔
      Unequivocal plainEnvironment ⟨true, 0⟩ [playbookRow [fixit]] gradedState.db :=
  imported_iff gradedState_sound (playbookRow_complete (by simp [fixit_typed])) (playbookRow_known _)
    (afterPlaybooks_ok (by decide +kernel))

/-- A type of playbook that is new and listed twice has two playbooks. -/
theorem playbook_twice_not_imported :
    ¬ ∀ (env : Environment) (settings : Settings) (content : List ContentRow) (s s' : State), Sound s.db →
      (∀ row ∈ content, Complete row) → (∀ row ∈ content, (importedTo (rulesetStartswith s.db) row).isSome) →
      updateRulesetWithContent env settings content s = (.ok (), s') → Imported env settings content s.db s'.db := by
  intro h
  have himported := h _ _ _ _ _ gradedState_sound (playbookRow_complete (by simp [fixit_typed])) (playbookRow_known [fixit, fixit])
    (afterPlaybooks_ok (by decide +kernel))
  have hlast : LastOfKey plainEnvironment gradedState.db [playbookRow [fixit, fixit]] ("test|Hidden", ⟨"host", "rhel"⟩) []
      (playbookRow [fixit, fixit]) := ⟨[], rfl, by decide +kernel, by simp⟩
  have hcount := himported.playbooks _ _ _ hlast "fixit"
  have htwo : countOf (afterPlaybooks [fixit, fixit]).2.db ("test|Hidden", ⟨"host", "rhel"⟩) "fixit" = 2 := by decide +kernel
  rw [htwo] at hcount
  split at hcount
  · omega
  · omega

end Advisor.Importer.Api
