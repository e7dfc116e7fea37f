import Advisor.Importer.Relations
import Mathlib.Data.List.Dedup

/-! The same import twice in a row: which stages find their work done, and what becomes of the auto-acks. -/

namespace Advisor.Importer.Management

open Python Django Relational Mapping

variable {env : Environment} {listing : Listing}

theorem level_name {name : String} {value : Json} {fields : Level} (h : level env.toLibrary name value = .ok fields) :
    fields.name = name := by
  simp only [level, bind_eq_ok, Except.ok.injEq] at h
  obtain ⟨text, htext, i, -, n, -, rfl⟩ := h
  exact charOf_str htext

theorem keyed_transformConfig {entries : List (String × Json)} {config : Dict String (Option Level)}
    (h : transformConfig env entries = .ok config) : levelMapping.Keyed config :=
  keyed_mapM h fun _ _ _ _ hf => level_name hf

theorem keyed_transformTags {config : Config} {tags : Dict String (Option String)}
    (h : transformTags env config = .ok tags) : tagMapping.Keyed tags :=
  keyed_mapM h fun _ _ _ _ hf => charOf_str hf

theorem importConfig_again {config : Config} {db db' s : Database} (h : importConfig env config db = .ok db')
    (himpacts : s.impacts = db'.impacts) (hrisks : s.resolutionRisks = db'.resolutionRisks)
    (htags : s.tags = db'.tags) : importConfig env config s = .ok s := by
  simp only [importConfig, bind_eq_ok, Except.ok.injEq] at h ⊢
  obtain ⟨impacts, hi, risks, hr, tags, ht, rfl⟩ := h
  refine ⟨impacts, hi, risks, hr, tags, ht, ?_⟩
  rw [updateModelFromConfig_again (keyed_transformConfig hi) himpacts,
    updateModelFromConfig_again (keyed_transformConfig hr) hrisks,
    updateModelFromConfig_again (keyed_transformTags ht) htags]

theorem ruleContentToModelFields_congr {config : Config} {db s : Database} (hcategories : s.categories = db.categories)
    (hpathways : s.pathways = db.pathways) (hrulesets : s.rulesets = db.rulesets) (himpacts : s.impacts = db.impacts)
    (row : ContentRow) : ruleContentToModelFields env config s row = ruleContentToModelFields env config db row := by
  simp only [ruleContentToModelFields, hcategories, hpathways, hrulesets, himpacts]

theorem keyed_rules {config : Config} {content : List ContentRow} {db : Database} {fields : Dict String (Option Rule)}
    (h : ((Dict.ofEntries (content.map fun row => (row.ruleId, row))).mapM fun _ row =>
      (ruleContentToModelFields env config db row).map some) = .ok fields) : ruleMapping.Keyed fields := by
  refine keyed_mapM h fun k row rule hm hrow => ?_
  obtain ⟨other, -, he⟩ := List.mem_map.mp (Dict.mem_of_mem_ofEntries hm)
  obtain ⟨rfl, rfl⟩ := Prod.mk.inj he
  exact (ruleContentToModelFields_ok env hrow).ruleId

theorem loadAllRules_again {config : Config} {content : List ContentRow} {db db' s : Database}
    (h : loadAllRules env config content db = .ok db') (hcategories : s.categories = db.categories)
    (hpathways : s.pathways = db.pathways) (hrulesets : s.rulesets = db.rulesets) (himpacts : s.impacts = db.impacts)
    (hrules : s.rules = db'.rules) : loadAllRules env config content s = .ok s := by
  simp only [loadAllRules, bind_eq_ok, Except.ok.injEq] at h ⊢
  obtain ⟨fields, hf, rfl⟩ := h
  refine ⟨fields, ?_, ?_⟩
  · simpa only [ruleContentToModelFields_congr hcategories hpathways hrulesets himpacts] using hf
  · rw [updateModelFromConfig_again (keyed_rules hf) hrules]

theorem ruleIdToDbId_eq_ok {db : Database} {ruleId found : String} :
    ruleIdToDbId db ruleId = .ok found ↔ found = ruleId ∧ ruleId ∈ db.rules.map Rule.ruleId := by
  by_cases h : db.rules.any (·.ruleId = ruleId)
  · have hm : ruleId ∈ db.rules.map Rule.ruleId := by simpa using h
    rw [ruleIdToDbId, if_pos h, Except.ok.injEq]
    exact ⟨fun he => ⟨he.symm, hm⟩, fun he => he.1.symm⟩
  · have hm : ruleId ∉ db.rules.map Rule.ruleId := by simpa using h
    rw [ruleIdToDbId, if_neg h]
    simp [hm]

theorem ruleIdToDbId_congr {db s : Database} (h : s.rules = db.rules) (ruleId : String) :
    ruleIdToDbId s ruleId = ruleIdToDbId db ruleId := by
  rw [ruleIdToDbId, ruleIdToDbId, h]

theorem keyed_pairs {ρ : Type} {m : Mapping String ρ (String × String)} (hm : ∀ p, m.fieldsKey p = p.1 ++ p.2)
    {db : Database} {pairs : List (String × String)} {entries : List (String × Option (String × String))}
    (h : (pairs.mapM fun pair => (ruleIdToDbId db pair.1).map fun rule => (pair.1 ++ pair.2, some (rule, pair.2))) =
      Except.ok entries) : m.Keyed (Dict.ofEntries entries) := by
  intro e he fields hf
  obtain ⟨pair, -, hpair⟩ := (mapM_mem h).mp (Dict.mem_of_mem_ofEntries he)
  obtain ⟨rule, hrule, rfl⟩ := map_eq_ok.mp hpair
  obtain ⟨rfl, -⟩ := ruleIdToDbId_eq_ok.mp hrule
  simp only [Option.some.injEq] at hf
  rw [hm, ← hf]

theorem loadAllRuleTags_again {content : List ContentRow} {db db' s : Database}
    (h : loadAllRuleTags content db = .ok db') (hrules : s.rules = db.rules) (htags : s.tags = db.tags)
    (hpairs : s.ruleTags = db'.ruleTags) : loadAllRuleTags content s = .ok s := by
  by_cases hunknown : (content.any fun row => row.tags.any fun tag => !db.tags.contains tag) = true
  · rw [loadAllRuleTags, if_pos (htags ▸ hunknown)]
  · rw [loadAllRuleTags, if_neg hunknown] at h
    rw [loadAllRuleTags, if_neg (htags ▸ hunknown)]
    simp only [bind_eq_ok, Except.ok.injEq, ruleIdToDbId_congr hrules] at h ⊢
    obtain ⟨entries, hentries, pairs, hunique, rfl⟩ := h
    obtain ⟨hnodup, hrows⟩ := checkUnique_eq_ok.mp hunique
    have hagain := updateModelFromConfig_again (keyed_pairs (fun _ => rfl) hentries) (hpairs.trans hrows)
    refine ⟨entries, hentries, s.ruleTags, checkUnique_eq_ok.mpr ?_, rfl⟩
    rw [hagain, hpairs]
    exact ⟨hrows ▸ hnodup, rfl⟩

theorem systemTypeToId_congr {db s : Database} (h : s.systemTypes = db.systemTypes) (row : ContentRow) :
    systemTypeToId s row = systemTypeToId db row := by
  rw [systemTypeToId, systemTypeToId, h]

theorem ruleToResolution_congr {db s : Database} (hrules : s.rules = db.rules) (htypes : s.systemTypes = db.systemTypes)
    (hrisks : s.resolutionRisks = db.resolutionRisks) (row : ContentRow) :
    ruleToResolution env s row = ruleToResolution env db row := by
  simp only [ruleToResolution, ruleIdToDbId_congr hrules, systemTypeToId_congr htypes, hrisks]

theorem loadAllResolutions_ok {content : List ContentRow} {db db' : Database}
    (h : loadAllResolutions env content db = .ok db') :
    ∃ entries fields, (content.mapM fun row => do
        .ok ((← ruleIdToDbId db row.ruleId, ← systemTypeToId db row), row)) = Except.ok entries ∧
      ((Dict.ofEntries entries).mapM fun _ row => (ruleToResolution env db row).map some) = .ok fields ∧
      resolutionMapping.Keyed fields ∧
      db'.resolutions = resolutionMapping.updateModelFromConfig true fields db.resolutions := by
  simp only [loadAllResolutions] at h
  rw [bind_eq_ok] at h
  obtain ⟨entries, hentries, h⟩ := h
  rw [bind_eq_ok] at h
  obtain ⟨fields, hfields, h⟩ := h
  rw [Except.ok.injEq] at h
  refine ⟨entries, fields, hentries, hfields, keyed_mapM hfields ?_, by rw [← h]⟩
  intro k row fields hm hrow
  obtain ⟨other, -, he⟩ := (mapM_mem hentries).mp (Dict.mem_of_mem_ofEntries hm)
  simp only [bind_eq_ok, Except.ok.injEq, Prod.mk.injEq, ruleToResolution] at he hrow
  obtain ⟨rule, hrule, st, hst, rfl, rfl⟩ := he
  obtain ⟨rule', hrule', st', hst', -, -, text, -, -, -, risk, -, rfl⟩ := hrow
  rw [hrule, Except.ok.injEq] at hrule'
  rw [hst, Except.ok.injEq] at hst'
  rw [hrule', hst']
  rfl

theorem loadAllResolutions_again {content : List ContentRow} {db db' s : Database}
    (h : loadAllResolutions env content db = .ok db') (hrules : s.rules = db.rules)
    (htypes : s.systemTypes = db.systemTypes) (hrisks : s.resolutionRisks = db.resolutionRisks)
    (hresolutions : s.resolutions = db'.resolutions) : loadAllResolutions env content s = .ok s := by
  obtain ⟨entries, fields, hentries, hfields, hkeyed, hrows⟩ := loadAllResolutions_ok h
  have hagain := updateModelFromConfig_again hkeyed (hresolutions.trans hrows)
  simp only [loadAllResolutions, ruleIdToDbId_congr hrules, systemTypeToId_congr htypes,
    ruleToResolution_congr hrules htypes hrisks]
  rw [bind_eq_ok]
  refine ⟨entries, hentries, bind_eq_ok.mpr ⟨fields, hfields, ?_⟩⟩
  have hnone : ((s.resolutions.map Resolution.key).filter fun key => !(s.resolutions.map Resolution.key).contains key) =
      [] := by simp
  simp only [hagain, hnone, List.contains_nil, Bool.not_false, List.filter_true]

theorem loadAllPlaybooks_again {files : Option (List PlaybookContent)} {db s : Database}
    (htypes : s.systemTypes = db.systemTypes) (hresolutions : s.resolutions = db.resolutions)
    (hplaybooks : s.playbooks = (loadAllPlaybooks (files.map generatePlaybookContent) db).playbooks) :
    loadAllPlaybooks (files.map generatePlaybookContent) s = s := by
  cases files with
  | none => rfl
  | some files =>
    have htransformer : playbookTransformer s = playbookTransformer db := by
      funext file
      rw [playbookTransformer, playbookTransformer, ruleIdToResolutionId, ruleIdToResolutionId, htypes, hresolutions]
    have hagain := updateModelFromConfig_again (keyed_playbookConfig files db) hplaybooks
    simp only [Option.map_some, loadAllPlaybooks, htransformer]
    exact congrArg (fun playbooks => { s with playbooks }) hagain

def userAcks (db : Database) : List Ack := db.acks.filter fun ack => ack.createdBy ≠ autoackCreatedBy

def autoAcks (db : Database) : List Ack := db.acks.filter fun ack => ack.createdBy = autoackCreatedBy

/-- The pairs of a rule to be acknowledged and an organisation with hosts. -/
def Wanted (content : List ContentRow) (db : Database) (pair : String × String) : Prop :=
  (∃ row ∈ content, autoackTag ∈ row.tags ∧ row.ruleId = pair.1) ∧ pair.2 ∈ db.hosts.map Prod.snd

theorem mem_autoacksFromContent {content : List ContentRow} {db : Database} {pair : String × String} :
    pair ∈ autoacksFromContent listing content db ↔
      Wanted content db pair ∧ ∀ ack ∈ db.acks, ¬(ack.rule = pair.1 ∧ ack.orgId = pair.2) := by
  have hrules : ∀ ruleId, ruleId ∈ autoackRules listing content ↔
      ∃ row ∈ content, autoackTag ∈ row.tags ∧ row.ruleId = ruleId := by
    intro ruleId
    rw [autoackRules, (listing.listed_perm _).mem_iff, List.mem_dedup]
    simp [and_assoc]
  have horgs : ∀ orgId, orgId ∈ listing.listed (db.hosts.map Prod.snd).dedup ↔ orgId ∈ db.hosts.map Prod.snd := by
    intro orgId
    rw [(listing.listed_perm _).mem_iff, List.mem_dedup]
  rw [autoacksFromContent, List.mem_flatMap]
  constructor
  · rintro ⟨ruleId, hrule, hpair⟩
    obtain ⟨orgId, horg, rfl⟩ := List.mem_map.mp hpair
    obtain ⟨horg, hnone⟩ := List.mem_filter.mp horg
    exact ⟨⟨(hrules ruleId).mp hrule, (horgs orgId).mp horg⟩, by simpa using hnone⟩
  · rintro ⟨⟨hrule, horg⟩, hnone⟩
    refine ⟨pair.1, (hrules pair.1).mpr hrule, List.mem_map.mpr ⟨pair.2, List.mem_filter.mpr ⟨?_, ?_⟩, rfl⟩⟩
    · exact (horgs pair.2).mpr horg
    · simpa using hnone

theorem loadAllAutoacks_ok {content : List ContentRow} {db db' : Database}
    (h : loadAllAutoacks listing content db = .ok db') :
    ∃ entries, ((autoacksFromContent listing content db).mapM fun pair =>
        (ruleIdToDbId db pair.1).map fun rule => (pair.1 ++ pair.2, some (rule, pair.2))) = Except.ok entries ∧
      (db'.acks.map fun ack => (ack.rule, ack.orgId)).Nodup ∧
      db' = { db with acks := userAcks db ++
        ackMapping.updateModelFromConfig true (Dict.ofEntries entries) (listing.ordered (autoAcks db)) } := by
  simp only [loadAllAutoacks, bind_eq_ok, Except.ok.injEq] at h
  obtain ⟨entries, hentries, acks, hunique, rfl⟩ := h
  obtain ⟨hnodup, rfl⟩ := checkUnique_eq_ok.mp hunique
  exact ⟨entries, hentries, hnodup, rfl⟩

theorem keyed_autoacks {content : List ContentRow} {db : Database} {entries : List (String × Option (String × String))}
    (h : ((autoacksFromContent listing content db).mapM fun pair =>
      (ruleIdToDbId db pair.1).map fun rule => (pair.1 ++ pair.2, some (rule, pair.2))) = Except.ok entries) :
    ackMapping.Keyed (Dict.ofEntries entries) :=
  keyed_pairs (fun _ => rfl) h

theorem createdBy_synced {config : Dict String (Option (String × String))} {acks : List Ack} {ack : Ack}
    (hc : ackMapping.Keyed config) (h : ∀ ack ∈ acks, ack.createdBy = autoackCreatedBy)
    (hm : ack ∈ ackMapping.updateModelFromConfig true config acks) : ack.createdBy = autoackCreatedBy := by
  rcases mem_updateModelFromConfig hc hm with ha | ⟨r, -, fields, rfl⟩ | ⟨fields, rfl⟩
  · exact h ack ha
  · rfl
  · rfl

theorem createdBy_ordered (db : Database) : ∀ ack ∈ listing.ordered (autoAcks db), ack.createdBy = autoackCreatedBy := by
  intro ack hm
  have ha := (listing.ordered_perm _).mem_iff.mp hm
  simpa using (List.mem_filter.mp ha).2

theorem acks_after {content : List ContentRow} {db db' : Database} (h : loadAllAutoacks listing content db = .ok db') :
    userAcks db' = userAcks db ∧ db'.acks = userAcks db ++ autoAcks db' := by
  obtain ⟨entries, hentries, -, rfl⟩ := loadAllAutoacks_ok h
  have hc := keyed_autoacks hentries
  have huser : ∀ ack ∈ userAcks db, ack.createdBy ≠ autoackCreatedBy := by
    intro ack hm
    simpa using (List.mem_filter.mp hm).2
  have hauto : ∀ ack ∈ ackMapping.updateModelFromConfig true (Dict.ofEntries entries) (listing.ordered (autoAcks db)),
      ack.createdBy = autoackCreatedBy := fun ack hm => createdBy_synced hc (createdBy_ordered db) hm
  generalize ackMapping.updateModelFromConfig true (Dict.ofEntries entries) (listing.ordered (autoAcks db)) = synced
    at hauto
  have hkept : (userAcks db ++ synced).filter (fun ack => ack.createdBy ≠ autoackCreatedBy) = userAcks db := by
    rw [List.filter_append, List.filter_eq_self.mpr (by simpa using huser), List.filter_eq_nil_iff.mpr (by simpa using hauto),
      List.append_nil]
  have hsynced : (userAcks db ++ synced).filter (fun ack => ack.createdBy = autoackCreatedBy) = synced := by
    rw [List.filter_append, List.filter_eq_nil_iff.mpr (by simpa using huser), List.filter_eq_self.mpr (by simpa using hauto),
      List.nil_append]
  exact ⟨hkept, congrArg (userAcks db ++ ·) hsynced.symm⟩

/-- Every rule that is acknowledged on import has an ack of a user's in every organisation with hosts. -/
def Covered (content : List ContentRow) (db : Database) : Prop :=
  ∀ pair, Wanted content db pair → ∃ ack ∈ userAcks db, ack.rule = pair.1 ∧ ack.orgId = pair.2

theorem autoacks_none {content : List ContentRow} {db : Database} (h : Covered content db) :
    autoacksFromContent listing content db = [] := by
  rw [List.eq_nil_iff_forall_not_mem]
  intro pair hp
  obtain ⟨hwanted, hnone⟩ := mem_autoacksFromContent.mp hp
  obtain ⟨ack, hack, hpair⟩ := h pair hwanted
  exact hnone ack (List.mem_filter.mp hack).1 hpair

theorem loadAllAutoacks_covered {content : List ContentRow} {db : Database} (h : Covered content db) :
    loadAllAutoacks listing content db =
      (checkUnique (fun ack : Ack => (ack.rule, ack.orgId)) (userAcks db)).map fun acks => { db with acks } := by
  have hempty : ackMapping.updateModelFromConfig true (Dict.ofEntries []) (listing.ordered (autoAcks db)) = [] :=
    updateModelFromConfig_empty _
  rw [loadAllAutoacks, autoacks_none h, List.mapM_nil]
  change (checkUnique _ (userAcks db ++ ackMapping.updateModelFromConfig true (Dict.ofEntries [])
    (listing.ordered (autoAcks db))) >>= _) = _
  rw [hempty, List.append_nil]
  rfl

theorem ackMapping_pair {fields : String × String} {rows : List Ack} {row : Ack}
    (h : row = ackMapping.create fields ∨ ∃ r ∈ rows, ackMapping.key r = fields.1 ++ fields.2 ∧ row = ackMapping.assign fields r) :
    row.rule = fields.1 ∧ row.orgId = fields.2 := by
  rcases h with rfl | ⟨r, -, -, rfl⟩
  · exact ⟨rfl, rfl⟩
  · exact ⟨rfl, rfl⟩

theorem nothing_asked {content : List ContentRow} {s : Database} (h : loadAllAutoacks listing content s = .ok s) :
    autoacksFromContent listing content s = [] := by
  obtain ⟨entries, hentries, -, hs⟩ := loadAllAutoacks_ok h
  rw [List.eq_nil_iff_forall_not_mem]
  intro pair hp
  -- the entry under the key of `pair` asks for an ack that is not there, and then it is
  obtain ⟨e, hee, -⟩ : ∃ e ∈ entries, e.1 = pair.1 ++ pair.2 := by
    obtain ⟨e, he⟩ := mapM_isOk ⟨entries, hentries⟩ pair hp
    obtain ⟨rule, -, rfl⟩ := map_eq_ok.mp he
    exact ⟨_, (mapM_mem hentries).mpr ⟨pair, hp, he⟩, rfl⟩
  obtain ⟨fields?, hget, hin⟩ := Dict.exists_get?_ofEntries hee
  obtain ⟨asked, hasked, he⟩ := (mapM_mem hentries).mp hin
  obtain ⟨rule, hrule, he⟩ := map_eq_ok.mp he
  obtain ⟨rfl, -⟩ := ruleIdToDbId_eq_ok.mp hrule
  obtain ⟨hkey, rfl⟩ := Prod.mk.inj he
  have hf : fieldsFor (Dict.ofEntries entries) (asked.1 ++ asked.2) = some asked := by
    rw [hkey, fieldsFor, hget]
    rfl
  obtain ⟨row, hrow, hfrom⟩ := exists_mem_updateModelFromConfig (keyed_autoacks hentries) true
    (listing.ordered (autoAcks s)) hf
  have hacks : row ∈ s.acks := by
    rw [hs]
    exact List.mem_append_right _ hrow
  exact (mem_autoacksFromContent.mp hasked).2 row hacks (ackMapping_pair hfrom)

theorem loadAllAutoacks_again_iff {listing' : Listing} {content : List ContentRow} {db db' s : Database}
    (h : loadAllAutoacks listing content db = .ok db') (hhosts : s.hosts = db.hosts) (hacks : s.acks = db'.acks) :
    loadAllAutoacks listing' content s = .ok s ↔ Covered content db := by
  obtain ⟨huser, hall⟩ := acks_after h
  have huser' : userAcks s = userAcks db := by rw [userAcks, hacks, ← huser, userAcks]
  have hwanted : ∀ pair, Wanted content s pair ↔ Wanted content db pair := by
    intro pair
    rw [Wanted, Wanted, hhosts]
  constructor
  · intro hagain
    have hnothing := nothing_asked hagain
    obtain ⟨entries, hentries, -, hs⟩ := loadAllAutoacks_ok hagain
    have hacksUser : s.acks = userAcks s := by
      rw [hnothing, List.mapM_nil] at hentries
      cases hentries
      have hempty := updateModelFromConfig_empty (m := ackMapping) (listing'.ordered (autoAcks s))
      have hsplit : s.acks = userAcks s ++ _ := congrArg Database.acks hs
      exact hsplit.trans (by rw [show Dict.ofEntries [] = Table.empty from rfl, hempty, List.append_nil])
    intro pair hp
    by_contra hnone
    have hasked : pair ∈ autoacksFromContent listing' content s := by
      refine mem_autoacksFromContent.mpr ⟨(hwanted pair).mpr hp, fun ack hack hpair => hnone ⟨ack, ?_, hpair⟩⟩
      rw [← huser', ← hacksUser]
      exact hack
    rw [hnothing] at hasked
    exact List.not_mem_nil hasked
  · intro hcovered
    have hcovered' : Covered content s := by
      intro pair hp
      rw [huser']
      exact hcovered pair ((hwanted pair).mp hp)
    -- the first pass asked for nothing either, and left the acks of users
    have hfirst := h
    rw [loadAllAutoacks_covered hcovered] at hfirst
    obtain ⟨acks, hunique, rfl⟩ := map_eq_ok.mp hfirst
    obtain ⟨hnodup, rfl⟩ := checkUnique_eq_ok.mp hunique
    rw [loadAllAutoacks_covered hcovered']
    refine map_eq_ok.mpr ⟨userAcks s, checkUnique_eq_ok.mpr ⟨huser' ▸ hnodup, rfl⟩, ?_⟩
    exact congrArg (fun acks => { s with acks }) (huser'.trans hacks.symm)

theorem importConfig_writes {config : Config} {db db' : Database} (h : importConfig env config db = .ok db') :
    ∃ impacts resolutionRisks tags, db' = { db with impacts, resolutionRisks, tags } := by
  simp only [importConfig, bind_eq_ok, Except.ok.injEq] at h
  obtain ⟨_, -, _, -, _, -, rfl⟩ := h
  exact ⟨_, _, _, rfl⟩

theorem loadAllRules_writes {config : Config} {content : List ContentRow} {db db' : Database}
    (h : loadAllRules env config content db = .ok db') : ∃ rules, db' = { db with rules } := by
  simp only [loadAllRules, bind_eq_ok, Except.ok.injEq] at h
  obtain ⟨_, -, rfl⟩ := h
  exact ⟨_, rfl⟩

theorem loadAllRuleTags_writes {content : List ContentRow} {db db' : Database}
    (h : loadAllRuleTags content db = .ok db') : ∃ ruleTags, db' = { db with ruleTags } := by
  rw [loadAllRuleTags] at h
  split at h
  · cases h
    exact ⟨_, rfl⟩
  · simp only [bind_eq_ok, Except.ok.injEq] at h
    obtain ⟨_, -, _, -, rfl⟩ := h
    exact ⟨_, rfl⟩

theorem loadAllAutoacks_writes {content : List ContentRow} {db db' : Database}
    (h : loadAllAutoacks listing content db = .ok db') : ∃ acks, db' = { db with acks } := by
  obtain ⟨_, -, -, rfl⟩ := loadAllAutoacks_ok h
  exact ⟨_, rfl⟩

theorem loadAllResolutions_writes {content : List ContentRow} {db db' : Database}
    (h : loadAllResolutions env content db = .ok db') :
    ∃ resolutions playbooks, db' = { db with resolutions, playbooks } := by
  simp only [loadAllResolutions] at h
  rw [bind_eq_ok] at h
  obtain ⟨_, -, h⟩ := h
  rw [bind_eq_ok] at h
  obtain ⟨_, -, h⟩ := h
  rw [Except.ok.injEq] at h
  exact ⟨_, _, h.symm⟩

theorem loadAllPlaybooks_writes (data : Option (Dict String PlaybookContent)) (db : Database) :
    ∃ playbooks, loadAllPlaybooks data db = { db with playbooks } := by
  cases data with
  | none => exact ⟨db.playbooks, rfl⟩
  | some data => exact ⟨_, rfl⟩

theorem handle_eq_ok {sources : Sources} {db after : Database} :
    handle env listing sources db = .ok after ↔
      ∃ db₁, importConfig env sources.config db = .ok db₁ ∧ loadDatabaseMaps db₁ = .ok () ∧
      ∃ db₂, loadAllRules env sources.config sources.content db₁ = .ok db₂ ∧
      ∃ db₃, loadAllRuleTags sources.content db₂ = .ok db₃ ∧
      ∃ db₄, loadAllAutoacks listing sources.content db₃ = .ok db₄ ∧
      ∃ db₅, loadAllResolutions env sources.content db₄ = .ok db₅ ∧
        loadAllPlaybooks (sources.playbooks.map generatePlaybookContent) db₅ = after := by
  simp only [handle, importContent, bind_eq_ok, mapError_eq_ok, Except.ok.injEq]
  constructor
  · rintro ⟨db₁, h₁, _, hmaps, db₅, ⟨db₂, h₂, db₃, h₃, db₄, h₄, h₅⟩, h₆⟩
    exact ⟨db₁, h₁, hmaps, db₂, h₂, db₃, h₃, db₄, h₄, db₅, h₅, h₆⟩
  · rintro ⟨db₁, h₁, hmaps, db₂, h₂, db₃, h₃, db₄, h₄, db₅, h₅, h₆⟩
    exact ⟨db₁, h₁, (), hmaps, db₅, ⟨db₂, h₂, db₃, h₃, db₄, h₄, h₅⟩, h₆⟩

theorem handle_again_iff {listing' : Listing} {sources : Sources} {db after : Database}
    (h : handle env listing sources db = .ok after) :
    handle env listing' sources after = .ok after ↔ loadAllAutoacks listing' sources.content after = .ok after := by
  obtain ⟨db₁, h₁, hmaps, db₂, h₂, db₃, h₃, db₄, h₄, db₅, h₅, h₆⟩ := handle_eq_ok.mp h
  obtain ⟨impacts, risks, tags, rfl⟩ := importConfig_writes h₁
  obtain ⟨rules, rfl⟩ := loadAllRules_writes h₂
  obtain ⟨ruleTags, rfl⟩ := loadAllRuleTags_writes h₃
  obtain ⟨acks, rfl⟩ := loadAllAutoacks_writes h₄
  obtain ⟨resolutions, playbooks, rfl⟩ := loadAllResolutions_writes h₅
  let before : Database :=
    { db with impacts, resolutionRisks := risks, tags, rules, ruleTags, acks, resolutions, playbooks }
  obtain ⟨playbooks', hplaybooks⟩ := loadAllPlaybooks_writes (sources.playbooks.map generatePlaybookContent) before
  obtain rfl : { before with playbooks := playbooks' } = after := hplaybooks.symm.trans h₆
  -- every stage but the auto-acks finds its tables as it wants them
  let after : Database := { before with playbooks := playbooks' }
  have hconfig : importConfig env sources.config after = .ok after := importConfig_again h₁ rfl rfl rfl
  have hrules : loadAllRules env sources.config sources.content after = .ok after :=
    loadAllRules_again h₂ rfl rfl rfl rfl rfl
  have htags : loadAllRuleTags sources.content after = .ok after := loadAllRuleTags_again h₃ rfl rfl rfl
  have hresolutions : loadAllResolutions env sources.content after = .ok after :=
    loadAllResolutions_again h₅ rfl rfl rfl rfl
  have hafter : loadAllPlaybooks (sources.playbooks.map generatePlaybookContent) after = after :=
    @loadAllPlaybooks_again sources.playbooks before after rfl rfl (by rw [hplaybooks])
  constructor
  · intro hagain
    obtain ⟨s₁, hs₁, -, s₂, hs₂, s₃, hs₃, s₄, hs₄, s₅, hs₅, hs₆⟩ := handle_eq_ok.mp hagain
    cases hconfig.symm.trans hs₁
    cases hrules.symm.trans hs₂
    cases htags.symm.trans hs₃
    obtain ⟨acks', rfl⟩ := loadAllAutoacks_writes hs₄
    obtain ⟨_, _, rfl⟩ := loadAllResolutions_writes hs₅
    obtain ⟨_, hp⟩ := loadAllPlaybooks_writes (sources.playbooks.map generatePlaybookContent) _
    have hacks : acks' = acks := congrArg Database.acks (hp.symm.trans hs₆)
    rw [hs₄, hacks]
  · intro hacks
    exact handle_eq_ok.mpr ⟨after, hconfig, hmaps, after, hrules, after, htags, after, hacks, after, hresolutions, hafter⟩

/-- A second import leaves everything as the first one did exactly when no auto-ack was missing before the first. -/
theorem second_import_iff {listing' : Listing} {sources : Sources} {db after : Database}
    (h : handle env listing sources db = .ok after) :
    handle env listing' sources after = .ok after ∧ userAcks after = userAcks db ↔ Covered sources.content db := by
  obtain ⟨db₁, h₁, -, db₂, h₂, db₃, h₃, db₄, h₄, db₅, h₅, h₆⟩ := handle_eq_ok.mp h
  obtain ⟨_, _, _, rfl⟩ := importConfig_writes h₁
  obtain ⟨_, rfl⟩ := loadAllRules_writes h₂
  obtain ⟨_, rfl⟩ := loadAllRuleTags_writes h₃
  have hsame := (acks_after h₄).1
  obtain ⟨acks, hacks⟩ := loadAllAutoacks_writes h₄
  obtain ⟨_, _, rfl⟩ := loadAllResolutions_writes h₅
  obtain ⟨_, hplaybooks⟩ := loadAllPlaybooks_writes (sources.playbooks.map generatePlaybookContent) _
  have hafter := hplaybooks.symm.trans h₆
  have hackRows : after.acks = db₄.acks := by
    rw [← hafter]
  have hhosts : after.hosts = db.hosts := by
    rw [← hafter, hacks]
  have huser : userAcks after = userAcks db := by
    rw [userAcks, hackRows]
    exact hsame
  rw [handle_again_iff h]
  constructor
  · rintro ⟨hagain, -⟩
    exact (loadAllAutoacks_again_iff h₄ hhosts hackRows).mp hagain
  · intro hcovered
    exact ⟨(loadAllAutoacks_again_iff h₄ hhosts hackRows).mpr hcovered, huser⟩

theorem second_import_hidden :
    ∃ after, handle plainEnvironment plainListing hiddenSources fixtures = .ok after ∧
      (handle plainEnvironment plainListing hiddenSources after = .ok after ∧ userAcks after = userAcks fixtures ↔
        Covered hiddenSources.content fixtures) := by
  obtain ⟨after, h⟩ := isOk_iff.mp
    (show isOk (handle plainEnvironment plainListing hiddenSources fixtures) = true by decide +kernel)
  exact ⟨after, h, second_import_iff h⟩

/-- The first import makes the auto-ack, the second one takes it away. -/
theorem hidden_ack_undone :
    ∃ after again, handle plainEnvironment plainListing hiddenSources fixtures = .ok after ∧
      handle plainEnvironment plainListing hiddenSources after = .ok again ∧
      after.acks.map Ack.orgId = ["9876543"] ∧ again.acks = [] := by
  have h : (do
      let after ← handle plainEnvironment plainListing hiddenSources fixtures
      let again ← handle plainEnvironment plainListing hiddenSources after
      .ok (after.acks.map Ack.orgId, again.acks)) = .ok (["9876543"], []) := by decide +kernel
  simp only [bind_eq_ok, Except.ok.injEq, Prod.mk.injEq] at h
  obtain ⟨after, hafter, again, hagain, hacks⟩ := h
  exact ⟨after, again, hafter, hagain, hacks⟩

end Advisor.Importer.Management
