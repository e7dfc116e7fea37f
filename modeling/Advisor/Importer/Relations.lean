import Advisor.Importer.Management

/-! What is left of the pairs of the content when two of them run together to one key. -/

namespace Advisor.Importer.Management

open Python Django Relational Mapping

/-- The rules and tags the content names are in their tables. -/
structure Loaded (content : List ContentRow) (db : Database) : Prop where
  rules : ∀ row ∈ content, row.ruleId ∈ db.rules.map Rule.ruleId
  tags : ∀ row ∈ content, ∀ tag ∈ row.tags, tag ∈ db.tags

def AdmitsPair (db : Database) (pair : String × String) : Prop :=
  pair.1 ∈ db.rules.map Rule.ruleId ∧ pair.2 ∈ db.tags

def tagConfig (content : List ContentRow) : Dict String (Option (String × String)) :=
  Dict.ofEntries ((contentPairs content).map fun pair => (pair.1 ++ pair.2, some pair))

theorem mem_contentPairs {content : List ContentRow} {pair : String × String} :
    pair ∈ contentPairs content ↔ ∃ row ∈ content, row.ruleId = pair.1 ∧ pair.2 ∈ row.tags := by
  simp only [contentPairs, List.mem_flatMap, List.mem_map]
  constructor
  · rintro ⟨row, hrow, tag, htag, rfl⟩
    exact ⟨row, hrow, rfl, htag⟩
  · rintro ⟨row, hrow, hr, htag⟩
    exact ⟨row, hrow, pair.2, htag, by rw [hr]⟩

theorem Loaded.admits {content : List ContentRow} {db : Database} (h : Loaded content db) {pair : String × String}
    (hp : pair ∈ contentPairs content) : AdmitsPair db pair := by
  obtain ⟨row, hrow, hr, htag⟩ := mem_contentPairs.mp hp
  exact ⟨hr ▸ h.rules row hrow, h.tags row hrow _ htag⟩

theorem loadAllRuleTags_eq {content : List ContentRow} {db : Database} (h : Loaded content db) :
    loadAllRuleTags content db =
      (checkUnique id (ruleTagMapping.updateModelFromConfig true (tagConfig content) db.ruleTags)).map fun pairs =>
        { db with ruleTags := pairs } := by
  have hknown : (content.any fun row => row.tags.any fun tag => !db.tags.contains tag) = false := by
    simpa using h.tags
  have hentries : ((contentPairs content).mapM fun pair =>
      (ruleIdToDbId db pair.1).map fun rule => (pair.1 ++ pair.2, some (rule, pair.2))) =
      Except.ok ((contentPairs content).map fun pair => (pair.1 ++ pair.2, some pair)) := by
    apply mapM_ok
    intro pair hp
    have hany : db.rules.any (·.ruleId = pair.1) = true := by
      simpa using (h.admits hp).1
    rw [ruleIdToDbId, if_pos hany]
    rfl
  rw [loadAllRuleTags, hknown, if_neg (by simp), hentries]
  rfl

theorem mem_tagConfig {content : List ContentRow} {k : String} {fields : String × String}
    (h : fieldsFor (tagConfig content) k = some fields) :
    fields ∈ contentPairs content ∧ fields.1 ++ fields.2 = k := by
  have hm := Dict.mem_of_mem_ofEntries (Mapping.mem_of_fieldsFor h)
  obtain ⟨pair, hp, he⟩ := List.mem_map.mp hm
  simp only [Prod.mk.injEq, Option.some.injEq] at he
  exact ⟨he.2 ▸ hp, he.2 ▸ he.1⟩

theorem exists_fieldsFor_tagConfig {content : List ContentRow} {pair : String × String}
    (h : pair ∈ contentPairs content) :
    ∃ fields, fieldsFor (tagConfig content) (pair.1 ++ pair.2) = some fields := by
  have hm : (pair.1 ++ pair.2, some pair) ∈
      (contentPairs content).map fun pair => (pair.1 ++ pair.2, some pair) :=
    List.mem_map.mpr ⟨pair, h, rfl⟩
  obtain ⟨a, hget, hin⟩ := Dict.exists_get?_ofEntries hm
  obtain ⟨fields, -, he⟩ := List.mem_map.mp hin
  simp only [Prod.mk.injEq] at he
  refine ⟨fields, ?_⟩
  rw [fieldsFor, tagConfig, hget, ← he.2]
  rfl

theorem keyed_tagConfig (content : List ContentRow) : ruleTagMapping.Keyed (tagConfig content) := by
  rintro ⟨k, fields?⟩ he fields hf
  simp only at hf
  subst hf
  exact (mem_tagConfig (Mapping.fieldsFor_of_mem he)).2

/-- Whatever pairs were stored before, the content's are stored after. -/
def TagsImported (content : List ContentRow) (db : Database) : Prop :=
  ∀ prior : List (String × String), prior.Nodup → (∀ pair ∈ prior, AdmitsPair db pair) →
    ∃ db', loadAllRuleTags content { db with ruleTags := prior } = .ok db' ∧
      ∀ pair, pair ∈ db'.ruleTags ↔ pair ∈ contentPairs content

/-- No pair that can be stored runs together to the key of another one of the content. -/
def TagsApart (content : List ContentRow) (db : Database) : Prop :=
  ∀ pair ∈ contentPairs content, ∀ other, AdmitsPair db other → other.1 ++ other.2 = pair.1 ++ pair.2 → other = pair

theorem tagsImported_of_apart {content : List ContentRow} {db : Database} (h : Loaded content db)
    (hapart : TagsApart content db) : TagsImported content db := by
  intro prior hnodup hadmits
  have hc := keyed_tagConfig content
  have hsame : ∀ pair, AdmitsPair db pair → ∀ fields,
      fieldsFor (tagConfig content) (pair.1 ++ pair.2) = some fields → pair = fields := by
    intro pair hp fields hf
    obtain ⟨hin, hk⟩ := mem_tagConfig hf
    exact hapart fields hin pair hp hk.symm
  have hupdated : ruleTagMapping.updated (tagConfig content) prior = prior := by
    apply Mapping.updated_of_forall
    exact fun pair hp fields hf => (hsame pair (hadmits pair hp) fields hf).symm
  have hrows := Mapping.updateModelFromConfig_eq hc true prior
  rw [hupdated] at hrows
  have hnew : (prior ++ ruleTagMapping.toInsert (tagConfig content) prior).Nodup := by
    refine hnodup.append (Mapping.nodup_toInsert hc prior) ?_
    intro pair hp hi
    obtain ⟨-, -, -, hnone⟩ := Mapping.key_toInsert hc hi
    exact hnone pair hp rfl
  refine ⟨{ db with ruleTags := ruleTagMapping.updateModelFromConfig true (tagConfig content) prior }, ?_, ?_⟩
  · have hloaded : Loaded content { db with ruleTags := prior } := ⟨h.rules, h.tags⟩
    rw [loadAllRuleTags_eq hloaded]
    refine map_eq_ok.mpr ⟨_, checkUnique_eq_ok.mpr ⟨?_, rfl⟩, rfl⟩
    rw [List.map_id, hrows]
    exact hnew.filter _
  · intro pair
    constructor
    · intro hp
      simp only [hrows, List.mem_filter] at hp
      obtain ⟨hp, hk⟩ := hp
      rcases List.mem_append.mp hp with hprior | hinserted
      · obtain ⟨e, he⟩ := Option.isSome_iff_exists.mp (by simpa using hk)
        obtain ⟨hm, hek⟩ := Table.get?_eq_some.mp he
        obtain ⟨c, hcp, hce⟩ := List.mem_map.mp (Dict.mem_of_mem_ofEntries hm)
        have hkey : pair.1 ++ pair.2 = c.1 ++ c.2 := hek.symm.trans (congrArg Prod.fst hce).symm
        rw [hapart c hcp pair (hadmits pair hprior) hkey]
        exact hcp
      · obtain ⟨fields, hf, hcreate, -⟩ := Mapping.key_toInsert hc hinserted
        exact hcreate ▸ (mem_tagConfig hf).1
    · intro hp
      obtain ⟨fields, hf⟩ := exists_fieldsFor_tagConfig hp
      have hfields := hsame pair (h.admits hp) fields hf
      obtain ⟨row, hrow, rfl | ⟨r, -, -, rfl⟩⟩ :=
        Mapping.exists_mem_updateModelFromConfig hc true prior hf
      · exact hfields ▸ hrow
      · exact hfields ▸ hrow

theorem loadAllRuleTags_ok {content : List ContentRow} {db db' : Database} {prior : List (String × String)}
    (h : Loaded content db) (hload : loadAllRuleTags content { db with ruleTags := prior } = .ok db') :
    db'.ruleTags.Nodup ∧ db'.ruleTags =
      (ruleTagMapping.updated (tagConfig content) prior ++ ruleTagMapping.toInsert (tagConfig content) prior).filter
        fun pair => ((tagConfig content).get? (pair.1 ++ pair.2)).isSome := by
  have hloaded : Loaded content { db with ruleTags := prior } := ⟨h.rules, h.tags⟩
  rw [loadAllRuleTags_eq hloaded] at hload
  obtain ⟨pairs, hunique, rfl⟩ := map_eq_ok.mp hload
  obtain ⟨hnodup, hrows⟩ := checkUnique_eq_ok.mp hunique
  rw [List.map_id, ← hrows] at hnodup
  refine ⟨hnodup, hrows.trans ?_⟩
  rw [Mapping.updateModelFromConfig_eq (keyed_tagConfig content)]
  rfl

theorem apart_of_tagsImported {content : List ContentRow} {db : Database} (h : Loaded content db)
    (himported : TagsImported content db) : TagsApart content db := by
  intro pair hp other hother hkey
  obtain ⟨fields, hf⟩ := exists_fieldsFor_tagConfig hp
  by_cases hfp : fields = pair
  · by_contra hne
    -- the last row of the key is turned into a second copy of the first one
    have hprior : [pair, other].Nodup := by simpa using Ne.symm hne
    obtain ⟨db', hload, -⟩ := himported [pair, other] hprior (by simp [h.admits hp, hother])
    obtain ⟨hnodup, hrows⟩ := loadAllRuleTags_ok h hload
    have hupdated : ruleTagMapping.updated (tagConfig content) [pair, other] = [pair, pair] := by
      have hk : ruleTagMapping.key other = ruleTagMapping.key pair := hkey
      have hfk : fieldsFor (tagConfig content) (ruleTagMapping.key pair) = some pair := hfp ▸ hf
      simp only [updated, hk, hfk, List.any_cons, List.any_nil]
      simp [ruleTagMapping, Mapping.whole]
    have hkept : ((tagConfig content).get? (pair.1 ++ pair.2)).isSome := by
      rw [Table.mem_iff_get?.mp (Mapping.mem_of_fieldsFor hf)]
      rfl
    rw [hrows, hupdated] at hnodup
    simp [hkept] at hnodup
  · obtain ⟨db', hload, hmem⟩ := himported [] List.nodup_nil (by simp)
    obtain ⟨-, hrows⟩ := loadAllRuleTags_ok h hload
    have hin := (hmem pair).mpr hp
    rw [hrows, updated, List.nil_append] at hin
    obtain ⟨fields', hf', hcreate, -⟩ := Mapping.key_toInsert (keyed_tagConfig content) (List.mem_filter.mp hin).1
    have hpair : fields' = pair := hcreate
    exact absurd (Option.some.inj (hf.symm.trans hf')) fun he => hfp (he.trans hpair)

def playbookConfig (files : List PlaybookContent) (db : Database) : Dict String (Option Playbook) :=
  (generatePlaybookContent files).map fun _ file => playbookTransformer db file

def lastFile (files : List PlaybookContent) (key : String) : Option PlaybookContent :=
  files.reverse.find? fun file => file.ruleId ++ file.type = key

theorem fieldsFor_playbookConfig (files : List PlaybookContent) (db : Database) (key : String) :
    fieldsFor (playbookConfig files db) key = (lastFile files key).bind (playbookTransformer db) := by
  have hget : ∀ d : Dict String PlaybookContent,
      ((d.map fun _ file => playbookTransformer db file).get? key).bind Prod.snd =
        (d.get? key).bind fun e => playbookTransformer db e.2 := by
    intro d
    rw [Table.get?, Dict.map, List.find?_map, Table.get?]
    cases hd : d.rows.find? fun e => e.1 = key with
    | none => simp [hd]
    | some e => simp [hd]
  rw [fieldsFor, playbookConfig, hget, generatePlaybookContent, Dict.get?_ofEntries, ← List.map_reverse,
    List.find?_map, lastFile]
  cases hl : files.reverse.find? fun file => file.ruleId ++ file.type = key with
  | none => simp [hl]
  | some file => simp [hl]

theorem keyed_playbookConfig (files : List PlaybookContent) (db : Database) :
    playbookMapping.Keyed (playbookConfig files db) := by
  rintro ⟨k, fields?⟩ he fields hf
  simp only at hf
  subst hf
  have hf := Mapping.fieldsFor_of_mem he
  rw [fieldsFor_playbookConfig] at hf
  obtain ⟨file, hl, htransform⟩ := Option.bind_eq_some_iff.mp hf
  have hk : file.ruleId ++ file.type = k := by simpa using List.find?_some hl
  obtain ⟨resolution, hres, rfl⟩ := Option.map_eq_some_iff.mp htransform
  obtain ⟨st, -, rfl⟩ := Option.map_eq_some_iff.mp hres
  exact hk

/-- Whatever playbooks the resolutions had before, each file whose rule has a resolution is stored on it as it is,
and the playbooks the files are not about stay. -/
def PlaybooksImported (files : List PlaybookContent) (db : Database) : Prop :=
  ∀ prior : List Playbook, (∀ playbook ∈ prior, playbook.resolution ∈ db.resolutions.map Resolution.key) →
    let after := loadAllPlaybooks (some (generatePlaybookContent files)) { db with playbooks := prior }
    (∀ file ∈ files, ∀ playbook, playbookTransformer db file = some playbook → playbook ∈ after.playbooks) ∧
      ∀ playbook ∈ prior,
        (∀ file ∈ files, (file.ruleId, file.type) ≠ (playbook.resolution.1, playbook.type)) →
          playbook ∈ after.playbooks

/-- The files of one key say the same, and no playbook of another rule or type can be stored under it. -/
def PlaybooksApart (files : List PlaybookContent) (db : Database) : Prop :=
  ∀ file ∈ files, ∀ playbook, playbookTransformer db file = some playbook →
    (lastFile files (file.ruleId ++ file.type)).bind (playbookTransformer db) = some playbook ∧
      ∀ resolution ∈ db.resolutions, ∀ type : { type : String // type.length ≤ 100 },
        resolution.rule ++ type = file.ruleId ++ file.type →
          ∃ other ∈ files, (other.ruleId, other.type) = (resolution.rule, type)

theorem loadAllPlaybooks_playbooks (files : List PlaybookContent) (db : Database) (prior : List Playbook) :
    (loadAllPlaybooks (some (generatePlaybookContent files)) { db with playbooks := prior }).playbooks =
      playbookMapping.updated (playbookConfig files db) prior ++
        playbookMapping.toInsert (playbookConfig files db) prior := by
  have h := Mapping.updateModelFromConfig_eq (keyed_playbookConfig files db) false prior
  simp only [Bool.not_false, Bool.true_or, List.filter_true] at h
  exact h

theorem lastFile_eq_some {files : List PlaybookContent} {key : String} {file : PlaybookContent}
    (h : lastFile files key = some file) : file ∈ files ∧ file.ruleId ++ file.type = key :=
  ⟨List.mem_reverse.mp (List.mem_of_find?_eq_some h), by simpa using List.find?_some h⟩

theorem playbookTransformer_pair {db : Database} {file : PlaybookContent} {playbook : Playbook}
    (h : playbookTransformer db file = some playbook) :
    playbook.resolution.1 = file.ruleId ∧ playbook.type = file.type := by
  obtain ⟨resolution, hres, rfl⟩ := Option.map_eq_some_iff.mp h
  obtain ⟨st, -, rfl⟩ := Option.map_eq_some_iff.mp hres
  exact ⟨rfl, rfl⟩

theorem playbooksImported_of_apart {files : List PlaybookContent} {db : Database} (h : PlaybooksApart files db) :
    PlaybooksImported files db := by
  intro prior hprior
  constructor
  · intro file hfile playbook htransform
    have hf := (fieldsFor_playbookConfig files db _).trans (h file hfile playbook htransform).1
    obtain ⟨row, hrow, rfl | ⟨r, -, -, rfl⟩⟩ :=
      Mapping.exists_mem_updateModelFromConfig (keyed_playbookConfig files db) false prior hf
    · exact hrow
    · exact hrow
  · intro playbook hp hother
    rw [loadAllPlaybooks_playbooks]
    refine List.mem_append_left _ (Mapping.mem_updated_of_none hp ?_)
    by_contra hsome
    obtain ⟨written, hf⟩ := Option.ne_none_iff_exists'.mp hsome
    rw [fieldsFor_playbookConfig] at hf
    obtain ⟨file, hlast, htransform⟩ := Option.bind_eq_some_iff.mp hf
    obtain ⟨hfile, hkey⟩ := lastFile_eq_some hlast
    obtain ⟨resolution, hres, hreskey⟩ := List.mem_map.mp (hprior playbook hp)
    have hrule : resolution.rule = playbook.resolution.1 := congrArg Prod.fst hreskey
    obtain ⟨other, hm, hpair⟩ := (h file hfile written htransform).2 resolution hres playbook.type
      (by rw [hrule]; exact hkey.symm)
    exact hother other hm (by rw [hpair, hrule])

theorem apart_of_playbooksImported {files : List PlaybookContent} {db : Database} (h : PlaybooksImported files db) :
    PlaybooksApart files db := by
  have hc := keyed_playbookConfig files db
  intro file hfile playbook htransform
  obtain ⟨hrule, htype⟩ := playbookTransformer_pair htransform
  -- into an empty table goes what the dictionary holds
  have hstored : fieldsFor (playbookConfig files db) (file.ruleId ++ file.type) = some playbook := by
    have hin := (h [] (by simp)).1 file hfile playbook htransform
    rw [loadAllPlaybooks_playbooks, updated, List.nil_append] at hin
    obtain ⟨fields, hf, hcreate, -⟩ := Mapping.key_toInsert hc hin
    have hkey : playbookMapping.key playbook = file.ruleId ++ file.type := by
      rw [← hrule, ← htype]
      rfl
    have hfields : fields = playbook := hcreate
    rw [← hkey, hf, hfields]
  refine ⟨(fieldsFor_playbookConfig files db _).symm.trans hstored, ?_⟩
  intro resolution hres type hkey
  by_contra hnone
  -- a playbook of another rule or type under the same key is overwritten
  let prior : Playbook := ⟨resolution.key, type, none, "", "", none⟩
  have hin := (h [prior] (by simpa [prior] using ⟨resolution, hres, rfl⟩)).2 prior (by simp)
    fun other hm hpair => hnone ⟨other, hm, hpair⟩
  rw [loadAllPlaybooks_playbooks] at hin
  have hpk : playbookMapping.key prior = file.ruleId ++ file.type := hkey
  rcases List.mem_append.mp hin with hupdated | hnew
  · have hwritten : playbookMapping.updated (playbookConfig files db) [prior] = [playbook] := by
      simp only [updated, hpk, hstored, List.any_nil]
      rfl
    rw [hwritten, List.mem_singleton] at hupdated
    refine hnone ⟨file, hfile, ?_⟩
    rw [← hrule, ← htype, ← hupdated]
    rfl
  · obtain ⟨-, -, -, hnot⟩ := Mapping.key_toInsert hc hnew
    exact hnot prior (by simp) rfl

/-- Both relations come out as the content has them exactly when no two keys run together. -/
theorem relations_imported_iff {content : List ContentRow} {files : List PlaybookContent} {db : Database}
    (h : Loaded content db) :
    TagsImported content db ∧ PlaybooksImported files db ↔ TagsApart content db ∧ PlaybooksApart files db := by
  constructor
  · rintro ⟨htags, hplaybooks⟩
    exact ⟨apart_of_tagsImported h htags, apart_of_playbooksImported hplaybooks⟩
  · rintro ⟨htags, hplaybooks⟩
    exact ⟨tagsImported_of_apart h htags, playbooksImported_of_apart hplaybooks⟩

def oneText : List ContentRow :=
  [{ ruleId := "ntp|SLOW", tags := ["ED_clock"], items := [] }, { ruleId := "ntp|SLOWED", tags := ["_clock"], items := [] }]

def plainRule (ruleId : String) : Rule :=
  ⟨"https://rules", ruleId, "", 1, true, false, none, "Stability", none, 1, none, "", "", "", "", ""⟩

def oneTextDatabase : Database :=
  { categories := ["Stability"], pathways := [], rulesets := [], systemTypes := [⟨"host", "rhel"⟩], hosts := []
    tags := ["ED_clock", "_clock"], rules := [plainRule "ntp|SLOW", plainRule "ntp|SLOWED"] }

theorem loaded_oneText : Loaded oneText oneTextDatabase :=
  ⟨by decide, by decide⟩

theorem oneText_not_imported : Loaded oneText oneTextDatabase ∧ ¬TagsImported oneText oneTextDatabase := by
  refine ⟨loaded_oneText, fun h => ?_⟩
  have happart := apart_of_tagsImported loaded_oneText h ("ntp|SLOW", "ED_clock") (by decide)
    ("ntp|SLOWED", "_clock") ⟨by decide, by decide⟩ (by decide)
  exact absurd happart (by decide)

theorem relations_imported_iff_oneText :
    TagsImported oneText oneTextDatabase ∧ PlaybooksImported [] oneTextDatabase ↔
      TagsApart oneText oneTextDatabase ∧ PlaybooksApart [] oneTextDatabase :=
  relations_imported_iff loaded_oneText

end Advisor.Importer.Management
