import Advisor.Importer.ApiRuns
import Mathlib.Data.List.Count
import Mathlib.Data.List.Dedup

/-! What a row of the content makes of its resolution and of the playbooks of it. -/

namespace Advisor.Importer.Api

open Python Procedure Django Relational

variable {env : Environment} {resolution : String × SystemType}

def countOf (db : Database) (resolution : String × SystemType) (type : String) : Nat :=
  db.playbooks.countP fun row => row.resolution = resolution && row.type.1 = type

def itemType (item : Json) : Option String :=
  match expectedPlaybookKeys.mapM item.hasKey, item.item "resolution_type" with
  | .ok present, .ok (.str type) => if present.all id then some type else none
  | _, _ => none

theorem itemType_eq_some {item : Json} {type : String} (h : itemType item = some type) :
    (∃ present, expectedPlaybookKeys.mapM item.hasKey = .ok present ∧ present.all id = true) ∧
      item.item "resolution_type" = .ok (.str type) := by
  unfold itemType at h
  split at h
  case h_1 present found hpresent hfound =>
    split at h
    · obtain rfl := Option.some.inj h
      exact ⟨⟨present, hpresent, ‹_›⟩, hfound⟩
    · cases h
  case h_2 => cases h

theorem playbookOf_ok {type : { type : String // type.length ≤ 100 }} {item : Json} {playbook : Playbook}
    (h : playbookOf env resolution type item = .ok playbook) : playbook.resolution = resolution ∧ playbook.type = type := by
  simp only [playbookOf, bind_eq_ok, Except.ok.injEq] at h
  obtain ⟨_, -, _, -, _, -, _, -, _, -, _, -, _, -, _, -, rfl⟩ := h
  exact ⟨rfl, rfl⟩

theorem playbookType_str {text : String} {type : { type : String // type.length ≤ 100 }}
    (h : playbookType env (.str text) = .ok type) : type.1 = text := by
  simp only [playbookType, required, textOf, bind_eq_ok] at h
  obtain ⟨found, hfound, h⟩ := h
  split at hfound
  · cases hfound
  · obtain rfl := Except.ok.inj hfound
    split at h
    · obtain rfl := Except.ok.inj h
      rfl
    · cases h

theorem onePlaybook_eq_ok {rows : List Playbook} {row : Playbook} : onePlaybook rows = .ok row ↔ rows = [row] := by
  rcases rows with _ | ⟨first, _ | ⟨second, rest⟩⟩ <;> simp [onePlaybook]

theorem one_of_onePlaybook {db : Database} {type : String} {row : Playbook}
    (h : onePlaybook (db.playbooks.filter fun row => row.resolution = resolution && row.type.1 = type) = .ok row) :
    countOf db resolution type = 1 ∧ row ∈ db.playbooks ∧ row.resolution = resolution ∧ row.type.1 = type := by
  have hone := onePlaybook_eq_ok.mp h
  have hmem : row ∈ db.playbooks.filter fun row => row.resolution = resolution && row.type.1 = type := by simp [hone]
  obtain ⟨hmem, hrow⟩ := List.mem_filter.mp hmem
  simp only [Bool.and_eq_true, decide_eq_true_eq] at hrow
  refine ⟨?_, hmem, hrow⟩
  rw [countOf, List.countP_eq_length_filter, hone, List.length_singleton]

/-- A playbook of a type that was there is brought up to date, one of any other type is added. -/
theorem importPlaybook_counts {types : List String} {item : Json} {type : String} {s s' : State}
    (hitem : itemType item = some type) (h : importPlaybook env resolution types item s = (.ok (), s')) :
    (type ∈ types → countOf s.db resolution type = 1) ∧ ∀ other t,
      countOf s'.db other t = countOf s.db other t + if other = resolution ∧ t = type ∧ type ∉ types then 1 else 0 := by
  obtain ⟨⟨present, hpresent, hall⟩, htype⟩ := itemType_eq_some hitem
  rw [importPlaybook, hpresent, lift_ok_bind, if_pos hall, htype, lift_ok_bind] at h
  have hhashable : requireHashable (.str type) = .ok () := rfl
  rw [hhashable, lift_ok_bind] at h
  cases hfind : types.find? fun known => Json.eq (.str type) (.str known) with
  | some known =>
    have hknown : type = known := by
      have hfound := List.find?_some hfind
      exact Json.str.inj (Json.eq_str.mp hfound)
    subst hknown
    have hmem : type ∈ types := List.mem_of_find?_eq_some hfind
    simp only [hfind, read_bind, run_bind_eq_ok, run_lift_eq_ok] at h
    obtain ⟨row, _, ⟨hrow, rfl⟩, version, _, ⟨-, rfl⟩, h⟩ := h
    obtain ⟨hone, -, hresolution, htyped⟩ := one_of_onePlaybook hrow
    refine ⟨fun _ => hone, fun other t => ?_⟩
    rw [if_neg fun hc => hc.2.2 hmem, Nat.add_zero]
    split at h
    · simp only [run_bind_eq_ok, run_lift_eq_ok] at h
      obtain ⟨playbook, _, ⟨hplaybook, rfl⟩, h⟩ := h
      obtain ⟨hresolution', htyped'⟩ := playbookOf_ok hplaybook
      rw [modify, write, Prod.mk.injEq] at h
      rw [← h.2, countOf, countOf, List.countP_map]
      refine List.countP_congr fun old _ => ?_
      rw [Function.comp_apply]
      split
      case isTrue hold =>
        simp only [Bool.and_eq_true, decide_eq_true_eq] at hold
        rw [hresolution', htyped', htyped, hold.1, hold.2]
      case isFalse => rfl
    · obtain ⟨-, rfl⟩ := Prod.mk.inj h
      rfl
  | none =>
    have hmem : type ∉ types := by
      intro hc
      exact List.find?_eq_none.mp hfind type hc (Json.eq_str.mpr rfl)
    simp only [hfind, run_bind_eq_ok, run_lift_eq_ok] at h
    obtain ⟨typed, _, ⟨htyped, rfl⟩, playbook, _, ⟨hplaybook, rfl⟩, h⟩ := h
    obtain ⟨hresolution, htyped'⟩ := playbookOf_ok hplaybook
    refine ⟨fun hc => absurd hc hmem, fun other t => ?_⟩
    rw [modify, write, Prod.mk.injEq] at h
    rw [← h.2, countOf, countOf, List.countP_append, List.countP_singleton, hresolution, htyped', playbookType_str htyped]
    congr 1
    have hsame : (resolution = other && type = t : Bool) = (other = resolution ∧ t = type ∧ type ∉ types : Bool) := by
      simp [hmem, eq_comm]
    simp only [hsame, decide_eq_true_eq]

/-- The types that are listed, once the items have the keys which are expected of them. -/
def listedTypes (items : List Json) : List String := items.filterMap itemType

theorem importPlaybooks_counts {types : List String} {items : List Json} {s s' : State}
    (hitems : ∀ item ∈ items, (itemType item).isSome) (h : each items (importPlaybook env resolution types) s = (.ok (), s')) :
    (∀ type ∈ listedTypes items, type ∈ types → countOf s.db resolution type = 1) ∧ ∀ other t,
      countOf s'.db other t = countOf s.db other t +
        if other = resolution ∧ t ∉ types then (listedTypes items).count t else 0 := by
  induction items generalizing s with
  | nil =>
    obtain ⟨-, rfl⟩ := Prod.mk.inj h
    simp [listedTypes]
  | cons item items ih =>
    rw [each_cons, run_bind_eq_ok] at h
    obtain ⟨_, u, hitem, h⟩ := h
    obtain ⟨type, htype⟩ := Option.isSome_iff_exists.mp (hitems item (by simp))
    obtain ⟨hone, hcount⟩ := importPlaybook_counts htype hitem
    obtain ⟨hones, hcounts⟩ := ih (fun item hi => hitems item (by simp [hi])) h
    have hlisted : listedTypes (item :: items) = type :: listedTypes items := by simp [listedTypes, htype]
    rw [hlisted]
    constructor
    · intro t ht hmem
      rcases List.mem_cons.mp ht with rfl | ht
      · exact hone hmem
      · have hsame := hones t ht hmem
        rw [hcount, if_neg fun hc => hc.2.2 (hc.2.1 ▸ hmem), Nat.add_zero] at hsame
        exact hsame
    · intro other t
      rw [hcounts, hcount, List.count_cons]
      by_cases ho : other = resolution
      · by_cases hmem : t ∈ types
        · have hnot : ¬(t = type ∧ type ∉ types) := fun hc => hc.2 (hc.1 ▸ hmem)
          simp [ho, hmem, hnot]
        · by_cases ht : t = type
          · subst ht
            simp [ho, hmem]
            omega
          · have hne : ¬type = t := fun hc => ht hc.symm
            simp [ho, hmem, ht, hne]
      · simp [ho]

def removePlaybook (resolution : String × SystemType) (type : String) : Run Unit := do
  let rows ← read fun s => s.db.playbooks.filter fun row => row.resolution = resolution && row.type.1 = type
  let row ← lift (onePlaybook rows)
  modify fun db => { db with playbooks := db.playbooks.erase row }

theorem removePlaybook_counts {type : String} {s s' : State} (h : removePlaybook resolution type s = (.ok (), s')) :
    countOf s.db resolution type = 1 ∧ ∀ other t,
      countOf s'.db other t = countOf s.db other t - if other = resolution ∧ t = type then 1 else 0 := by
  simp only [removePlaybook, read_bind, run_bind_eq_ok, run_lift_eq_ok] at h
  obtain ⟨row, _, ⟨hrow, rfl⟩, h⟩ := h
  obtain ⟨hone, hmem, hresolution, htype⟩ := one_of_onePlaybook hrow
  refine ⟨hone, fun other t => ?_⟩
  rw [modify, write, Prod.mk.injEq] at h
  rw [← h.2, countOf, List.countP_erase, hresolution, htype, countOf]
  have hsame : (resolution = other && type = t : Bool) = (other = resolution ∧ t = type : Bool) := by simp [eq_comm]
  simp only [hmem, hsame, decide_eq_true_eq, true_and]

theorem removePlaybooks_counts {gone : List String} {s s' : State} (hgone : gone.Nodup)
    (h : each gone (removePlaybook resolution) s = (.ok (), s')) :
    (∀ type ∈ gone, countOf s.db resolution type = 1) ∧ ∀ other t,
      countOf s'.db other t = if other = resolution ∧ t ∈ gone then 0 else countOf s.db other t := by
  induction gone generalizing s with
  | nil =>
    obtain ⟨-, rfl⟩ := Prod.mk.inj h
    simp
  | cons type gone ih =>
    obtain ⟨hnot, hgone⟩ := List.nodup_cons.mp hgone
    rw [each_cons, run_bind_eq_ok] at h
    obtain ⟨_, u, hremoved, h⟩ := h
    obtain ⟨hone, hcount⟩ := removePlaybook_counts hremoved
    obtain ⟨hones, hcounts⟩ := ih hgone h
    constructor
    · intro t ht
      rcases List.mem_cons.mp ht with rfl | ht
      · exact hone
      · have hsame := hones t ht
        have hne : t ≠ type := fun hc => hnot (hc ▸ ht)
        rw [hcount, if_neg fun hc => hne hc.2, Nat.sub_zero] at hsame
        exact hsame
    · intro other t
      rw [hcounts, hcount]
      by_cases ho : other = resolution
      · by_cases ht : t = type
        · simp [ho, ht, hone]
        · simp [ho, ht]
      · simp [ho]

theorem mem_storedTypes {db : Database} {type : String} :
    type ∈ ((db.playbooks.filter fun row => row.resolution = resolution).map fun row => row.type.1).dedup ↔
      0 < countOf db resolution type := by
  rw [List.mem_dedup, List.mem_map, countOf, List.countP_pos_iff]
  constructor
  · rintro ⟨row, hrow, rfl⟩
    obtain ⟨hmem, hresolution⟩ := List.mem_filter.mp hrow
    exact ⟨row, hmem, by simpa using hresolution⟩
  · rintro ⟨row, hmem, hrow⟩
    simp only [Bool.and_eq_true, decide_eq_true_eq] at hrow
    exact ⟨row, List.mem_filter.mpr ⟨hmem, by simp [hrow.1]⟩, hrow.2⟩

theorem mem_listedTypes {items types : List Json} {type : String} (hitems : ∀ item ∈ items, (itemType item).isSome)
    (h : (items.mapM fun item => item.item "resolution_type") = .ok types) :
    (types.any fun value => value.eq (.str type)) = true ↔ type ∈ listedTypes items := by
  rw [List.any_eq_true, listedTypes, List.mem_filterMap]
  constructor
  · rintro ⟨value, hvalue, heq⟩
    obtain rfl := Json.eq_str.mp heq
    obtain ⟨item, hitem, hfound⟩ := (mapM_mem h).mp hvalue
    obtain ⟨listed, hlisted⟩ := Option.isSome_iff_exists.mp (hitems item hitem)
    have hsame := Json.str.inj (Except.ok.inj ((itemType_eq_some hlisted).2.symm.trans hfound))
    exact ⟨item, hitem, hsame ▸ hlisted⟩
  · rintro ⟨item, hitem, hlisted⟩
    exact ⟨.str type, (mapM_mem h).mpr ⟨item, hitem, (itemType_eq_some hlisted).2⟩, Json.eq_str.mpr rfl⟩

/-- How many playbooks of a type there are after a listing, by how many there were. -/
def countAfter (before : Nat) (listed : List String) (type : String) : Nat :=
  if 0 < before then (if type ∈ listed then 1 else 0) else listed.count type

/-- Types that were there have one playbook each or none, any other has as many as are listed. -/
theorem updatePlaybookModels_counts {items : List Json} {s s' : State} (hitems : ∀ item ∈ items, (itemType item).isSome)
    (h : updatePlaybookModels env resolution (.list items) s = (.ok (), s')) (other : String × SystemType) (t : String) :
    countOf s'.db other t =
      if other = resolution then countAfter (countOf s.db other t) (listedTypes items) t else countOf s.db other t := by
  rw [updatePlaybookModels, read_bind] at h
  split at h
  case isTrue =>
    have hiterate : iterate (.list items) = .ok items := rfl
    rw [hiterate, lift_ok_bind, run_bind_eq_ok] at h
    obtain ⟨_, u, hadded, h⟩ := h
    simp only [run_bind_eq_ok, run_lift_eq_ok] at h
    obtain ⟨contentTypes, _, ⟨hcontent, rfl⟩, hremoved⟩ := h
    obtain ⟨hones, hcounts⟩ := importPlaybooks_counts hitems hadded
    obtain ⟨hgone, hcounts'⟩ := removePlaybooks_counts ((List.nodup_dedup _).filter _) hremoved
    rw [hcounts', hcounts]
    simp only [List.mem_filter, mem_storedTypes, Bool.not_eq_true', ← Bool.not_eq_true, mem_listedTypes hitems hcontent]
      at hones hgone ⊢
    by_cases ho : other = resolution
    · subst ho
      by_cases hstored : 0 < countOf s.db other t
      · by_cases hlisted : t ∈ listedTypes items
        · simp [countAfter, hlisted, hones t hlisted hstored]
        · simp [countAfter, hstored, hlisted]
      · simp only [countAfter, hstored]
        simp
        omega
    · simp [ho]
  case isFalse hnothing =>
    obtain ⟨-, rfl⟩ := Prod.mk.inj h
    split
    case isFalse => rfl
    case isTrue ho =>
      subst ho
      simp only [Bool.or_eq_true, not_or, Bool.not_eq_true', Bool.not_eq_false, List.isEmpty_iff] at hnothing
      obtain ⟨hempty, hstored⟩ := hnothing
      have hitems' : items = [] := by simpa [Json.truthy] using hempty
      have hnone : ¬0 < countOf s.db other t := by
        rw [← mem_storedTypes, hstored]
        simp
      rw [countAfter, if_neg hnone, hitems']
      simp only [listedTypes, List.filterMap_nil, List.count_nil]
      omega

def hasResolution (row : ContentRow) : Bool :=
  ((row.get? "resolution").getD .null).truthy && ((row.get? "resolution_risk").getD .null).truthy

def resolutionKey (env : Environment) (db : Database) (row : ContentRow) : Option (String × SystemType) :=
  if hasResolution row then
    match getSystemType env db row with
    | .ok systemType => some (row.ruleId, systemType)
    | .error _ => none
  else none

def listed (row : ContentRow) : List String :=
  match row.get? "playbooks" with
  | some (.list items) => listedTypes items
  | _ => []

/-- A row that names its rule and, where it has a resolution, lists playbooks with their keys. -/
structure Complete (row : ContentRow) : Prop where
  ruleId : row.ruleId ≠ ""
  playbooks : hasResolution row = true →
    ∃ items, row.get? "playbooks" = some (.list items) ∧ ∀ item ∈ items, (itemType item).isSome

/-- The resolution has the text and the risk of the row. -/
structure Carries (env : Environment) (row : ContentRow) (resolution : Resolution) : Prop where
  text : textOf env.toLibrary ((row.get? "resolution").getD .null) = .ok resolution.resolution
  risk : row.get? "resolution_risk" = some (.str resolution.resolutionRisk)

def ResolutionsUnique (db : Database) : Prop := (db.resolutions.map Resolution.key).Nodup

theorem resolutionKey_eq_some {db : Database} {row : ContentRow} {key : String × SystemType} :
    resolutionKey env db row = some key ↔
      hasResolution row = true ∧ getSystemType env db row = .ok key.2 ∧ key.1 = row.ruleId := by
  unfold resolutionKey
  by_cases h : hasResolution row = true
  · rw [if_pos h]
    cases hsystem : getSystemType env db row with
    | ok systemType =>
      simp only [h, true_and, Option.some.injEq, Except.ok.injEq]
      constructor
      · rintro rfl
        exact ⟨rfl, rfl⟩
      · rintro ⟨rfl, hid⟩
        exact Prod.ext hid.symm rfl
    | error e => simp
  · simp [h]

theorem resolutionKey_congr {db db' : Database} (h : db'.systemTypes = db.systemTypes) (row : ContentRow) :
    resolutionKey env db' row = resolutionKey env db row := by
  simp only [resolutionKey, getSystemType, h]

/-- What a row does to the resolutions and their playbooks. -/
structure Resolves (env : Environment) (row : ContentRow) (s s' : State) : Prop where
  unique : ResolutionsUnique s'.db
  apart : ∀ key, resolutionKey env s.db row ≠ some key →
    (s'.db.resolutions.filter fun old => old.key = key) = (s.db.resolutions.filter fun old => old.key = key) ∧
      ∀ type, countOf s'.db key type = countOf s.db key type
  own : ∀ key, resolutionKey env s.db row = some key →
    (∃ resolution, (s'.db.resolutions.filter fun old => old.key = key) = [resolution] ∧ Carries env row resolution) ∧
      ∀ type, countOf s'.db key type = countAfter (countOf s.db key type) (listed row) type

def storeResolution (resolution : Resolution) (resolutions : List Resolution) : List Resolution :=
  if resolutions.any fun old => old.key = resolution.key then
    resolutions.map fun old => if old.key = resolution.key then resolution else old
  else resolutions ++ [resolution]

theorem keys_storeResolution {resolution : Resolution} {resolutions : List Resolution}
    (h : (resolutions.map Resolution.key).Nodup) : ((storeResolution resolution resolutions).map Resolution.key).Nodup := by
  unfold storeResolution
  split
  case isTrue =>
    have hkeys : (resolutions.map fun old => if old.key = resolution.key then resolution else old).map Resolution.key =
        resolutions.map Resolution.key := by
      rw [List.map_map]
      refine List.map_congr_left fun old _ => ?_
      rw [Function.comp_apply]
      split
      · exact Eq.symm ‹_›
      · rfl
    rw [hkeys]
    exact h
  case isFalse hnone =>
    rw [List.map_append]
    refine h.append (List.nodup_singleton _) ?_
    simpa [List.any_eq_true] using hnone

theorem mem_storeResolution (resolution : Resolution) (resolutions : List Resolution) :
    resolution ∈ storeResolution resolution resolutions := by
  unfold storeResolution
  split
  case isTrue hany =>
    obtain ⟨old, hold, hkey⟩ := List.any_eq_true.mp hany
    exact List.mem_map.mpr ⟨old, hold, by rw [if_pos (by simpa using hkey)]⟩
  case isFalse => simp

theorem filter_storeResolution_self {resolution : Resolution} {resolutions : List Resolution}
    (h : (resolutions.map Resolution.key).Nodup) :
    ((storeResolution resolution resolutions).filter fun old => old.key = resolution.key) = [resolution] := by
  have hmem := mem_storeResolution resolution resolutions
  rw [filter_eq_toList_find? (keys_storeResolution h)]
  cases hfind : (storeResolution resolution resolutions).find? fun old => old.key = resolution.key with
  | none => simpa using List.find?_eq_none.mp hfind resolution hmem
  | some found =>
    have hkey : found.key = resolution.key := by simpa using List.find?_some hfind
    rw [List.inj_on_of_nodup_map (keys_storeResolution h) (List.mem_of_find?_eq_some hfind) hmem hkey]
    rfl

theorem filter_storeResolution_of_ne {resolution : Resolution} {resolutions : List Resolution} {key : String × SystemType}
    (h : resolution.key ≠ key) : ((storeResolution resolution resolutions).filter fun old => old.key = key) =
      resolutions.filter fun old => old.key = key := by
  unfold storeResolution
  split
  case isTrue hany =>
    clear hany
    induction resolutions with
    | nil => rfl
    | cons old rest ih =>
      rw [List.map_cons, List.filter_cons, List.filter_cons, ih]
      by_cases hold : old.key = resolution.key
      · simp [hold, h]
      · simp [hold]
  case isFalse =>
    simp [List.filter_append, h]

theorem cachedRisk_ok {s : State} {value : Json} {name : String} (h : cachedRisk env s value = .ok name) :
    value = .str name := by
  simp only [cachedRisk, bind_eq_ok] at h
  obtain ⟨found, hfound, h⟩ := h
  split at h
  · obtain rfl := Except.ok.inj h
    exact (nameIn_eq_ok.mp hfound).1
  · cases h

theorem updatePlaybookModels_resolutions (resolution : String × SystemType) (content : Json) :
    Keeps (fun s s' : State => s'.db.resolutions = s.db.resolutions) (updatePlaybookModels env resolution content) := by
  have hrefl : Std.Refl fun s s' : State => s'.db.resolutions = s.db.resolutions := ⟨fun _ => rfl⟩
  have htrans : IsTrans State fun s s' : State => s'.db.resolutions = s.db.resolutions :=
    ⟨fun _ _ _ h h' => h'.trans h⟩
  exact updatePlaybookModels_keeps (fun _ _ => rfl) resolution content

theorem storeResolution_resolves {row : ContentRow} {resolution : Resolution} {items : List Json} {s s' : State}
    (hunique : ResolutionsUnique s.db) (hkey : resolutionKey env s.db row = some resolution.key)
    (hcarries : Carries env row resolution) (hitems : row.get? "playbooks" = some (.list items))
    (hlisted : ∀ item ∈ items, (itemType item).isSome)
    (h : updatePlaybookModels env resolution.key (.list items)
      { s with db := { s.db with resolutions := storeResolution resolution s.db.resolutions } } = (.ok (), s')) :
    Resolves env row s s' := by
  have hcounts := updatePlaybookModels_counts hlisted h
  have hresolutions : s'.db.resolutions = storeResolution resolution s.db.resolutions :=
    (updatePlaybookModels_resolutions resolution.key (.list items)).of_eq h
  have hsame : listed row = listedTypes items := by rw [listed, hitems]
  refine ⟨?_, fun key hne => ?_, fun key hown => ?_⟩
  · rw [ResolutionsUnique, hresolutions]
    exact keys_storeResolution hunique
  · have hkey' : resolution.key ≠ key := fun hc => hne (hc ▸ hkey)
    rw [hresolutions]
    refine ⟨filter_storeResolution_of_ne hkey', fun type => ?_⟩
    rw [hcounts, if_neg (Ne.symm hkey')]
    rfl
  · obtain rfl := Option.some.inj (hkey.symm.trans hown)
    rw [hresolutions, hsame]
    refine ⟨⟨_, filter_storeResolution_self hunique, hcarries⟩, fun type => ?_⟩
    rw [hcounts, if_pos rfl]
    rfl

/-- A row with a resolution stores it and brings its playbooks up to date, any other row does nothing here. -/
theorem importResolution_resolves {row : ContentRow} {s s' : State} (hcomplete : Complete row)
    (hunique : ResolutionsUnique s.db) (h : importResolution env row s = (.ok (), s')) : Resolves env row s s' := by
  rw [importResolution, run_bind_eq_ok] at h
  obtain ⟨text, _, hlift, h⟩ := h
  obtain ⟨htext, rfl⟩ := run_lift_eq_ok.mp hlift
  have hresolution := item_eq_ok.mp htext
  rw [run_bind_eq_ok] at h
  obtain ⟨risk, _, hlift', h⟩ := h
  obtain ⟨hrisk, rfl⟩ := run_lift_eq_ok.mp hlift'
  by_cases hhas : risk.truthy = true
  · rw [if_pos hhas, read_bind] at h
    have htruthy : text.truthy = true := by
      by_contra hno
      rw [if_neg hno] at hrisk
      obtain rfl := Except.ok.inj hrisk
      cases hhas
    rw [if_pos htruthy] at hrisk
    have hrow : hasResolution row = true := by
      rw [hasResolution, hresolution, item_eq_ok.mp hrisk, Option.getD_some, Option.getD_some, htruthy, hhas]
      rfl
    simp only [run_bind_eq_ok, run_lift_eq_ok, id_eq] at h
    obtain ⟨systemType, _, ⟨hsystem, rfl⟩, name, _, ⟨hname, rfl⟩, _, _, ⟨-, rfl⟩, stored, _, ⟨hstored, rfl⟩, _, t, hwrite,
      playbooks, _, ⟨hplaybooks, rfl⟩, h⟩ := h
    obtain ⟨items, hitems, hlisted⟩ := hcomplete.playbooks hrow
    obtain rfl := Option.some.inj ((item_eq_ok.mp hplaybooks).symm.trans hitems)
    rw [modify, write, Prod.mk.injEq] at hwrite
    have hkey : resolutionKey env _ row = some (Resolution.key ⟨row.ruleId, systemType, stored, name⟩) :=
      resolutionKey_eq_some.mpr ⟨hrow, hsystem, rfl⟩
    have hcarries : Carries env row ⟨row.ruleId, systemType, stored, name⟩ :=
      ⟨by rw [hresolution]; exact hstored, by rw [item_eq_ok.mp hrisk, cachedRisk_ok hname]⟩
    rw [← hwrite.2] at h
    exact storeResolution_resolves hunique hkey hcarries hitems hlisted h
  · rw [if_neg hhas] at h
    obtain ⟨-, rfl⟩ := Prod.mk.inj h
    have hno : hasResolution row = false := by
      rw [hasResolution, hresolution, Option.getD_some]
      by_cases htruthy : text.truthy = true
      · rw [if_pos htruthy] at hrisk
        rw [item_eq_ok.mp hrisk, Option.getD_some, Bool.eq_false_iff.mpr hhas, Bool.and_false]
      · rw [Bool.eq_false_iff.mpr htruthy, Bool.false_and]
    refine ⟨hunique, fun key _ => ⟨rfl, fun _ => rfl⟩, fun key hkey => ?_⟩
    rw [(resolutionKey_eq_some.mp hkey).1] at hno
    cases hno

end Advisor.Importer.Api
