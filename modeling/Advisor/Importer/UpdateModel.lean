import Advisor.Python.Dict
import Advisor.Python.Json

/-! `update_model_from_config` with its bookkeeping: the rows it reads, those it collects to insert and to update, and
the set of fields it updates in all of them. Values that Python takes for equal are one value. -/

namespace Advisor.Importer.UpdateModel

open Python Relational

variable {φ ν α ε : Type} [DecidableEq φ] [DecidableEq ν]

structure Record (φ ν : Type) where
  id : Nat
  get : φ → ν

/-- What the columns of a model make of the values written to them, or the exception that refuses one. An update need
not agree with an insert, but what is stored stays as it is. -/
structure Columns (φ ν ε : Type) where
  insert : φ → ν → Except ε ν
  update : φ → ν → Except ε ν
  default : φ → ν
  null : ν
  constraints : List (φ → ν) → Except ε Unit
  update_inserted : ∀ {field value stored}, insert field value = .ok stored → update field stored = .ok stored
  update_updated : ∀ {field value stored}, update field value = .ok stored → update field stored = .ok stored
  update_default : ∀ field, update field (default field) = .ok (default field)

/-- The rows of a queryset, and the primary key the next row will have. -/
structure Records (columns : Columns φ ν ε) where
  rows : List (Record φ ν)
  nextId : Nat
  unique : (rows.map Record.id).Nodup
  below : ∀ row ∈ rows, row.id < nextId
  kept : ∀ row ∈ rows, ∀ field, columns.update field (row.get field) = .ok (row.get field)

def Record.set (row : Record φ ν) (field : φ) (value : ν) : Record φ ν :=
  { row with get := Function.update row.get field value }

/-- What has been collected while the config is gone through. -/
structure Changes (φ ν : Type) where
  toInsert : List (Dict φ ν) := []
  toUpdate : List (Record φ ν) := []
  updateFields : List φ := []

/-- A field of `update_permute`: the row, the fields that are updated, and whether this row is. -/
def permuteField (state : Record φ ν × List φ × Bool) (item : φ × ν) : Record φ ν × List φ × Bool :=
  if state.1.get item.1 = item.2 then state
  else (state.1.set item.1 item.2, state.2.1.insert item.1, true)

def updatePermute (configRow : Dict φ ν) (databaseRow : Record φ ν) (updateFields : List φ) :
    Record φ ν × List φ × Bool :=
  configRow.rows.foldl permuteField (databaseRow, updateFields, false)

def modelData (keyField : φ) (rows : List (Record φ ν)) : Dict ν (Record φ ν) :=
  Dict.ofEntries (rows.map fun row => (row.get keyField, row))

def visit (model : Dict ν (Record φ ν)) (key : ν) (row : Dict φ ν) (changes : Changes φ ν) : Changes φ ν :=
  match model.get? key with
  | some found =>
    let permuted := updatePermute row found.2 changes.updateFields
    { changes with
      toUpdate := if permuted.2.2 then changes.toUpdate ++ [permuted.1] else changes.toUpdate
      updateFields := permuted.2.1 }
  | none => { changes with toInsert := changes.toInsert ++ [row] }

/-- The config, entry by entry; `none` from the transformer discards one. -/
def visitAll (transformer : α → Except ε (Option (Dict φ ν))) (model : Dict ν (Record φ ν)) :
    List (ν × α) → Changes φ ν → Except ε (Changes φ ν)
  | [], changes => .ok changes
  | entry :: config, changes => do
    match ← transformer entry.2 with
    | none => visitAll transformer model config changes
    | some row => visitAll transformer model config (visit model entry.1 row changes)

def written (convert : φ → ν → Except ε ν) (get : φ → ν) (items : List (φ × ν)) : Except ε (φ → ν) := do
  let items ← items.mapM fun item => (convert item.1 item.2).map fun value => (item.1, value)
  return fun field =>
    match items.find? fun item => item.1 = field with
    | some item => item.2
    | none => get field

/-- The fields supplied are written, and the others stay as they are. -/
def Writes (convert : φ → ν → Except ε ν) (items : List (φ × ν)) (get get' : φ → ν) : Prop :=
  ∀ field,
    match items.find? fun item => item.1 = field with
    | some item => convert field item.2 = .ok (get' field)
    | none => get' field = get field

omit [DecidableEq ν] in
theorem writes_of_written {convert : φ → ν → Except ε ν} {get get' : φ → ν} {items : List (φ × ν)}
    (h : written convert get items = .ok get') : Writes convert items get get' := by
  obtain ⟨converted, hconverted, hget⟩ := bind_eq_ok.mp h
  obtain rfl := Except.ok.inj hget
  have hall := mapM_forall₂ hconverted
  clear h hget hconverted
  intro field
  induction hall with
  | nil => rfl
  | @cons item value items converted hitem _ ih =>
    obtain ⟨stored, hstored, rfl⟩ := map_eq_ok.mp hitem
    by_cases hfield : item.1 = field
    · subst hfield
      simpa [List.find?_cons_of_pos] using hstored
    · simpa [List.find?_cons_of_neg, hfield] using ih

section Write

variable (columns : Columns φ ν ε)

/-- `model_class(**row)`, inserted: fields that are not supplied have their defaults. -/
def newRows : Nat → List (Dict φ ν) → Except ε (List (Record φ ν))
  | _, [] => .ok []
  | id, row :: rest => do
    let get ← written columns.insert columns.default row.rows
    let rows ← newRows (id + 1) rest
    return ⟨id, get⟩ :: rows

omit [DecidableEq ν] in
variable {columns} in
theorem newRows_spec {id : Nat} {new : List (Dict φ ν)} {rows : List (Record φ ν)} (h : newRows columns id new = .ok rows) :
    rows.map Record.id = List.range' id new.length ∧
      new.Forall₂ (fun supplied row => Writes columns.insert supplied.rows columns.default row.get) rows := by
  induction new generalizing id rows with
  | nil =>
    obtain rfl := Except.ok.inj h
    exact ⟨rfl, .nil⟩
  | cons supplied new ih =>
    obtain ⟨get, hget, h⟩ := bind_eq_ok.mp h
    obtain ⟨later, hlater, h⟩ := bind_eq_ok.mp h
    obtain rfl := Except.ok.inj h
    obtain ⟨hids, hwrites⟩ := ih hlater
    refine ⟨?_, .cons (writes_of_written hget) hwrites⟩
    rw [List.map_cons, hids, List.length_cons, List.range'_succ]

omit [DecidableEq ν] in
variable {columns} in
theorem newRows_id {id : Nat} {new : List (Dict φ ν)} {rows : List (Record φ ν)} (h : newRows columns id new = .ok rows)
    {row : Record φ ν} (hrow : row ∈ rows) : id ≤ row.id ∧ row.id < id + new.length := by
  have hid := List.mem_map_of_mem (f := Record.id) hrow
  rw [(newRows_spec h).1, List.mem_range'_1] at hid
  exact hid

omit [DecidableEq ν] in
variable {columns} in
theorem newRows_kept {id : Nat} {new : List (Dict φ ν)} {rows : List (Record φ ν)} (h : newRows columns id new = .ok rows)
    {row : Record φ ν} (hrow : row ∈ rows) (field : φ) : columns.update field (row.get field) = .ok (row.get field) := by
  obtain ⟨supplied, -, hwrites⟩ := forall₂_exists (newRows_spec h).2 hrow
  have hfield := hwrites field
  split at hfield
  · exact columns.update_inserted hfield
  · rw [hfield]
    exact columns.update_default field

def bulkCreate (new : List (Dict φ ν)) (t : Records columns) : Except ε (Records columns) :=
  if new.isEmpty then .ok t
  else
    match hnew : newRows columns t.nextId new with
    | .error e => .error e
    | .ok rows => do
      columns.constraints ((t.rows ++ rows).map Record.get)
      .ok {
        rows := t.rows ++ rows
        nextId := t.nextId + new.length
        unique := by
          rw [List.map_append, List.nodup_append]
          refine ⟨t.unique, by rw [(newRows_spec hnew).1]; exact List.nodup_range', ?_⟩
          intro id hid other hother heq
          obtain ⟨row, hrow, rfl⟩ := List.mem_map.mp hid
          obtain ⟨new, hin, rfl⟩ := List.mem_map.mp hother
          have := t.below row hrow
          have := (newRows_id hnew hin).1
          omega
        below := fun row hrow => by
          rcases List.mem_append.mp hrow with hrow | hrow
          · have := t.below row hrow
            omega
          · exact (newRows_id hnew hrow).2
        kept := fun row hrow => by
          rcases List.mem_append.mp hrow with hrow | hrow
          · exact t.kept row hrow
          · exact newRows_kept hnew hrow }

/-- A row of `bulk_update`: of every row to update, the fields named are written, with what the row has for them. -/
def updateRow (toUpdate : List (Record φ ν)) (updateFields : List φ) (row : Record φ ν) : Except ε (Record φ ν) :=
  match toUpdate.find? fun other => other.id = row.id with
  | some other =>
    (written columns.update row.get (updateFields.map fun field => (field, other.get field))).map fun get =>
      { row with get }
  | none => .ok row

omit [DecidableEq ν] in
variable {columns} in
theorem updateRow_spec {toUpdate : List (Record φ ν)} {updateFields : List φ} {row row' other : Record φ ν}
    (hother : (toUpdate.find? fun other => other.id = row.id) = some other)
    (h : updateRow columns toUpdate updateFields row = .ok row') :
    row'.id = row.id ∧ ∀ field,
      (field ∈ updateFields → columns.update field (other.get field) = .ok (row'.get field)) ∧
        (field ∉ updateFields → row'.get field = row.get field) := by
  rw [updateRow, hother] at h
  obtain ⟨get, hget, rfl⟩ := map_eq_ok.mp h
  refine ⟨rfl, fun field => ?_⟩
  have hwrites := writes_of_written hget field
  cases hfind : (updateFields.map fun field => (field, other.get field)).find? fun item => item.1 = field with
  | none =>
    rw [hfind] at hwrites
    refine ⟨fun hin => ?_, fun _ => hwrites⟩
    have hne := List.find?_eq_none.mp hfind (field, other.get field) (List.mem_map_of_mem hin)
    exact absurd (by simp) hne
  | some item =>
    rw [hfind] at hwrites
    obtain ⟨updated, hin, rfl⟩ := List.mem_map.mp (List.mem_of_find?_eq_some hfind)
    obtain rfl : updated = field := by simpa using List.find?_some hfind
    exact ⟨fun _ => hwrites, fun hnot => absurd hin hnot⟩

omit [DecidableEq ν] in
variable {columns} in
theorem updateRow_of_none {toUpdate : List (Record φ ν)} (updateFields : List φ) {row : Record φ ν}
    (h : (toUpdate.find? fun other => other.id = row.id) = none) : updateRow columns toUpdate updateFields row = .ok row := by
  rw [updateRow, h]

omit [DecidableEq ν] in
variable {columns} in
theorem updateRow_id {toUpdate : List (Record φ ν)} {updateFields : List φ} {row row' : Record φ ν}
    (h : updateRow columns toUpdate updateFields row = .ok row') : row'.id = row.id := by
  cases hother : toUpdate.find? fun other => other.id = row.id with
  | none =>
    rw [updateRow_of_none updateFields hother] at h
    rw [Except.ok.inj h]
  | some other => exact (updateRow_spec hother h).1

omit [DecidableEq ν] in
variable {columns} in
theorem updateRow_kept {toUpdate : List (Record φ ν)} {updateFields : List φ} {row row' : Record φ ν}
    (h : updateRow columns toUpdate updateFields row = .ok row')
    (hkept : ∀ field, columns.update field (row.get field) = .ok (row.get field)) (field : φ) :
    columns.update field (row'.get field) = .ok (row'.get field) := by
  cases hother : toUpdate.find? fun other => other.id = row.id with
  | none =>
    rw [updateRow_of_none updateFields hother] at h
    rw [← Except.ok.inj h]
    exact hkept field
  | some other =>
    obtain ⟨hin, hnot⟩ := (updateRow_spec hother h).2 field
    by_cases hfield : field ∈ updateFields
    · exact columns.update_updated (hin hfield)
    · rw [hnot hfield]
      exact hkept field

omit [DecidableEq ν] in
variable {columns} in
theorem map_id_of_updateRow {toUpdate : List (Record φ ν)} {updateFields : List φ} {rows rows' : List (Record φ ν)}
    (h : rows.mapM (updateRow columns toUpdate updateFields) = .ok rows') : rows'.map Record.id = rows.map Record.id := by
  have hall := mapM_forall₂ h
  clear h
  induction hall with
  | nil => rfl
  | cons hrow _ ih => rw [List.map_cons, List.map_cons, ih, updateRow_id hrow]

def bulkUpdate (toUpdate : List (Record φ ν)) (updateFields : List φ) (t : Records columns) : Except ε (Records columns) :=
  if toUpdate.isEmpty then .ok t
  else
    match hrows : t.rows.mapM (updateRow columns toUpdate updateFields) with
    | .error e => .error e
    | .ok rows => do
      columns.constraints (rows.map Record.get)
      .ok {
        rows
        nextId := t.nextId
        unique := by
          rw [map_id_of_updateRow hrows]
          exact t.unique
        below := fun row hrow => by
          obtain ⟨old, hold, hupdate⟩ := (mapM_mem hrows).mp hrow
          rw [updateRow_id hupdate]
          exact t.below old hold
        kept := fun row hrow => by
          obtain ⟨old, hold, hupdate⟩ := (mapM_mem hrows).mp hrow
          exact updateRow_kept hupdate (t.kept old hold) }

variable {columns}

omit [DecidableEq φ] [DecidableEq ν] in
theorem Records.ext {t u : Records columns} (hrows : t.rows = u.rows) (hnext : t.nextId = u.nextId) : t = u := by
  obtain ⟨rows, nextId, _, _, _⟩ := t
  obtain ⟨rows', nextId', _, _, _⟩ := u
  obtain rfl : rows = rows' := hrows
  obtain rfl : nextId = nextId' := hnext
  rfl

def deleteWhere (p : Record φ ν → Bool) (t : Records columns) : Records columns where
  rows := t.rows.filter fun row => !p row
  nextId := t.nextId
  unique := (List.filter_sublist.map _).nodup t.unique
  below row hrow := t.below row (List.mem_of_mem_filter hrow)
  kept row hrow := t.kept row (List.mem_of_mem_filter hrow)

end Write

section

variable (columns : Columns φ ν ε) (keyField : φ) (transformer : α → Except ε (Option (Dict φ ν))) (deleteMissing : Bool)

/-- The rows of the fast path: what the transformer makes of an entry is left out when it is empty, too. -/
def transformed : List (ν × α) → Except ε (List (Dict φ ν))
  | [] => .ok []
  | entry :: config => do
    match ← transformer entry.2 with
    | none => transformed config
    | some row =>
      let rest ← transformed config
      .ok (if row.rows.isEmpty then rest else row :: rest)

/-- A key that the queryset has by then and the config has not; `__in` leaves NULL out. -/
def surplus (config : Dict ν α) (row : Record φ ν) : Bool :=
  row.get keyField ≠ columns.null && (config.get? (row.get keyField)).isNone

def generalPath (config : Dict ν α) (t : Records columns) : Except ε (Records columns) := do
  let changes ← visitAll transformer (modelData keyField t.rows) config.rows {}
  let t ← bulkCreate columns changes.toInsert t
  let t ← bulkUpdate columns changes.toUpdate changes.updateFields t
  .ok (if deleteMissing then deleteWhere (surplus columns keyField config) t else t)

def updateModelFromConfig (config : Option (Dict ν α)) (t : Records columns) : Except ε (Records columns) :=
  match config with
  | none => .ok t
  | some config =>
    if config.rows.isEmpty && !deleteMissing then .ok t
    else if t.rows.isEmpty then transformed transformer config.rows >>= fun new => bulkCreate columns new t
    else generalPath columns keyField transformer deleteMissing config t

end

def assign (supplied : Dict φ ν) (get : φ → ν) (field : φ) : ν :=
  match supplied.get? field with
  | some item => item.2
  | none => get field

variable {columns : Columns φ ν ε} {keyField : φ} {transformer : α → Except ε (Option (Dict φ ν))}

variable (transformer) in
def suppliedBy (a : α) : Option (Dict φ ν) :=
  match transformer a with
  | .ok row => row
  | .error _ => none

/-- An entry that finds a row of the table, with what it supplies. -/
structure Finds (transformer : α → Except ε (Option (Dict φ ν))) (model : Dict ν (Record φ ν)) (entry : ν × α)
    (supplied : Dict φ ν) (row : Record φ ν) : Prop where
  supplied : suppliedBy transformer entry.2 = some supplied
  found : model.get? entry.1 = some (entry.1, row)

variable (transformer) in
def inserted (model : Dict ν (Record φ ν)) (entry : ν × α) : Option (Dict φ ν) :=
  if (model.get? entry.1).isNone then suppliedBy transformer entry.2 else none

/-- What has been collected from the entries, after what had been before. -/
structure Collected (transformer : α → Except ε (Option (Dict φ ν))) (model : Dict ν (Record φ ν))
    (config : List (ν × α)) (changes changes' : Changes φ ν) : Prop where
  toInsert : changes'.toInsert = changes.toInsert ++ config.filterMap (inserted transformer model)
  kept : changes.toUpdate ⊆ changes'.toUpdate
  keptFields : changes.updateFields ⊆ changes'.updateFields
  toUpdate : ∀ row ∈ changes'.toUpdate, row ∈ changes.toUpdate ∨ ∃ entry ∈ config, ∃ supplied old,
    Finds transformer model entry supplied old ∧ row = { old with get := assign supplied old.get }
  updated : ∀ entry ∈ config, ∀ supplied old, Finds transformer model entry supplied old →
    (assign supplied old.get ≠ old.get → { old with get := assign supplied old.get } ∈ changes'.toUpdate) ∧
      ∀ field, assign supplied old.get field ≠ old.get field → field ∈ changes'.updateFields

theorem Collected.nil {model : Dict ν (Record φ ν)} (changes : Changes φ ν) :
    Collected transformer model [] changes changes :=
  ⟨(List.append_nil _).symm, List.Subset.refl _, List.Subset.refl _, fun _ h => Or.inl h, by simp⟩

theorem Collected.trans {model : Dict ν (Record φ ν)} {entry : ν × α} {config : List (ν × α)}
    {first second third : Changes φ ν} (h : Collected transformer model [entry] first second)
    (h' : Collected transformer model config second third) :
    Collected transformer model (entry :: config) first third where
  toInsert := by
    rw [h'.toInsert, h.toInsert, List.append_assoc, ← List.filterMap_append]
    rfl
  kept := fun _ hm => h'.kept (h.kept hm)
  keptFields := fun _ hm => h'.keptFields (h.keptFields hm)
  toUpdate row hrow := by
    rcases h'.toUpdate row hrow with hrow | ⟨other, hother, hfinds⟩
    · rcases h.toUpdate row hrow with hrow | ⟨other, hother, hfinds⟩
      · exact Or.inl hrow
      · exact Or.inr ⟨other, by simp [List.mem_singleton.mp hother], hfinds⟩
    · exact Or.inr ⟨other, by simp [hother], hfinds⟩
  updated other hother supplied old hfinds := by
    rcases List.mem_cons.mp hother with rfl | hother
    · obtain ⟨hin, hfields⟩ := h.updated other (by simp) supplied old hfinds
      exact ⟨fun hne => h'.kept (hin hne), fun field hne => h'.keptFields (hfields field hne)⟩
    · exact h'.updated other hother supplied old hfinds

variable {t t' : Records columns} {config : Dict ν α} {deleteMissing : Bool}

variable (keyField) in
def KeysUnique (t : Records columns) : Prop := (t.rows.map fun row => row.get keyField).Nodup

variable (keyField transformer) in
def Carries (config : Dict ν α) : Prop :=
  ∀ entry ∈ config, ∀ supplied, suppliedBy transformer entry.2 = some supplied →
    supplied.get? keyField = some (keyField, entry.1)

omit [DecidableEq φ] in
theorem mem_of_modelData {k : ν} {row : Record φ ν} (h : (modelData keyField t.rows).get? k = some (k, row)) :
    row ∈ t.rows ∧ row.get keyField = k := by
  have hmem := Dict.mem_of_mem_ofEntries (Table.get?_eq_some.mp h).1
  obtain ⟨found, hfound, hpair⟩ := List.mem_map.mp hmem
  obtain ⟨hkey, rfl⟩ := Prod.mk.inj hpair
  exact ⟨hfound, hkey⟩

omit [DecidableEq φ] in
theorem modelData_eq_none {k : ν} (h : (modelData keyField t.rows).get? k = none) :
    ∀ row ∈ t.rows, row.get keyField ≠ k := by
  rintro row hrow rfl
  obtain ⟨other, hget, -⟩ := Dict.exists_get?_ofEntries
    (List.mem_map_of_mem (f := fun row : Record φ ν => (row.get keyField, row)) hrow)
  rw [modelData] at h
  rw [hget] at h
  cases h

variable (transformer config) in
def suppliedFor (k : ν) : Option (Dict φ ν) := (config.get? k).bind fun entry => suppliedBy transformer entry.2

omit [DecidableEq φ] in
theorem suppliedFor_eq_some {k : ν} {supplied : Dict φ ν} (h : suppliedFor transformer config k = some supplied) :
    ∃ a, (k, a) ∈ config ∧ suppliedBy transformer a = some supplied := by
  obtain ⟨entry, hget, hsupplied⟩ := Option.bind_eq_some_iff.mp h
  obtain ⟨hmem, rfl⟩ := Table.get?_eq_some.mp hget
  exact ⟨entry.2, hmem, hsupplied⟩

omit [DecidableEq ν] in
theorem assign_of_find {supplied : Dict φ ν} {get : φ → ν} {field : φ} {item : φ × ν}
    (h : (supplied.rows.find? fun item => item.1 = field) = some item) : assign supplied get field = item.2 := by
  have hget : supplied.get? field = some item := h
  rw [assign, hget]

omit [DecidableEq ν] in
theorem assign_of_none {supplied : Dict φ ν} (get : φ → ν) {field : φ}
    (h : (supplied.rows.find? fun item => item.1 = field) = none) : assign supplied get field = get field := by
  have hget : supplied.get? field = none := h
  rw [assign, hget]

variable (columns keyField transformer config) in
/-- A stored row with what the config supplies for its key. -/
structure Brought (row row' : Record φ ν) : Prop where
  id : row'.id = row.id
  supplied : ∀ supplied, suppliedFor transformer config (row.get keyField) = some supplied →
    Writes columns.update supplied.rows row.get row'.get
  same : suppliedFor transformer config (row.get keyField) = none → row' = row

theorem Brought.key {row row' : Record φ ν} (h : Brought columns keyField transformer config row row')
    (hcarries : Carries keyField transformer config) (hrow : row ∈ t.rows) : row'.get keyField = row.get keyField := by
  cases hsupplied : suppliedFor transformer config (row.get keyField) with
  | none => rw [h.same hsupplied]
  | some supplied =>
    obtain ⟨a, hmem, ha⟩ := suppliedFor_eq_some hsupplied
    have hkey : (supplied.rows.find? fun item => item.1 = keyField) = some (keyField, row.get keyField) :=
      hcarries _ hmem supplied ha
    have hwrites := h.supplied supplied hsupplied keyField
    rw [hkey] at hwrites
    dsimp only at hwrites
    rw [t.kept row hrow] at hwrites
    exact (Except.ok.inj hwrites).symm

variable (columns keyField transformer) in
/-- The config is keyed like the model: the column of the key stores its keys as they are. -/
def KeysKept (config : Dict ν α) : Prop :=
  ∀ entry ∈ config, ∀ supplied, suppliedBy transformer entry.2 = some supplied →
    columns.insert keyField entry.1 = .ok entry.1

theorem inserted_spec {model : Dict ν (Record φ ν)} {entry : ν × α} {supplied : Dict φ ν} (h : Carries keyField transformer config)
    (hentry : entry ∈ config) (hinserted : inserted transformer model entry = some supplied) (get : φ → ν) :
    model.get? entry.1 = none ∧ suppliedBy transformer entry.2 = some supplied ∧ assign supplied get keyField = entry.1 := by
  rw [inserted] at hinserted
  split at hinserted
  · rename_i hnone
    refine ⟨Option.isNone_iff_eq_none.mp hnone, hinserted, ?_⟩
    rw [assign, h entry hentry supplied hinserted]
  · cases hinserted

theorem newKeys_sublist (h : Carries keyField transformer config) (model : Dict ν (Record φ ν)) (get : φ → ν)
    (entries : List (ν × α)) (hin : ∀ entry ∈ entries, entry ∈ config) :
    ((entries.filterMap (inserted transformer model)).map fun supplied => assign supplied get keyField).Sublist
      (entries.map Prod.fst) := by
  induction entries with
  | nil => exact List.Sublist.slnil
  | cons entry entries ih =>
    have hrest := ih fun other hother => hin other (by simp [hother])
    cases hinserted : inserted transformer model entry with
    | none =>
      rw [List.filterMap_cons_none hinserted, List.map_cons]
      exact hrest.cons _
    | some supplied =>
      rw [List.filterMap_cons_some hinserted, List.map_cons, List.map_cons,
        (inserted_spec h (hin entry (by simp)) hinserted get).2.2]
      exact hrest.cons_cons _

omit [DecidableEq ν] in
theorem inserted_key (hcarries : Carries keyField transformer config) (hkept : KeysKept columns keyField transformer config)
    {entry : ν × α} (hentry : entry ∈ config) {supplied : Dict φ ν} (hsupplied : suppliedBy transformer entry.2 = some supplied)
    {row : Record φ ν} (hwrites : Writes columns.insert supplied.rows columns.default row.get) :
    row.get keyField = entry.1 := by
  have hkey : (supplied.rows.find? fun item => item.1 = keyField) = some (keyField, entry.1) :=
    hcarries entry hentry supplied hsupplied
  have hfield := hwrites keyField
  rw [hkey] at hfield
  dsimp only at hfield
  rw [hkept entry hentry supplied hsupplied] at hfield
  exact (Except.ok.inj hfield).symm

omit [DecidableEq ν] in
theorem bulkCreate_ok {new : List (Dict φ ν)} (h : bulkCreate columns new t = .ok t') :
    ∃ rows, newRows columns t.nextId new = .ok rows ∧ t'.rows = t.rows ++ rows := by
  unfold bulkCreate at h
  split_ifs at h with hempty
  · obtain rfl := Except.ok.inj h
    rw [List.isEmpty_iff.mp hempty]
    exact ⟨[], rfl, (List.append_nil _).symm⟩
  · split at h
    · cases h
    · rename_i rows hnew
      obtain ⟨-, -, h⟩ := bind_eq_ok.mp h
      obtain rfl := Except.ok.inj h
      exact ⟨rows, hnew, rfl⟩

variable (columns keyField transformer config) in
/-- The rows an import of the config leaves, before those that are missing from it are deleted. -/
structure Saved (t : Records columns) (olds news : List (Record φ ν)) : Prop where
  olds : t.rows.Forall₂ (fun row row' => row ∈ t.rows ∧ Brought columns keyField transformer config row row') olds
  news : (config.rows.filterMap (inserted transformer (modelData keyField t.rows))).Forall₂
    (fun supplied row => Writes columns.insert supplied.rows columns.default row.get) news

theorem Saved.unique {olds news : List (Record φ ν)} (h : Saved columns keyField transformer config t olds news)
    (hkeys : KeysUnique keyField t) (hcarries : Carries keyField transformer config)
    (hkept : KeysKept columns keyField transformer config) : ((olds ++ news).map fun row => row.get keyField).Nodup := by
  have hold : olds.map (fun row => row.get keyField) = t.rows.map fun row => row.get keyField :=
    forall₂_map_eq (h.olds.imp fun row row' hrow => hrow.2.key hcarries hrow.1)
  have hnew : news.map (fun row => row.get keyField) =
      (config.rows.filterMap (inserted transformer (modelData keyField t.rows))).map fun supplied =>
        assign supplied columns.default keyField := by
    have hboth := (List.forall₂_and_left _ _).mpr ⟨fun supplied hsupplied => List.mem_filterMap.mp hsupplied, h.news⟩
    refine forall₂_map_eq (hboth.imp fun supplied row hpair => ?_)
    obtain ⟨⟨entry, hentry, hinserted⟩, hwrites⟩ := hpair
    obtain ⟨-, hsupplied, hkey⟩ := inserted_spec hcarries hentry hinserted columns.default
    rw [hkey]
    exact inserted_key hcarries hkept hentry hsupplied hwrites
  rw [List.map_append, hold, hnew, List.nodup_append]
  refine ⟨hkeys, (newKeys_sublist hcarries _ _ _ fun _ hentry => hentry).nodup config.unique, ?_⟩
  intro key hkey other hother heq
  obtain ⟨row, hrow, rfl⟩ := List.mem_map.mp hkey
  obtain ⟨supplied, hsupplied, rfl⟩ := List.mem_map.mp hother
  obtain ⟨entry, hentry, hinserted⟩ := List.mem_filterMap.mp hsupplied
  obtain ⟨hnone, -, hentryKey⟩ := inserted_spec hcarries hentry hinserted columns.default
  exact modelData_eq_none hnone row hrow (heq.trans hentryKey)

omit [DecidableEq ν] in
@[simp] theorem bulkUpdate_nil (updateFields : List φ) (t : Records columns) : bulkUpdate columns [] updateFields t = .ok t := rfl

/-- With no row to find, what is collected is what the fast path creates. -/
theorem visitAll_nil (entries : List (ν × α))
    (h : ∀ entry ∈ entries, ∀ supplied, suppliedBy transformer entry.2 = some supplied → supplied.rows ≠ [])
    (changes : Changes φ ν) :
    visitAll transformer (modelData keyField []) entries changes =
      (transformed transformer entries).map fun new => { changes with toInsert := changes.toInsert ++ new } := by
  induction entries generalizing changes with
  | nil =>
    rw [visitAll, transformed]
    show _ = Except.ok { changes with toInsert := changes.toInsert ++ [] }
    rw [List.append_nil]
  | cons entry entries ih =>
    have hrest := ih fun other hother => h other (by simp [hother])
    rw [visitAll, transformed]
    cases hrow : transformer entry.2 with
    | error e => rfl
    | ok row =>
      cases row with
      | none => exact hrest changes
      | some row =>
        have hne : row.rows.isEmpty = false := by
          simpa using h entry (by simp) row (by rw [suppliedBy, hrow])
        show visitAll transformer (modelData keyField []) entries { changes with toInsert := changes.toInsert ++ [row] } = _
        rw [hrest]
        show _ = (transformed transformer entries >>= fun rest => Except.ok (if row.rows.isEmpty then rest else row :: rest)).map _
        rw [hne]
        cases transformed transformer entries with
        | error e => rfl
        | ok rest =>
          show Except.ok _ = Except.ok _
          simp

omit [DecidableEq ν] in
theorem Carries.rows_ne_nil (h : Carries keyField transformer config) :
    ∀ entry ∈ config.rows, ∀ supplied, suppliedBy transformer entry.2 = some supplied → supplied.rows ≠ [] := by
  intro entry hentry supplied hsupplied hnil
  have hmem := (Table.get?_eq_some.mp (h entry hentry supplied hsupplied)).1
  rw [Table.mem_def, hnil] at hmem
  cases hmem

omit [DecidableEq φ] [DecidableEq ν] in
theorem transformed_entry {entries : List (ν × α)} {new : List (Dict φ ν)} (hnew : transformed transformer entries = .ok new) :
    ∀ supplied ∈ new, ∃ entry ∈ entries, suppliedBy transformer entry.2 = some supplied := by
  induction entries generalizing new with
  | nil =>
    obtain rfl := Except.ok.inj hnew
    simp
  | cons entry entries ih =>
    rw [transformed] at hnew
    obtain ⟨row, hrow, hnew⟩ := bind_eq_ok.mp hnew
    have hrest : ∀ rest, transformed transformer entries = .ok rest → ∀ supplied ∈ rest,
        ∃ other ∈ entry :: entries, suppliedBy transformer other.2 = some supplied := by
      intro rest hrest supplied hsupplied
      obtain ⟨other, hother, heq⟩ := ih hrest supplied hsupplied
      exact ⟨other, List.mem_cons_of_mem _ hother, heq⟩
    cases row with
    | none => exact hrest new hnew
    | some row =>
      obtain ⟨rest, hrest', hcons⟩ := bind_eq_ok.mp hnew
      obtain rfl := Except.ok.inj hcons
      intro supplied hsupplied
      have hcases : supplied = row ∨ supplied ∈ rest := by
        split at hsupplied
        · exact Or.inr hsupplied
        · exact List.mem_cons.mp hsupplied
      rcases hcases with rfl | hsupplied
      · exact ⟨entry, by simp, by rw [suppliedBy, hrow]⟩
      · exact hrest rest hrest' supplied hsupplied

theorem deleteWhere_created (hcarries : Carries keyField transformer config)
    (hkept : KeysKept columns keyField transformer config) {new : List (Dict φ ν)}
    (hnew : transformed transformer config.rows = .ok new) (hrows : t.rows = []) (h : bulkCreate columns new t = .ok t') :
    deleteWhere (surplus columns keyField config) t' = t' := by
  refine Records.ext (List.filter_eq_self.mpr fun row hrow => ?_) rfl
  obtain ⟨created, hcreated, heq⟩ := bulkCreate_ok h
  rw [heq, hrows, List.nil_append] at hrow
  obtain ⟨supplied, hsupplied, hwrites⟩ := forall₂_exists (newRows_spec hcreated).2 hrow
  obtain ⟨entry, hentry, hby⟩ := transformed_entry hnew supplied hsupplied
  have hkey := inserted_key hcarries hkept hentry hby hwrites
  simp [surplus, hkey, Table.mem_iff_get?.mp hentry]

/-- The exits for an empty config and for an empty table come to what the general path does. -/
theorem updateModelFromConfig_eq (hcarries : Carries keyField transformer config)
    (hkept : KeysKept columns keyField transformer config) :
    updateModelFromConfig columns keyField transformer deleteMissing (some config) t =
      generalPath columns keyField transformer deleteMissing config t := by
  simp only [updateModelFromConfig]
  split
  · rename_i hempty
    obtain ⟨hconfig, rfl⟩ : config.rows = [] ∧ deleteMissing = false := by simpa using hempty
    rw [generalPath, hconfig]
    rfl
  split
  · rename_i hempty
    have hrows : t.rows = [] := by simpa using hempty
    rw [generalPath, hrows, visitAll_nil config.rows hcarries.rows_ne_nil]
    cases hnew : transformed transformer config.rows with
    | error e => rfl
    | ok new =>
      show bulkCreate columns new t = (bulkCreate columns ([] ++ new) t >>= fun created =>
        bulkUpdate columns [] [] created >>= fun updated =>
          Except.ok (if deleteMissing then deleteWhere (surplus columns keyField config) updated else updated))
      rw [List.nil_append]
      cases hcreate : bulkCreate columns new t with
      | error e => rfl
      | ok created =>
        show Except.ok created =
          Except.ok (if deleteMissing then deleteWhere (surplus columns keyField config) created else created)
        rw [deleteWhere_created hcarries hkept hnew hrows hcreate, ite_self]
  · rfl

variable (columns transformer config) in
/-- The ways to fail: the transformer raises, a column refuses a value that is supplied, or the table refuses its rows. -/
def Refused (e : ε) : Prop :=
  (∃ entry ∈ config, transformer entry.2 = .error e) ∨
    (∃ entry ∈ config, ∃ supplied, suppliedBy transformer entry.2 = some supplied ∧ ∃ item ∈ supplied.rows,
      columns.insert item.1 item.2 = .error e ∨ columns.update item.1 item.2 = .error e) ∨
    ∃ rows, columns.constraints rows = .error e

theorem Collected.refused {changes : Changes φ ν}
    (h : Collected transformer (modelData keyField t.rows) config.rows {} changes) {other : Record φ ν}
    (hother : other ∈ changes.toUpdate) {field : φ} {e : ε} (herror : columns.update field (other.get field) = .error e) :
    ∃ entry ∈ config, ∃ supplied, suppliedBy transformer entry.2 = some supplied ∧ ∃ item ∈ supplied.rows,
      columns.update item.1 item.2 = .error e := by
  obtain hnil | ⟨entry, hentry, supplied, old, hfinds, rfl⟩ := h.toUpdate other hother
  · cases hnil
  refine ⟨entry, hentry, supplied, hfinds.supplied, ?_⟩
  cases hfind : supplied.rows.find? fun item => item.1 = field with
  | none =>
    have hstored := t.kept old (mem_of_modelData hfinds.found).1 field
    dsimp only at herror
    rw [assign_of_none old.get hfind, hstored] at herror
    cases herror
  | some item =>
    have hfield : item.1 = field := by simpa using List.find?_some hfind
    dsimp only at herror
    rw [assign_of_find hfind, ← hfield] at herror
    exact ⟨item, List.mem_of_find?_eq_some hfind, herror⟩

inductive Scalar where
  | null
  | text (text : String)
  | number (n : Int)
  deriving DecidableEq

inductive ImpactField where
  | name
  | impact
  deriving DecidableEq

/-- A `CharField` stores the text of what it is given; the cast of an update cuts it to its length. -/
def charValue (maxLength : Nat) (update : Bool) (text : String) : Except Exception Scalar :=
  if text.toList.contains '\x00' then .error .valueError
  else if text.length ≤ maxLength then .ok (.text text)
  else if update then .ok (.text (String.ofList (text.toList.take maxLength)))
  else .error .dataError

def smallIntegerValue (n : Int) : Except Exception Scalar :=
  if 0 ≤ n ∧ n < 2 ^ 15 then .ok (.number n) else .error .dataError

def impactValue (update : Bool) : ImpactField → Scalar → Except Exception Scalar
  | _, .null => .error .integrityError
  | .name, .text text => charValue 80 update text
  | .name, .number n => charValue 80 update (toString n)
  | .impact, .text text =>
    match text.toInt? with
    | some n => smallIntegerValue n
    | none => .error .valueError
  | .impact, .number n => smallIntegerValue n

theorem charValue_stored {maxLength : Nat} {update : Bool} {text : String} {stored : Scalar}
    (h : charValue maxLength update text = .ok stored) :
    ∃ text, stored = .text text ∧ charValue maxLength true text = .ok stored := by
  unfold charValue at h
  split_ifs at h with hnul hlength hupdate
  · obtain rfl := Except.ok.inj h
    exact ⟨text, rfl, by rw [charValue, if_neg hnul, if_pos hlength]⟩
  · obtain rfl := Except.ok.inj h
    have hcut : ¬(String.ofList (text.toList.take maxLength)).toList.contains '\x00' := by
      rw [String.toList_ofList]
      simp only [List.contains_iff_mem] at hnul ⊢
      exact fun hmem => hnul (List.mem_of_mem_take hmem)
    refine ⟨_, rfl, ?_⟩
    rw [charValue, if_neg hcut, if_pos (by simp)]

theorem impactValue_stored {update : Bool} {field : ImpactField} {value stored : Scalar}
    (h : impactValue update field value = .ok stored) : impactValue true field stored = .ok stored := by
  have hnumber : ∀ n, smallIntegerValue n = .ok stored → impactValue true .impact stored = .ok stored := by
    intro n hn
    unfold smallIntegerValue at hn
    split_ifs at hn with hrange
    obtain rfl := Except.ok.inj hn
    rw [impactValue, smallIntegerValue, if_pos hrange]
  cases field with
  | name =>
    cases value with
    | null => cases h
    | text text =>
      obtain ⟨text, rfl, hstored⟩ := charValue_stored h
      exact hstored
    | number n =>
      obtain ⟨text, rfl, hstored⟩ := charValue_stored h
      exact hstored
  | impact =>
    cases value with
    | null => cases h
    | text text =>
      rw [impactValue] at h
      split at h
      · exact hnumber _ h
      · cases h
    | number n => exact hnumber n h

def impacts : Columns ImpactField Scalar Exception where
  insert := impactValue false
  update := impactValue true
  default
    | .name => .text "None"
    | .impact => .number 0
  null := .null
  constraints rows := if (rows.map fun row => row .name).Nodup then .ok () else .error .integrityError
  update_inserted h := impactValue_stored h
  update_updated h := impactValue_stored h
  update_default field := by cases field <;> decide

def impact (name : Scalar) (impact : Int) : ImpactField → Scalar
  | .name => name
  | .impact => .number impact

def transformConfig (config : List (Scalar × Int)) : Dict Scalar (Dict ImpactField Scalar) :=
  Dict.ofEntries (config.map fun item => (item.1, Dict.ofEntries [(.name, item.1), (.impact, .number item.2)]))

def nullable : Columns Unit (Option Nat) Exception where
  insert _ value := .ok value
  update _ value := .ok value
  default _ := none
  null := none
  constraints _ := .ok ()
  update_inserted _ := rfl
  update_updated _ := rfl
  update_default _ := rfl

end Advisor.Importer.UpdateModel
