import Mathlib.Data.List.Find
import Mathlib.Data.List.Nodup
import Mathlib.Data.List.Perm.Basic

/-! Finite tables whose rows carry a unique key, with the statements a database
runs on them. Lookup by key is the view every later argument uses. -/

namespace Relational

variable {κ ρ : Type*} {key : ρ → κ}

/-- Rows with pairwise different keys. -/
structure Table (key : ρ → κ) where
  rows : List ρ
  unique : (rows.map key).Nodup

/-- What `ON CONFLICT DO UPDATE` makes of the stored and the proposed row. -/
def Merge (key : ρ → κ) := { merge : ρ → ρ → ρ // ∀ old new, key (merge old new) = key new }

def Update (key : ρ → κ) := { update : ρ → ρ // ∀ row, key (update row) = key row }

theorem find?_key_and [DecidableEq κ] {rows : List ρ} (h : (rows.map key).Nodup) (k : κ) (p : ρ → Bool) :
    rows.find? (fun row => key row = k && p row) = (rows.find? fun row => key row = k).filter p := by
  cases hf : rows.find? fun row => key row = k with
  | none =>
    simp only [List.find?_eq_none, decide_eq_true_eq] at hf
    simpa using fun row hrow hk => absurd hk (hf row hrow)
  | some found =>
    have hm := List.mem_of_find?_eq_some hf
    have hk : key found = k := by simpa using List.find?_some hf
    have hcond : ∀ row ∈ rows, (decide (key row = k) && p row) = (decide (key row = k) && p found) := by
      intro row hrow
      by_cases hrk : key row = k
      · rw [List.inj_on_of_nodup_map h hrow hm (hrk.trans hk.symm)]
      · simp [hrk]
    rw [List.find?_congr hcond]
    by_cases hp : p found = true
    · simpa [hp, Option.filter] using hf
    · simp [hp, Option.filter]

namespace Table

instance : Membership ρ (Table key) := ⟨fun t row => row ∈ t.rows⟩

theorem mem_def {t : Table key} {row : ρ} : row ∈ t ↔ row ∈ t.rows := Iff.rfl

def empty : Table key := ⟨[], List.nodup_nil⟩

def single (row : ρ) : Table key := ⟨[row], List.nodup_singleton _⟩

@[simp] theorem mem_single {row r : ρ} : r ∈ (single row : Table key) ↔ r = row := by
  simp [mem_def, single]

/-- Two tables hold the same rows, whatever the order they are stored in. -/
def Same (t u : Table key) : Prop := ∀ row, row ∈ t ↔ row ∈ u

theorem Same.refl (t : Table key) : Same t t := fun _ => Iff.rfl

theorem Same.symm {t u : Table key} (h : Same t u) : Same u t := fun row => (h row).symm

theorem Same.trans {t u v : Table key} (h : Same t u) (h' : Same u v) : Same t v :=
  fun row => (h row).trans (h' row)

theorem key_injOn (t : Table key) {a b : ρ} (ha : a ∈ t) (hb : b ∈ t) (h : key a = key b) : a = b :=
  List.inj_on_of_nodup_map t.unique ha hb h

def deleteWhere (t : Table key) (p : ρ → Bool) : Table key :=
  ⟨t.rows.filter (fun row => !p row), t.unique.sublist (List.filter_sublist.map key)⟩

@[simp] theorem mem_deleteWhere {t : Table key} {p : ρ → Bool} {row : ρ} :
    row ∈ t.deleteWhere p ↔ row ∈ t ∧ p row = false := by
  simp [mem_def, deleteWhere]

theorem deleteWhere_deleteWhere (t : Table key) (p q : ρ → Bool) :
    (t.deleteWhere p).deleteWhere q = t.deleteWhere fun row => p row || q row := by
  simp only [deleteWhere, List.filter_filter, Table.mk.injEq]
  congr 1
  funext row
  cases p row <;> cases q row <;> rfl

theorem deleteWhere_comm (t : Table key) (p q : ρ → Bool) :
    (t.deleteWhere p).deleteWhere q = (t.deleteWhere q).deleteWhere p := by
  rw [deleteWhere_deleteWhere, deleteWhere_deleteWhere]
  congr 1
  funext row
  exact Bool.or_comm _ _

theorem eq_of_rows {t u : Table key} (h : t.rows = u.rows) : t = u := by
  cases t
  cases u
  cases h
  rfl

theorem deleteWhere_of_none {t : Table key} {p : ρ → Bool} (h : ∀ row ∈ t, p row = false) : t.deleteWhere p = t := by
  apply eq_of_rows
  rw [deleteWhere, List.filter_eq_self]
  intro row hrow
  rw [h row hrow]
  rfl

def updateWhere (t : Table key) (p : ρ → Bool) (f : Update key) : Table key where
  rows := t.rows.map fun row => if p row then f.1 row else row
  unique := by
    have h : (key ∘ fun row => if p row then f.1 row else row) = key := by
      funext row
      by_cases hp : p row = true <;> simp [hp, f.2 row]
    simpa only [List.map_map, h] using t.unique

theorem mem_updateWhere {t : Table key} {p : ρ → Bool} {f : Update key} {row : ρ} :
    row ∈ t.updateWhere p f ↔ ∃ old ∈ t, (if p old then f.1 old else old) = row := by
  simp [mem_def, updateWhere]

variable [DecidableEq κ]

def get? (t : Table key) (k : κ) : Option ρ := t.rows.find? fun row => key row = k

theorem get?_eq_some {t : Table key} {k : κ} {row : ρ} :
    t.get? k = some row ↔ row ∈ t ∧ key row = k := by
  constructor
  · intro h
    exact ⟨List.mem_of_find?_eq_some h, by simpa using List.find?_some h⟩
  · rintro ⟨hm, rfl⟩
    cases h : t.get? (key row) with
    | none =>
      have hn := List.find?_eq_none.mp h row hm
      simp at hn
    | some other =>
      have ho := List.find?_some h
      have hmo := List.mem_of_find?_eq_some h
      rw [t.key_injOn hmo hm (by simpa using ho)]

theorem get?_eq_none {t : Table key} {k : κ} : t.get? k = none ↔ ∀ row ∈ t, key row ≠ k := by
  simp [get?, mem_def]

theorem get?_key {t : Table key} {k : κ} {row : ρ} (h : t.get? k = some row) : key row = k :=
  (get?_eq_some.mp h).2

theorem mem_iff_get? {t : Table key} {row : ρ} : row ∈ t ↔ t.get? (key row) = some row := by
  simp [get?_eq_some]

theorem get?_single (row : ρ) (k : κ) :
    (single row : Table key).get? k = if key row = k then some row else none := by
  by_cases h : key row = k <;> simp [get?, single, h]

@[simp] theorem get?_empty (k : κ) : (empty : Table key).get? k = none := rfl

theorem same_iff_get? {t u : Table key} : Same t u ↔ ∀ k, t.get? k = u.get? k := by
  constructor
  · intro h k
    apply Option.ext
    intro row
    simp only [get?_eq_some, h row]
  · intro h row
    rw [mem_iff_get?, mem_iff_get?, h]

theorem get?_deleteWhere (t : Table key) (p : ρ → Bool) (k : κ) :
    (t.deleteWhere p).get? k = (t.get? k).filter fun row => !p row := by
  apply Option.ext
  intro row
  simp only [get?_eq_some, mem_deleteWhere, Option.filter_eq_some_iff, Bool.not_eq_eq_eq_not,
    Bool.not_true]
  tauto

theorem get?_updateWhere (t : Table key) (p : ρ → Bool) (f : Update key) (k : κ) :
    (t.updateWhere p f).get? k = (t.get? k).map fun row => if p row then f.1 row else row := by
  have hkey (row : ρ) : key (if p row then f.1 row else row) = key row := by
    by_cases hp : p row = true <;> simp [hp, f.2 row]
  apply Option.ext
  intro row
  simp only [get?_eq_some, mem_updateWhere, Option.map_eq_some_iff]
  constructor
  · rintro ⟨⟨old, hold, rfl⟩, rfl⟩
    exact ⟨old, ⟨hold, (hkey old).symm⟩, rfl⟩
  · rintro ⟨old, ⟨hold, rfl⟩, rfl⟩
    exact ⟨⟨old, hold, rfl⟩, hkey old⟩

/-- `INSERT`, refused when the key is taken. -/
def insert? (t : Table key) (row : ρ) : Option (Table key) :=
  if h : key row ∈ t.rows.map key then none
  else some ⟨t.rows ++ [row], by
    rw [List.map_append, List.map_singleton]
    exact t.unique.append (List.nodup_singleton _) (by simpa using h)⟩

/-- A multi-row `INSERT`: all rows or none. -/
def insertMany? (t : Table key) (rows : List ρ) : Option (Table key) := rows.foldlM insert? t

theorem insert?_eq_none {t : Table key} {row : ρ} :
    t.insert? row = none ↔ (t.get? (key row)).isSome := by
  rw [Option.isSome_iff_exists]
  constructor
  · intro h
    have hm : key row ∈ t.rows.map key := by
      by_contra hn
      simp [insert?, hn] at h
    obtain ⟨old, hold, hk⟩ := List.mem_map.mp hm
    exact ⟨old, get?_eq_some.mpr ⟨hold, hk⟩⟩
  · rintro ⟨old, hold⟩
    obtain ⟨hm, hk⟩ := get?_eq_some.mp hold
    have hin : key row ∈ t.rows.map key := List.mem_map.mpr ⟨old, hm, hk⟩
    simp [insert?, hin]

theorem exists_insert? {t : Table key} {row : ρ} (h : t.get? (key row) = none) : ∃ u, t.insert? row = some u := by
  cases hrow : t.insert? row with
  | none =>
    have hstored := insert?_eq_none.mp hrow
    rw [h] at hstored
    cases hstored
  | some u => exact ⟨u, rfl⟩

theorem free_of_insert? {t u : Table key} {row : ρ} (h : t.insert? row = some u) : t.get? (key row) = none := by
  have hfree := insert?_eq_none.not.mp (by simp [h] : ¬ t.insert? row = none)
  simpa using hfree

theorem mem_insert? {t u : Table key} {row : ρ} (h : t.insert? row = some u) (r : ρ) :
    r ∈ u ↔ r ∈ t ∨ r = row := by
  by_cases hm : key row ∈ t.rows.map key
  · simp [insert?, hm] at h
  · simp only [insert?, hm, dif_neg, not_false_iff, Option.some.injEq] at h
    simp [mem_def, ← h]

theorem get?_insert? {t u : Table key} {row : ρ} (h : t.insert? row = some u) (k : κ) :
    u.get? k = if key row = k then some row else t.get? k := by
  have hnone : t.get? (key row) = none := free_of_insert? h
  apply Option.ext
  intro r
  by_cases hk : key row = k
  · subst hk
    simp only [if_true, get?_eq_some, mem_insert? h, Option.some.injEq]
    constructor
    · rintro ⟨hr | hr, he⟩
      · exact absurd he (get?_eq_none.mp hnone r hr)
      · exact hr.symm
    · rintro rfl
      exact ⟨Or.inr rfl, rfl⟩
  · simp only [if_neg hk, get?_eq_some, mem_insert? h]
    constructor
    · rintro ⟨hr | rfl, he⟩
      · exact ⟨hr, he⟩
      · exact absurd he hk
    · rintro ⟨hr, he⟩
      exact ⟨Or.inl hr, he⟩

theorem insertMany?_isSome {t : Table key} {rows : List ρ} :
    (t.insertMany? rows).isSome ↔ (rows.map key).Nodup ∧ ∀ row ∈ rows, t.get? (key row) = none := by
  induction rows generalizing t with
  | nil => simp [insertMany?]
  | cons row rows ih =>
    rw [insertMany?, List.foldlM_cons, List.map_cons, List.nodup_cons]
    cases hv : t.insert? row with
    | none =>
      have hstored := insert?_eq_none.mp hv
      simp only [Option.bind_eq_bind, Option.bind_none, Option.isSome_none, Bool.false_eq_true, false_iff, not_and]
      intro _ hall
      rw [hall row (by simp)] at hstored
      cases hstored
    | some v =>
      have hfree : t.get? (key row) = none := free_of_insert? hv
      change (v.insertMany? rows).isSome ↔ _
      rw [ih]
      constructor
      · rintro ⟨hnodup, hall⟩
        have hne : ∀ r ∈ rows, key row ≠ key r := by
          intro r hr he
          have hnone := hall r hr
          rw [get?_insert? hv, if_pos he] at hnone
          cases hnone
        refine ⟨⟨?_, hnodup⟩, ?_⟩
        · intro hm
          obtain ⟨r, hr, he⟩ := List.mem_map.mp hm
          exact hne r hr he.symm
        · intro r hr
          rcases List.mem_cons.mp hr with rfl | hr'
          · exact hfree
          · have hnone := hall r hr'
            rwa [get?_insert? hv, if_neg (hne r hr')] at hnone
      · rintro ⟨⟨hnot, hnodup⟩, hall⟩
        refine ⟨hnodup, ?_⟩
        intro r hr
        have hne : key row ≠ key r := fun he => hnot (he ▸ List.mem_map.mpr ⟨r, hr, rfl⟩)
        rw [get?_insert? hv, if_neg hne]
        exact hall r (by simp [hr])

theorem get?_insertMany? {t u : Table key} {rows : List ρ} (h : t.insertMany? rows = some u) (k : κ) :
    u.get? k = (rows.find? fun row => key row = k).or (t.get? k) := by
  induction rows generalizing t with
  | nil =>
    obtain rfl : t = u := by simpa [insertMany?] using h
    rfl
  | cons row rows ih =>
    rw [insertMany?, List.foldlM_cons] at h
    obtain ⟨v, hv, hu⟩ := Option.bind_eq_some_iff.mp h
    change v.insertMany? rows = some u at hu
    rw [ih hu, get?_insert? hv, List.find?_cons]
    by_cases hk : key row = k
    · have hnone : rows.find? (fun r => key r = k) = none := by
        cases hf : rows.find? fun r => key r = k with
        | none => rfl
        | some r =>
          have hmem : (v.get? k).isSome := by rw [get?_insert? hv, if_pos hk]; rfl
          have hnone := (insertMany?_isSome.mp (by rw [hu]; rfl)).2 r (List.mem_of_find?_eq_some hf)
          rw [show key r = k by simpa using List.find?_some hf] at hnone
          simp [hnone] at hmem
      simp [hk, hnone]
    · simp [hk]

theorem rows_insertMany? {t u : Table key} {rows : List ρ} (h : t.insertMany? rows = some u) :
    u.rows = t.rows ++ rows := by
  induction rows generalizing t with
  | nil =>
    obtain rfl : t = u := by simpa [insertMany?] using h
    rw [List.append_nil]
  | cons row rows ih =>
    rw [insertMany?, List.foldlM_cons] at h
    obtain ⟨v, hv, hu⟩ := Option.bind_eq_some_iff.mp h
    have hrows : v.rows = t.rows ++ [row] := by
      by_cases hm : key row ∈ t.rows.map key
      · simp [insert?, hm] at hv
      · simp only [insert?, hm, dif_neg, not_false_iff, Option.some.injEq] at hv
        rw [← hv]
    rw [ih hu, hrows, List.append_assoc, List.singleton_append]

theorem mem_insertMany? {t u : Table key} {rows : List ρ} (h : t.insertMany? rows = some u) {row : ρ} :
    row ∈ u ↔ row ∈ t ∨ row ∈ rows := by
  obtain ⟨hnodup, hfree⟩ := insertMany?_isSome.mp (by rw [h]; rfl)
  rw [mem_iff_get?, get?_insertMany? h]
  cases hfound : rows.find? fun r => key r = key row with
  | none =>
    rw [Option.none_or, ← mem_iff_get?]
    refine (or_iff_left fun hnew => ?_).symm
    have hmiss := List.find?_eq_none.mp hfound row hnew
    simp at hmiss
  | some r =>
    have hr := List.mem_of_find?_eq_some hfound
    have hkey : key r = key row := by simpa using List.find?_some hfound
    rw [Option.some_or, Option.some.injEq]
    constructor
    · rintro rfl
      exact Or.inr hr
    · rintro (hrow | hrow)
      · have hnone := hfree r hr
        rw [hkey, mem_iff_get?.mp hrow] at hnone
        cases hnone
      · exact List.inj_on_of_nodup_map hnodup hr hrow hkey

def upsert (t : Table key) (merge : Merge key) (row : ρ) : Table key where
  rows := t.rows.filter (fun r => key r ≠ key row) ++
    [match t.get? (key row) with | some old => merge.1 old row | none => row]
  unique := by
    have hk : key (match t.get? (key row) with | some old => merge.1 old row | none => row) =
        key row := by
      cases t.get? (key row) with
      | none => rfl
      | some old => exact merge.2 old row
    rw [List.map_append, List.map_singleton, hk]
    refine (t.unique.sublist (List.filter_sublist.map key)).append (List.nodup_singleton _) ?_
    simp

theorem get?_upsert (t : Table key) (merge : Merge key) (row : ρ) (k : κ) :
    (t.upsert merge row).get? k =
      if key row = k then some (match t.get? k with | some old => merge.1 old row | none => row)
      else t.get? k := by
  have hkey : key (match t.get? (key row) with | some old => merge.1 old row | none => row) =
      key row := by
    cases t.get? (key row) with
    | none => rfl
    | some old => exact merge.2 old row
  apply Option.ext
  intro r
  by_cases hk : key row = k
  · subst hk
    simp only [get?_eq_some, mem_def, upsert, List.mem_append, List.mem_filter, List.mem_singleton,
      decide_eq_true_eq, if_true, Option.some.injEq]
    constructor
    · rintro ⟨⟨_, hn⟩ | hr, he⟩
      · exact absurd he hn
      · exact hr.symm
    · intro hr
      exact ⟨Or.inr hr.symm, hr ▸ hkey⟩
  · simp only [get?_eq_some, mem_def, upsert, List.mem_append, List.mem_filter, List.mem_singleton,
      decide_eq_true_eq, if_neg hk]
    constructor
    · rintro ⟨⟨hr, _⟩ | hr, he⟩
      · exact ⟨hr, he⟩
      · exact absurd (by rw [← he, hr, hkey]) hk
    · rintro ⟨hr, he⟩
      exact ⟨Or.inl ⟨hr, fun h => hk (h.symm.trans he)⟩, he⟩

/-- A multi-row upsert in one statement: the database refuses to touch a row twice. -/
def upsertMany? (t : Table key) (merge : Merge key) (rows : List ρ) : Option (Table key) :=
  if (rows.map key).Nodup then some (rows.foldl (fun t row => t.upsert merge row) t) else none

theorem get?_foldl_upsert (t : Table key) (merge : Merge key) (rows : List ρ)
    (h : (rows.map key).Nodup) (k : κ) :
    (rows.foldl (fun t row => t.upsert merge row) t).get? k =
      match rows.find? (fun row => key row = k) with
      | some row => some (match t.get? k with | some old => merge.1 old row | none => row)
      | none => t.get? k := by
  induction rows generalizing t with
  | nil => rfl
  | cons row rows ih =>
    rw [List.map_cons, List.nodup_cons] at h
    rw [List.foldl_cons, ih _ h.2, List.find?_cons]
    by_cases hk : key row = k
    · have hnone : rows.find? (fun r => key r = k) = none := by
        simp only [List.find?_eq_none, decide_eq_true_eq]
        intro r hr he
        exact h.1 (List.mem_map.mpr ⟨r, hr, he.trans hk.symm⟩)
      simp only [hnone, get?_upsert, hk, if_true, decide_true]
    · simp only [get?_upsert, hk, if_false, decide_false]

theorem get?_upsertMany? {t u : Table key} {merge : Merge key} {rows : List ρ}
    (h : t.upsertMany? merge rows = some u) (k : κ) :
    u.get? k =
      match rows.find? (fun row => key row = k) with
      | some row => some (match t.get? k with | some old => merge.1 old row | none => row)
      | none => t.get? k := by
  by_cases hn : (rows.map key).Nodup
  · simp only [upsertMany?, hn, if_true, Option.some.injEq] at h
    rw [← h, get?_foldl_upsert t merge rows hn]
  · simp [upsertMany?, hn] at h

theorem upsertMany?_same {t u v : Table key} {merge : Merge key} {rows rows' : List ρ}
    (h : ∀ row, row ∈ rows ↔ row ∈ rows') (hu : t.upsertMany? merge rows = some u)
    (hv : t.upsertMany? merge rows' = some v) : Same u v := by
  have hn : (rows.map key).Nodup := by
    by_contra hc
    simp [upsertMany?, hc] at hu
  have hn' : (rows'.map key).Nodup := by
    by_contra hc
    simp [upsertMany?, hc] at hv
  have hsame : Same (⟨rows, hn⟩ : Table key) ⟨rows', hn'⟩ := h
  rw [same_iff_get?]
  intro k
  have hfind : rows.find? (fun row => key row = k) = rows'.find? fun row => key row = k :=
    same_iff_get?.mp hsame k
  rw [get?_upsertMany? hu, get?_upsertMany? hv, hfind]

theorem upsertMany?_isSome (t : Table key) (merge : Merge key) (rows : List ρ) :
    (t.upsertMany? merge rows).isSome ↔ (rows.map key).Nodup := by
  by_cases h : (rows.map key).Nodup <;> simp [upsertMany?, h]

end Table

end Relational
