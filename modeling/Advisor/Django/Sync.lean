import Advisor.Python.Dict

/-! `update_model_from_config`: the rows of a queryset brought in line with a config that is keyed
like them. -/

namespace Django

open Python Relational

/-- A model and the fields a config supplies for it: what they make of no row and of a stored one,
and the key they carry. -/
structure Mapping (κ ρ φ : Type*) where
  key : ρ → κ
  fieldsKey : φ → κ
  create : φ → ρ
  assign : φ → ρ → ρ
  key_create : ∀ fields, key (create fields) = fieldsKey fields
  key_assign : ∀ fields row, key (assign fields row) = fieldsKey fields
  assign_create : ∀ fields, assign fields (create fields) = create fields
  assign_assign : ∀ fields row, assign fields (assign fields row) = assign fields row

def Mapping.whole {κ ρ : Type*} (key : ρ → κ) : Mapping κ ρ ρ where
  key := key
  fieldsKey := key
  create := id
  assign fields _ := fields
  key_create _ := rfl
  key_assign _ _ := rfl
  assign_create _ := rfl
  assign_assign _ _ := rfl

namespace Mapping

variable {κ ρ φ : Type*} [DecidableEq κ] (m : Mapping κ ρ φ)

/-- What a config has for a key; the transformer may have thrown the entry away. -/
def fieldsFor (config : Dict κ (Option φ)) (k : κ) : Option φ := (config.get? k).bind Prod.snd

def updated (config : Dict κ (Option φ)) : List ρ → List ρ
  | [] => []
  | row :: rows =>
    (match fieldsFor config (m.key row) with
      | some fields => if rows.any (fun later => m.key later = m.key row) then row else m.assign fields row
      | none => row) :: updated config rows

def toInsert (config : Dict κ (Option φ)) (rows : List ρ) : List ρ :=
  config.rows.filterMap fun e => if rows.any (fun row => m.key row = e.1) then none else e.2.map m.create

/-- `rows` are those of the queryset, in its order; new rows come last. -/
def updateModelFromConfig (deleteMissing : Bool) (config : Dict κ (Option φ)) (rows : List ρ) : List ρ :=
  if config.rows.isEmpty && !deleteMissing then rows
  else if rows.isEmpty then config.rows.filterMap fun e => e.2.map m.create
  else
    let saved := m.updated config rows ++ m.toInsert config rows
    -- the set difference is taken after the inserts and updates
    if deleteMissing then saved.filter fun row => (config.get? (m.key row)).isSome else saved

def Keyed (config : Dict κ (Option φ)) : Prop :=
  ∀ e ∈ config, ∀ fields, e.2 = some fields → m.fieldsKey fields = e.1

variable {m} {config : Dict κ (Option φ)}

theorem keyed_mapM {ε α κ ρ φ : Type} [DecidableEq κ] {m : Mapping κ ρ φ} {f : κ → α → Except ε φ} {d : Dict κ α}
    {config : Dict κ (Option φ)} (h : (d.mapM fun k a => (f k a).map some) = .ok config)
    (hf : ∀ k a fields, (k, a) ∈ d → f k a = .ok fields → m.fieldsKey fields = k) : m.Keyed config := by
  rintro ⟨k, fields?⟩ he fields hfields
  simp only at hfields
  subst hfields
  obtain ⟨a, ha, hfa⟩ := (Dict.mem_mapM h).mp he
  obtain ⟨fields', hok, hsome⟩ := map_eq_ok.mp hfa
  exact hf k a fields ha (Option.some.inj hsome ▸ hok)

theorem fieldsFor_of_mem {k : κ} {fields : φ} (h : (k, some fields) ∈ config) :
    fieldsFor config k = some fields := by
  rw [fieldsFor, Table.mem_iff_get?.mp h]
  rfl

theorem mem_of_fieldsFor {k : κ} {fields : φ} (h : fieldsFor config k = some fields) :
    (k, some fields) ∈ config := by
  obtain ⟨e, he, hf⟩ := Option.bind_eq_some_iff.mp h
  obtain ⟨hm, hk⟩ := Table.get?_eq_some.mp he
  rwa [← hk, ← hf]

theorem key_updated (hc : m.Keyed config) (rows : List ρ) :
    (m.updated config rows).map m.key = rows.map m.key := by
  induction rows with
  | nil => rfl
  | cons row rows ih =>
    rw [updated, List.map_cons, List.map_cons, ih]
    congr 1
    cases hf : fieldsFor config (m.key row) with
    | none => rfl
    | some fields =>
      by_cases hl : rows.any fun later => m.key later = m.key row
      · simp [hl]
      · simpa [hl, m.key_assign] using hc _ (mem_of_fieldsFor hf) fields rfl

theorem any_key_updated (hc : m.Keyed config) (rows : List ρ) (k : κ) :
    (m.updated config rows).any (fun row => m.key row = k) = rows.any fun row => m.key row = k := by
  have h := congrArg (List.any · fun l => decide (l = k)) (key_updated hc rows)
  simpa [List.any_map, Function.comp_def] using h

theorem updated_of_forall {rows : List ρ}
    (h : ∀ row ∈ rows, ∀ fields, fieldsFor config (m.key row) = some fields → m.assign fields row = row) :
    m.updated config rows = rows := by
  induction rows with
  | nil => rfl
  | cons row rows ih =>
    rw [updated, ih fun r hr => h r (by simp [hr])]
    congr 1
    cases hf : fieldsFor config (m.key row) with
    | none => rfl
    | some fields => simp [h row (by simp) fields hf]

theorem updated_updated (hc : m.Keyed config) (rows : List ρ) :
    m.updated config (m.updated config rows) = m.updated config rows := by
  induction rows with
  | nil => rfl
  | cons row rows ih =>
    have hany := any_key_updated hc rows (m.key row)
    cases hf : fieldsFor config (m.key row) with
    | none => simp [updated, hf, ih]
    | some fields =>
      by_cases hl : rows.any fun later => m.key later = m.key row
      · simp only [hl] at hany
        simp [updated, hf, hl, hany, ih]
      · have hk : m.key (m.assign fields row) = m.key row := by
          rw [m.key_assign, hc _ (mem_of_fieldsFor hf) fields rfl]
        simp only [hl] at hany
        simp [updated, hf, hl, hany, hk, ih, m.assign_assign]

theorem updated_append {xs ys : List ρ} (h : ∀ x ∈ xs, ∀ y ∈ ys, m.key y ≠ m.key x) :
    m.updated config (xs ++ ys) = m.updated config xs ++ m.updated config ys := by
  induction xs with
  | nil => rfl
  | cons x xs ih =>
    have hx : ys.any (fun later => m.key later = m.key x) = false := by
      simpa using h x (by simp)
    rw [List.cons_append, updated, ih fun a ha => h a (by simp [ha])]
    simp [updated, List.any_append, hx]

theorem updated_filter (hc : m.Keyed config) (p : κ → Bool) (rows : List ρ) :
    m.updated config (rows.filter fun row => p (m.key row)) =
      (m.updated config rows).filter fun row => p (m.key row) := by
  induction rows with
  | nil => rfl
  | cons row rows ih =>
    have hhead : ∀ head rest, m.updated config (row :: rows) = head :: rest → m.key head = m.key row := by
      intro head rest h
      have := key_updated hc (row :: rows)
      rw [h] at this
      exact (List.cons.inj this).1
    by_cases hp : p (m.key row) = true
    · have hany : (rows.filter fun row => p (m.key row)).any (fun later => m.key later = m.key row) =
          rows.any fun later => m.key later = m.key row := by
        rw [List.any_filter]
        congr 1
        funext later
        by_cases hk : m.key later = m.key row <;> simp [hk, hp]
      have hk := hhead _ _ rfl
      rw [List.filter_cons, if_pos hp, updated, hany, ih, updated, List.filter_cons, if_pos (by rw [hk]; exact hp)]
    · have hk := hhead _ _ rfl
      rw [List.filter_cons, if_neg hp, ih, updated, List.filter_cons, if_neg (by rw [hk]; exact hp)]

theorem mem_toInsert {rows : List ρ} {row : ρ} :
    row ∈ m.toInsert config rows ↔
      ∃ k fields, (k, some fields) ∈ config ∧ (∀ r ∈ rows, m.key r ≠ k) ∧ m.create fields = row := by
  simp only [toInsert, List.mem_filterMap]
  constructor
  · rintro ⟨⟨k, fields⟩, he, h⟩
    by_cases hk : rows.any fun r => m.key r = k
    · simp [hk] at h
    · rw [if_neg hk] at h
      obtain ⟨f, hf, hr⟩ := Option.map_eq_some_iff.mp h
      simp only at hf
      subst hf
      exact ⟨k, f, he, by simpa using hk, hr⟩
  · rintro ⟨k, fields, he, hk, hr⟩
    refine ⟨(k, some fields), he, ?_⟩
    have hany : (rows.any fun r => decide (m.key r = k)) = false := by simpa using hk
    simp [hany, hr]

/-- The fast paths do what the general path does. -/
theorem updateModelFromConfig_eq (hc : m.Keyed config) (deleteMissing : Bool) (rows : List ρ) :
    m.updateModelFromConfig deleteMissing config rows =
      (m.updated config rows ++ m.toInsert config rows).filter fun row =>
        !deleteMissing || (config.get? (m.key row)).isSome := by
  by_cases hempty : (config.rows.isEmpty && !deleteMissing) = true
  · obtain ⟨hrows, hd⟩ : config.rows = [] ∧ deleteMissing = false := by simpa using hempty
    have hnone : ∀ k, fieldsFor config k = none := by
      intro k
      simp [fieldsFor, Table.get?, hrows]
    rw [updateModelFromConfig, if_pos hempty, updated_of_forall (by simp [hnone])]
    simp [toInsert, hrows, hd]
  · rw [updateModelFromConfig, if_neg hempty]
    cases rows with
    | nil =>
      have hinsert : m.toInsert config [] = config.rows.filterMap fun e => e.2.map m.create := by
        simp [toInsert]
      rw [List.isEmpty_nil, if_pos rfl, updated, List.nil_append, hinsert]
      symm
      rw [List.filter_eq_self]
      intro row hrow
      rw [← hinsert] at hrow
      obtain ⟨k, fields, he, -, rfl⟩ := mem_toInsert.mp hrow
      rw [m.key_create, hc _ he fields rfl, Table.mem_iff_get?.mp he]
      simp
    | cons row rows =>
      cases deleteMissing with
      | true => simp
      | false =>
        simp only [Bool.not_false, Bool.true_or, List.filter_true]
        rfl

theorem key_toInsert (hc : m.Keyed config) {rows : List ρ} {row : ρ} (h : row ∈ m.toInsert config rows) :
    ∃ fields, fieldsFor config (m.key row) = some fields ∧ m.create fields = row ∧
      ∀ r ∈ rows, m.key r ≠ m.key row := by
  obtain ⟨k, fields, he, hk, rfl⟩ := mem_toInsert.mp h
  have hkey : m.key (m.create fields) = k := (m.key_create fields).trans (hc _ he fields rfl)
  rw [hkey]
  exact ⟨fields, fieldsFor_of_mem he, rfl, hk⟩

theorem keys_toInsert_sublist (hc : m.Keyed config) (rows : List ρ) :
    ((m.toInsert config rows).map m.key).Sublist (config.rows.map Prod.fst) := by
  have hsub : ∀ items : List (κ × Option φ), (∀ e ∈ items, e ∈ config) →
      ((items.filterMap fun e => if rows.any (fun row => m.key row = e.1) then none else e.2.map m.create).map
        m.key).Sublist (items.map Prod.fst) := by
    intro items
    induction items with
    | nil => exact fun _ => List.Sublist.slnil
    | cons e items ih =>
      intro hin
      have hrest := ih fun d hd => hin d (List.mem_cons_of_mem _ hd)
      cases hw : if rows.any (fun row => m.key row = e.1) then none else e.2.map m.create with
      | none =>
        simp only [List.filterMap_cons, hw, List.map_cons]
        exact List.Sublist.cons _ hrest
      | some row =>
        have hk : m.key row = e.1 := by
          split at hw
          · cases hw
          · obtain ⟨fields, hf, rfl⟩ := Option.map_eq_some_iff.mp hw
            exact (m.key_create fields).trans (hc e (hin e (by simp)) fields hf)
        simp only [List.filterMap_cons, hw, List.map_cons, hk]
        exact hrest.cons_cons _
  exact hsub config.rows fun _ he => he

theorem nodup_toInsert (hc : m.Keyed config) (rows : List ρ) : (m.toInsert config rows).Nodup :=
  List.Nodup.of_map m.key ((keys_toInsert_sublist hc rows).nodup config.unique)

/-- A synchronised table is left alone by the next synchronisation with the same config. -/
theorem updateModelFromConfig_idem (hc : m.Keyed config) (deleteMissing : Bool) (rows : List ρ) :
    m.updateModelFromConfig deleteMissing config (m.updateModelFromConfig deleteMissing config rows) =
      m.updateModelFromConfig deleteMissing config rows := by
  let kept : κ → Bool := fun k => !deleteMissing || (config.get? k).isSome
  have heq := updateModelFromConfig_eq hc deleteMissing rows
  have hdisjoint : ∀ x ∈ m.updated config rows, ∀ y ∈ m.toInsert config rows, m.key y ≠ m.key x := by
    intro x hx y hy hk
    obtain ⟨-, -, -, hnone⟩ := key_toInsert hc hy
    have hm : m.key x ∈ rows.map m.key := key_updated hc rows ▸ List.mem_map_of_mem hx
    obtain ⟨r, hr, hrk⟩ := List.mem_map.mp hm
    exact hnone r hr (hrk.trans hk.symm)
  have hinserted : m.updated config (m.toInsert config rows) = m.toInsert config rows := by
    apply updated_of_forall
    intro row hrow fields hf
    obtain ⟨f, hf', rfl, -⟩ := key_toInsert hc hrow
    rw [Option.some.inj (hf.symm.trans hf'), m.assign_create]
  have hupdated : m.updated config (m.updateModelFromConfig deleteMissing config rows) =
      m.updateModelFromConfig deleteMissing config rows := by
    rw [heq, updated_filter hc kept, updated_append hdisjoint, updated_updated hc, hinserted]
  have hnothing : m.toInsert config (m.updateModelFromConfig deleteMissing config rows) = [] := by
    rw [List.eq_nil_iff_forall_not_mem]
    intro row hrow
    obtain ⟨k, fields, he, hk, -⟩ := mem_toInsert.mp hrow
    have hkept : kept k = true := by simp [kept, Table.mem_iff_get?.mp he]
    -- every entry of the config has its row by now
    have hthere : k ∈ (m.updated config rows ++ m.toInsert config rows).map m.key := by
      by_cases hr : k ∈ rows.map m.key
      · rw [List.map_append, key_updated hc]
        exact List.mem_append_left _ hr
      · refine List.mem_map.mpr ⟨m.create fields, ?_, (m.key_create fields).trans (hc _ he fields rfl)⟩
        refine List.mem_append_right _ (mem_toInsert.mpr ⟨k, fields, he, ?_, rfl⟩)
        intro r hm hrk
        exact hr (List.mem_map.mpr ⟨r, hm, hrk⟩)
    obtain ⟨r, hr, hrk⟩ := List.mem_map.mp hthere
    refine hk r ?_ hrk
    rw [heq]
    exact List.mem_filter.mpr ⟨hr, by rw [hrk]; exact hkept⟩
  rw [updateModelFromConfig_eq hc, hupdated, hnothing, List.append_nil]
  rw [List.filter_eq_self]
  intro row hrow
  rw [heq] at hrow
  exact (List.mem_filter.mp hrow).2

theorem updateModelFromConfig_again (hc : m.Keyed config) {deleteMissing : Bool} {rows synced : List ρ}
    (h : synced = m.updateModelFromConfig deleteMissing config rows) :
    m.updateModelFromConfig deleteMissing config synced = synced := by
  rw [h, updateModelFromConfig_idem hc]

theorem mem_updated_of_none {rows : List ρ} {row : ρ} (h : row ∈ rows)
    (hf : fieldsFor config (m.key row) = none) : row ∈ m.updated config rows := by
  induction rows with
  | nil => exact absurd h List.not_mem_nil
  | cons head rows ih =>
    rcases List.mem_cons.mp h with rfl | hr
    · simp [updated, hf]
    · exact List.mem_cons_of_mem _ (ih hr)

/-- Of the rows of a key, the last one is given the fields the config has for it. -/
theorem exists_assign_mem_updated {rows : List ρ} {k : κ} {fields : φ} (h : ∃ row ∈ rows, m.key row = k)
    (hf : fieldsFor config k = some fields) :
    ∃ row ∈ rows, m.key row = k ∧ m.assign fields row ∈ m.updated config rows := by
  induction rows with
  | nil => simp at h
  | cons head rows ih =>
    by_cases hl : ∃ later ∈ rows, m.key later = k
    · obtain ⟨row, hr, hk, hin⟩ := ih hl
      exact ⟨row, List.mem_cons_of_mem _ hr, hk, List.mem_cons_of_mem _ hin⟩
    · have hk : m.key head = k := by
        obtain ⟨row, hr, hk⟩ := h
        rcases List.mem_cons.mp hr with rfl | hr
        · exact hk
        · exact absurd ⟨row, hr, hk⟩ hl
      have hany : rows.any (fun later => m.key later = m.key head) = false := by
        rw [hk]
        simpa using hl
      refine ⟨head, List.mem_cons_self, hk, ?_⟩
      rw [updated, hk, hf]
      simp [← hk, hany]

theorem mem_updated {rows : List ρ} {row : ρ} (h : row ∈ m.updated config rows) :
    row ∈ rows ∨ ∃ r ∈ rows, ∃ fields, row = m.assign fields r := by
  induction rows with
  | nil => exact absurd h List.not_mem_nil
  | cons head rows ih =>
    rw [updated, List.mem_cons] at h
    rcases h with h | h
    · cases hf : fieldsFor config (m.key head) with
      | none => exact Or.inl (by simp [h, hf])
      | some fields =>
        by_cases hl : rows.any fun later => m.key later = m.key head
        · exact Or.inl (by simp [h, hf, hl])
        · exact Or.inr ⟨head, by simp, fields, by simp [h, hf, hl]⟩
    · rcases ih h with hr | ⟨r, hr, fields, he⟩
      · exact Or.inl (List.mem_cons_of_mem _ hr)
      · exact Or.inr ⟨r, List.mem_cons_of_mem _ hr, fields, he⟩

theorem mem_updateModelFromConfig (hc : m.Keyed config) {deleteMissing : Bool} {rows : List ρ} {row : ρ}
    (h : row ∈ m.updateModelFromConfig deleteMissing config rows) :
    row ∈ rows ∨ (∃ r ∈ rows, ∃ fields, row = m.assign fields r) ∨ ∃ fields, row = m.create fields := by
  rw [updateModelFromConfig_eq hc] at h
  rcases List.mem_append.mp (List.mem_filter.mp h).1 with hu | hi
  · exact (mem_updated hu).imp_right Or.inl
  · obtain ⟨-, fields, -, -, he⟩ := mem_toInsert.mp hi
    exact Or.inr (Or.inr ⟨fields, he.symm⟩)

theorem updateModelFromConfig_empty (rows : List ρ) :
    m.updateModelFromConfig true (Table.empty : Dict κ (Option φ)) rows = [] := by
  have hc : m.Keyed (Table.empty : Dict κ (Option φ)) := fun e he => absurd he List.not_mem_nil
  rw [updateModelFromConfig_eq hc, List.filter_eq_nil_iff]
  intro row _
  simp [Table.get?, Table.empty]

theorem find?_updated {rows : List ρ} (h : (rows.map m.key).Nodup) (hc : m.Keyed config) (k : κ) :
    (m.updated config rows).find? (fun row => m.key row = k) =
      (rows.find? fun row => m.key row = k).map fun row =>
        match fieldsFor config k with | some fields => m.assign fields row | none => row := by
  induction rows with
  | nil => rfl
  | cons head rows ih =>
    rw [List.map_cons, List.nodup_cons] at h
    have hkeys := key_updated hc (head :: rows)
    rw [updated, List.map_cons, List.map_cons, List.cons.injEq] at hkeys
    rw [updated, List.find?_cons, List.find?_cons, hkeys.1]
    by_cases hk : m.key head = k
    · have hlast : rows.any (fun later => m.key later = m.key head) = false := by simpa using h.1
      simp only [hk, decide_true, Option.map_some, Option.some.injEq]
      rw [hk] at hlast
      cases hf : fieldsFor config k with
      | none => rfl
      | some fields => simp [hlast]
    · simp only [hk, decide_false]
      exact ih h.2

theorem find?_toInsert (hc : m.Keyed config) (rows : List ρ) (k : κ) :
    (m.toInsert config rows).find? (fun row => m.key row = k) =
      if rows.any (fun row => m.key row = k) then none else (fieldsFor config k).map m.create := by
  cases hfind : (m.toInsert config rows).find? fun row => m.key row = k with
  | none =>
    rw [List.find?_eq_none] at hfind
    by_cases hany : rows.any fun row => m.key row = k
    · rw [if_pos hany]
    · rw [if_neg hany]
      cases hf : fieldsFor config k with
      | none => rfl
      | some fields =>
        have hmem := mem_of_fieldsFor hf
        have hin : m.create fields ∈ m.toInsert config rows :=
          mem_toInsert.mpr ⟨k, fields, hmem, by simpa using hany, rfl⟩
        exact absurd (by rw [m.key_create, hc _ hmem fields rfl]; simp) (hfind _ hin)
  | some row =>
    have hk : m.key row = k := by simpa using List.find?_some hfind
    obtain ⟨fields, hf, hcreate, hnone⟩ := key_toInsert hc (List.mem_of_find?_eq_some hfind)
    have hany : rows.any (fun row => m.key row = k) = false := by simpa [hk] using hnone
    rw [hk] at hf
    simp [hany, hf, hcreate]

/-- In a table with unique keys, what becomes of the row of one key. -/
theorem find?_updateModelFromConfig {rows : List ρ} (h : (rows.map m.key).Nodup) (hc : m.Keyed config)
    (deleteMissing : Bool) (k : κ) :
    (m.updateModelFromConfig deleteMissing config rows).find? (fun row => m.key row = k) =
      match fieldsFor config k, rows.find? (fun row => m.key row = k) with
      | some fields, some row => some (m.assign fields row)
      | some fields, none => some (m.create fields)
      | none, found => found.filter fun _ => !deleteMissing || (config.get? k).isSome := by
  have hfilter : ∀ rows : List ρ,
      (rows.filter fun row => !deleteMissing || (config.get? (m.key row)).isSome).find? (fun row => m.key row = k) =
        (rows.find? fun row => m.key row = k).filter fun _ => !deleteMissing || (config.get? k).isSome := by
    intro rows
    induction rows with
    | nil => rfl
    | cons row rows ih =>
      by_cases hk : m.key row = k
      · cases hp : !deleteMissing || (config.get? k).isSome with
        | true => simp [hk, hp, Option.filter]
        | false => simpa [hk, hp] using ih
      · by_cases hp : (!deleteMissing || (config.get? (m.key row)).isSome) = true
        · simpa [hk, hp] using ih
        · rw [List.filter_cons, if_neg hp, ih, List.find?_cons]
          simp [hk]
  rw [updateModelFromConfig_eq hc, hfilter, List.find?_append, find?_updated h hc, find?_toInsert hc]
  cases hf : fieldsFor config k with
  | none =>
    cases hrow : rows.find? fun row => m.key row = k with
    | none => simp
    | some row => simp
  | some fields =>
    have hkept : (config.get? k).isSome := by
      rw [Table.mem_iff_get?.mp (mem_of_fieldsFor hf)]
      rfl
    cases hrow : rows.find? fun row => m.key row = k with
    | none =>
      have hany : rows.any (fun row => m.key row = k) = false := by simpa using hrow
      simp [hany, hkept]
    | some row => simp [hkept]

theorem exists_mem_updateModelFromConfig (hc : m.Keyed config) (deleteMissing : Bool) (rows : List ρ) {k : κ}
    {fields : φ} (hf : fieldsFor config k = some fields) :
    ∃ row ∈ m.updateModelFromConfig deleteMissing config rows,
      row = m.create fields ∨ ∃ r ∈ rows, m.key r = k ∧ row = m.assign fields r := by
  have hmem := mem_of_fieldsFor hf
  have hkept : (config.get? k).isSome := by rw [Table.mem_iff_get?.mp hmem]; rfl
  have hfields : m.fieldsKey fields = k := hc _ hmem fields rfl
  rw [updateModelFromConfig_eq hc]
  by_cases h : ∃ row ∈ rows, m.key row = k
  · obtain ⟨r, hr, hk, hin⟩ := exists_assign_mem_updated h hf
    refine ⟨_, List.mem_filter.mpr ⟨List.mem_append_left _ hin, ?_⟩, Or.inr ⟨r, hr, hk, rfl⟩⟩
    rw [m.key_assign, hfields, hkept, Bool.or_true]
  · refine ⟨_, List.mem_filter.mpr ⟨List.mem_append_right _ (mem_toInsert.mpr ⟨k, fields, hmem, ?_, rfl⟩), ?_⟩,
      Or.inl rfl⟩
    · exact fun r hr hk => h ⟨r, hr, hk⟩
    · rw [m.key_create, hfields, hkept, Bool.or_true]

end Mapping

end Django
