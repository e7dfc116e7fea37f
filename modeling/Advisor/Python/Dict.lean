import Advisor.Python.Raise
import Advisor.Relational.Table
import Mathlib.Data.List.Induction

/-! Dictionaries as comprehensions build them: a key stands where it was first seen, with the
value it was given last. -/

namespace Python

open Relational

variable {κ α : Type*}

abbrev Dict (κ α : Type*) := Table (Prod.fst : κ × α → κ)

namespace Dict

variable [DecidableEq κ]

def setItems (k : κ) (a : α) : List (κ × α) → List (κ × α)
  | [] => [(k, a)]
  | e :: items => if e.1 = k then (k, a) :: items else e :: setItems k a items

theorem mem_keys_setItems {k l : κ} {a : α} {items : List (κ × α)} :
    l ∈ (setItems k a items).map Prod.fst ↔ l = k ∨ l ∈ items.map Prod.fst := by
  induction items with
  | nil => simp [setItems]
  | cons e items ih =>
    by_cases he : e.1 = k
    · simp [setItems, he]
    · rw [setItems, if_neg he, List.map_cons, List.mem_cons, ih, List.map_cons, List.mem_cons]
      exact or_left_comm

theorem nodup_setItems {k : κ} {a : α} {items : List (κ × α)} (h : (items.map Prod.fst).Nodup) :
    ((setItems k a items).map Prod.fst).Nodup := by
  induction items with
  | nil => exact List.nodup_singleton k
  | cons e items ih =>
    rw [List.map_cons, List.nodup_cons] at h
    by_cases he : e.1 = k
    · rw [setItems, if_pos he, List.map_cons, List.nodup_cons]
      exact ⟨he ▸ h.1, h.2⟩
    · rw [setItems, if_neg he, List.map_cons, List.nodup_cons]
      refine ⟨fun hm => ?_, ih h.2⟩
      rcases mem_keys_setItems.mp hm with hk | hm
      · exact he hk
      · exact h.1 hm

theorem find?_setItems {k l : κ} {a : α} {items : List (κ × α)} :
    (setItems k a items).find? (fun e => e.1 = l) =
      if k = l then some (k, a) else items.find? fun e => e.1 = l := by
  induction items with
  | nil => by_cases hk : k = l <;> simp [setItems, hk]
  | cons e items ih =>
    by_cases he : e.1 = k
    · by_cases hk : k = l
      · simp [setItems, he, hk]
      · simp [setItems, he, hk]
    · by_cases hl : e.1 = l
      · have hk : k ≠ l := fun hk => he (hl.trans hk.symm)
        rw [setItems, if_neg he]
        simp [hl, hk]
      · simp [setItems, he, hl, ih]

def set (d : Dict κ α) (k : κ) (a : α) : Dict κ α := ⟨setItems k a d.rows, nodup_setItems d.unique⟩

theorem get?_set (d : Dict κ α) (k l : κ) (a : α) :
    (d.set k a).get? l = if k = l then some (k, a) else d.get? l := find?_setItems

def ofEntries (entries : List (κ × α)) : Dict κ α :=
  entries.foldl (fun d e => d.set e.1 e.2) Table.empty

theorem ofEntries_concat (entries : List (κ × α)) (e : κ × α) :
    ofEntries (entries ++ [e]) = (ofEntries entries).set e.1 e.2 := by
  simp [ofEntries]

/-- The last entry of a key stands in the dictionary. -/
theorem get?_ofEntries (entries : List (κ × α)) (k : κ) :
    (ofEntries entries).get? k = entries.reverse.find? fun e => e.1 = k := by
  induction entries using List.reverseRecOn with
  | nil => rfl
  | append_singleton entries e ih =>
    rw [ofEntries_concat, get?_set, ih, List.reverse_concat, List.find?_cons]
    by_cases he : e.1 = k
    · subst he
      simp
    · simp [he]

theorem mem_of_mem_ofEntries {entries : List (κ × α)} {e : κ × α} (h : e ∈ ofEntries entries) :
    e ∈ entries := by
  rw [Table.mem_iff_get?, get?_ofEntries] at h
  exact List.mem_reverse.mp (List.mem_of_find?_eq_some h)

theorem exists_get?_ofEntries {entries : List (κ × α)} {e : κ × α} (h : e ∈ entries) :
    ∃ a, (ofEntries entries).get? e.1 = some (e.1, a) ∧ (e.1, a) ∈ entries := by
  obtain ⟨found, hf⟩ : ∃ found, entries.reverse.find? (fun d => d.1 = e.1) = some found := by
    rw [← Option.isSome_iff_exists, List.find?_isSome]
    exact ⟨e, List.mem_reverse.mpr h, by simp⟩
  have hk : found.1 = e.1 := by simpa using List.find?_some hf
  refine ⟨found.2, ?_, ?_⟩
  · rw [get?_ofEntries, hf, ← hk]
  · rw [← hk]
    exact List.mem_reverse.mp (List.mem_of_find?_eq_some hf)

/-- `{k: f(k, a) for k, a in d.items()}`. -/
def map {β : Type*} (f : κ → α → β) (d : Dict κ α) : Dict κ β :=
  ⟨d.rows.map fun e => (e.1, f e.1 e.2), by simpa [Function.comp_def] using d.unique⟩

omit [DecidableEq κ] in
theorem mem_map {β : Type*} {f : κ → α → β} {d : Dict κ α} {e : κ × β} :
    e ∈ d.map f ↔ ∃ a, (e.1, a) ∈ d ∧ f e.1 a = e.2 := by
  rw [Table.mem_def, map, List.mem_map]
  constructor
  · rintro ⟨⟨k, a⟩, h, rfl⟩
    exact ⟨a, h, rfl⟩
  · rintro ⟨a, h, he⟩
    exact ⟨(e.1, a), h, by rw [he]⟩

section Raise

variable {ε κ α β : Type} [DecidableEq κ] {f : κ → α → Except ε β} {d : Dict κ α} {d' : Dict κ β}

def mapM (f : κ → α → Except ε β) (d : Dict κ α) : Except ε (Dict κ β) :=
  (d.rows.mapM fun e => (f e.1 e.2).map fun b => (e.1, b)).map ofEntries

theorem mem_mapM (h : d.mapM f = .ok d') {e : κ × β} :
    e ∈ d' ↔ ∃ a, (e.1, a) ∈ d ∧ f e.1 a = .ok e.2 := by
  obtain ⟨items, hitems, rfl⟩ := map_eq_ok.mp h
  have hmem : ∀ e, e ∈ items ↔ ∃ a, (e.1, a) ∈ d ∧ f e.1 a = .ok e.2 := by
    intro e
    rw [mapM_mem hitems]
    constructor
    · rintro ⟨⟨k, a⟩, hm, he⟩
      obtain ⟨b, hb, rfl⟩ := map_eq_ok.mp he
      exact ⟨a, hm, hb⟩
    · rintro ⟨a, hm, hb⟩
      exact ⟨(e.1, a), hm, map_eq_ok.mpr ⟨e.2, hb, rfl⟩⟩
  constructor
  · intro he
    exact (hmem e).mp (mem_of_mem_ofEntries he)
  · rintro ⟨a, ha, hb⟩
    obtain ⟨b, hget, hm⟩ := exists_get?_ofEntries ((hmem e).mpr ⟨a, ha, hb⟩)
    obtain ⟨a', ha', hb'⟩ := (hmem _).mp hm
    -- a key of `d` has one value, so `items` has one entry for it
    have haa : a' = a := congrArg Prod.snd (Table.key_injOn d ha' ha rfl)
    rw [haa, hb, Except.ok.injEq] at hb'
    rw [Table.mem_iff_get?, hget]
    exact congrArg (fun b => some (e.1, b)) hb'.symm

theorem exists_mem_mapM (h : d.mapM f = .ok d') {k : κ} {a : α} (ha : (k, a) ∈ d) :
    ∃ b, f k a = .ok b ∧ (k, b) ∈ d' := by
  obtain ⟨items, hitems, -⟩ := map_eq_ok.mp h
  obtain ⟨e, he⟩ := mapM_isOk ⟨items, hitems⟩ (k, a) ha
  obtain ⟨b, hb, -⟩ := map_eq_ok.mp he
  exact ⟨b, hb, (mem_mapM h).mpr ⟨a, ha, hb⟩⟩

end Raise

end Dict

end Python
