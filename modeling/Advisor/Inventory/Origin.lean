import Advisor.Inventory.Store
import Advisor.Python.Raise

/-! Where the rows of the inventory come from: each was there before a batch, or is made of one of its events. -/

namespace Advisor.Inventory

open Python Django Relational

variable {lib : Library}

theorem keepNewer_mem {item : ParsedInventoryHost} {kept deduped : List ParsedInventoryHost}
    (h : keepNewer item kept = .ok deduped) : ∀ p ∈ deduped, p = item ∨ p ∈ kept := by
  induction kept generalizing deduped with
  | nil =>
    obtain rfl := Except.ok.inj h
    exact fun p hp => Or.inl (List.mem_singleton.mp hp)
  | cons first rest ih =>
    intro p hp
    rw [keepNewer] at h
    split_ifs at h with hsame
    · obtain ⟨newer, -, h⟩ := bind_eq_ok.mp h
      cases newer with
      | true =>
        obtain rfl := Except.ok.inj h
        rcases List.mem_cons.mp hp with rfl | hrest
        · exact Or.inl rfl
        · exact Or.inr (List.mem_cons_of_mem _ hrest)
      | false =>
        obtain rfl := Except.ok.inj h
        exact Or.inr hp
    · obtain ⟨tail, htail, h⟩ := bind_eq_ok.mp h
      obtain rfl := Except.ok.inj h
      rcases List.mem_cons.mp hp with rfl | hmem
      · exact Or.inr (List.mem_cons_self ..)
      · exact (ih htail p hmem).imp_right (List.mem_cons_of_mem _)

theorem dedupe_mem {upserts deduped : List ParsedInventoryHost} (h : dedupe upserts = .ok deduped) :
    ∀ p ∈ deduped, p ∈ upserts := by
  refine foldlM_invariant (I := fun done kept => ∀ p ∈ kept, p ∈ done) h (fun p hp => hp) ?_
  intro done item kept kept' hkept hturn p hp
  split_ifs at hturn
  rcases keepNewer_mem hturn p hp with rfl | hmem
  · simp
  · exact List.mem_append_left _ (hkept p hmem)

theorem filterStaleEvents_mem {db : Database} {upserts fresh : List ParsedInventoryHost}
    (h : filterStaleEvents lib db upserts = .ok fresh) : ∀ p ∈ fresh, p ∈ upserts := by
  obtain ⟨deduped, hdeduped, h⟩ := bind_eq_ok.mp h
  obtain ⟨selected, -, h⟩ := bind_eq_ok.mp h
  exact fun p hp => dedupe_mem hdeduped p (filterM_mem h p hp)

theorem upsertMany?_mem {t u : Table AdvisorInventoryHost.key} {rows : List AdvisorInventoryHost}
    (h : t.upsertMany? AdvisorInventoryHost.merge rows = some u) {row : AdvisorInventoryHost} (hrow : row ∈ u) :
    row ∈ t ∨ row ∈ rows := by
  have hget := Table.mem_iff_get?.mp hrow
  rw [Table.get?_upsertMany? h] at hget
  split at hget
  · rename_i new hfind
    have hnew : new = row := by
      cases hold : t.get? row.key with
      | none => simpa [hold] using hget
      | some old => simpa [hold, AdvisorInventoryHost.merge] using hget
    exact Or.inr (hnew ▸ List.mem_of_find?_eq_some hfind)
  · exact Or.inl (Table.get?_eq_some.mp hget).1

theorem applyUpserts_mem {db db' : Database} {upserts : List ParsedInventoryHost}
    (h : applyUpserts lib db upserts = .ok db') {row : AdvisorInventoryHost} (hrow : row ∈ db'.inventory) :
    row ∈ db.inventory ∨ ∃ p ∈ upserts, p.inventoryRow lib = .ok row := by
  unfold applyUpserts at h
  split_ifs at h with hnone
  · obtain rfl := Except.ok.inj h
    exact Or.inl hrow
  obtain ⟨fresh, hfresh, h⟩ := bind_eq_ok.mp h
  split_ifs at h with hstale
  · obtain rfl := Except.ok.inj h
    exact Or.inl hrow
  obtain ⟨rows, hrows, h⟩ := bind_eq_ok.mp h
  obtain ⟨hosts, -, h⟩ := bind_eq_ok.mp h
  unfold upsertInstances at h
  split at h
  · rename_i inventory _ hinventory _
    obtain rfl := Except.ok.inj h
    refine (upsertMany?_mem hinventory hrow).imp_right fun hnew => ?_
    obtain ⟨p, hp, hmade⟩ := (mapM_mem hrows).mp hnew
    exact ⟨p, filterStaleEvents_mem hfresh p hp, hmade⟩
  · cases h

theorem handleInventoryEvent_mem {db : Database} {messages : List Json} {row : AdvisorInventoryHost}
    (hrow : row ∈ (handleInventoryEvent lib db messages).db.inventory) :
    row ∈ db.inventory ∨ ∃ p ∈ upsertsOf messages, p.inventoryRow lib = .ok row := by
  have hupserts {deleted : Database} (hdeleted : ∀ row ∈ deleted.inventory, row ∈ db.inventory)
      (hrow : row ∈ (Outcome.of deleted (applyUpserts lib deleted (upsertsOf messages))).db.inventory) :
      row ∈ db.inventory ∨ ∃ p ∈ upsertsOf messages, p.inventoryRow lib = .ok row := by
    cases happly : applyUpserts lib deleted (upsertsOf messages) with
    | error e =>
      rw [happly] at hrow
      exact Or.inl (hdeleted row hrow)
    | ok db' =>
      rw [happly] at hrow
      exact (applyUpserts_mem happly hrow).imp_left (hdeleted row)
  rw [handleInventoryEvent] at hrow
  split at hrow
  · exact Or.inl hrow
  · rename_i deleted hdeleted
    refine hupserts ?_ hrow
    split_ifs at hdeleted with hnone
    · obtain rfl := Except.ok.inj hdeleted
      exact fun row h => h
    · obtain ⟨selected, -, hdeleted⟩ := bind_eq_ok.mp hdeleted
      obtain rfl := Except.ok.inj hdeleted
      exact fun row h => (Table.mem_deleteWhere.mp h).1

theorem lookup_clean {attributes : List (String × Attribute)} {name : String} {columns : List Column}
    {cells : List (String × Option Value)}
    (h : columns.Forall₂ (fun column cell => (do
      let value ← column.clean lib ((attributes.lookup column.name).getD (.json .null))
      return (column.name, value)) = Except.ok cell) cells) {column : Column}
    (hfind : columns.find? (·.name == name) = some column) :
    ∃ value, cells.lookup name = some value ∧
      column.clean lib ((attributes.lookup name).getD (.json .null)) = .ok value := by
  induction h with
  | nil => cases hfind
  | @cons first cell rest cells hcell _ ih =>
    obtain ⟨value, hvalue, hmade⟩ := bind_eq_ok.mp hcell
    obtain rfl := Except.ok.inj hmade
    rw [List.find?_cons] at hfind
    by_cases hname : first.name = name
    · subst hname
      simp only [beq_self_eq_true, Option.some.injEq] at hfind
      subst hfind
      exact ⟨value, by rw [List.lookup_cons, beq_self_eq_true], hvalue⟩
    · have hne : (first.name == name) = false := by simpa using hname
      have hne' : (name == first.name) = false := by simpa using Ne.symm hname
      rw [hne] at hfind
      obtain ⟨found, hlookup, hclean⟩ := ih hfind
      exact ⟨found, by rw [List.lookup_cons, hne']; exact hlookup, hclean⟩

end Advisor.Inventory
