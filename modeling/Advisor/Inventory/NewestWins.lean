import Advisor.Inventory.Run

/-! Which event's row is stored after batches of created and updated events. The batch
compares `updated` as text, the database as a time, so the chronologically newest event
wins only if both orders, and both spellings of the id, choose it. -/

namespace Advisor.Inventory

open Python Django Relational

variable {lib : Library}

/-- `after` is what the chronologically newest of the events seen for `k` leaves of `before`. -/
def IsNewest (k : String × Uuid) (before : Option AdvisorInventoryHost) (seen : List (HostEvent lib))
    (after : Option AdvisorInventoryHost) : Prop :=
  (after = before ∧ ∀ e ∈ seen, e.row.key = k →
    ∃ stored, before = some stored ∧ e.row.updated ≤ stored.updated) ∨
  ∃ e ∈ seen, e.row.key = k ∧ after = some e.row ∧
    (∀ e' ∈ seen, e'.row.key = k → e'.row.updated ≤ e.row.updated) ∧
    ∀ stored, before = some stored → stored.updated < e.row.updated

theorem IsNewest.refl (k : String × Uuid) (row : Option AdvisorInventoryHost) :
    IsNewest k row ([] : List (HostEvent lib)) row :=
  Or.inl ⟨rfl, by simp⟩

theorem IsNewest.trans {k : String × Uuid} {a b c : Option AdvisorInventoryHost}
    {s t : List (HostEvent lib)} (h : IsNewest k a s b) (h' : IsNewest k b t c) :
    IsNewest k a (s ++ t) c := by
  rcases h with ⟨rfl, hs⟩ | ⟨e, he, hk, rfl, hmax, hlater⟩
  · rcases h' with ⟨rfl, ht⟩ | ⟨e', he', hk', rfl, hmax', hlater'⟩
    · refine Or.inl ⟨rfl, fun x hx hxk => ?_⟩
      rcases List.mem_append.mp hx with hm | hm
      · exact hs x hm hxk
      · exact ht x hm hxk
    · refine Or.inr ⟨e', List.mem_append_right _ he', hk', rfl, fun x hx hxk => ?_, hlater'⟩
      rcases List.mem_append.mp hx with hm | hm
      · obtain ⟨stored, hstored, hle⟩ := hs x hm hxk
        exact hle.trans (hlater' stored hstored).le
      · exact hmax' x hm hxk
  · rcases h' with ⟨rfl, ht⟩ | ⟨e', he', hk', rfl, hmax', hlater'⟩
    · refine Or.inr ⟨e, List.mem_append_left _ he, hk, rfl, fun x hx hxk => ?_, hlater⟩
      rcases List.mem_append.mp hx with hm | hm
      · exact hmax x hm hxk
      · obtain ⟨stored, hstored, hle⟩ := ht x hm hxk
        simp only [Option.some.injEq] at hstored
        exact hstored ▸ hle
    · have hee' := hlater' e.row rfl
      refine Or.inr ⟨e', List.mem_append_right _ he', hk', rfl, fun x hx hxk => ?_, fun stored hst => ?_⟩
      · rcases List.mem_append.mp hx with hm | hm
        · exact (hmax x hm hxk).trans hee'.le
        · exact hmax' x hm hxk
      · exact (hlater stored hst).trans hee'

/-- A batch the two orders agree on. Of the events with the greatest text of their key, those
with a stored row have an offset; each id has one row to store, whose event is the newest of
its key; an id in another spelling comes with news; and news is never left out. -/
structure Orderly (db : Database) (es : List (HostEvent lib)) : Prop where
  comparable : Comparable db es
  oneRow : ∀ a ∈ winners es, ∀ b ∈ winners es, fresh db a = true → fresh db b = true →
    a.inventoryId = b.inventoryId → a = b
  newest : ∀ w ∈ winners es, fresh db w = true → ∀ e ∈ es, e.row.key = w.row.key →
    e.row.updated ≤ w.row.updated
  spelled : ∀ w ∈ winners es, w.canonical = false → ∀ stored,
    db.inventory.get? w.row.key = some stored → stored.updated < w.row.updated ∨ w.row = stored
  kept : ∀ e ∈ es,
    (∀ stored, db.inventory.get? e.row.key = some stored → stored.updated < e.row.updated) →
      ∃ w ∈ winners es, w.row.key = e.row.key ∧ fresh db w = true

theorem handle_bodies (db : Database) (ms : List (HostMessage lib)) :
    handleInventoryEvent lib db (ms.map (·.body)) =
      .of db (applyUpserts lib db ((ms.map (·.event)).map (·.source))) := by
  have hupserts : upsertsOf (ms.map (·.body)) = (ms.map (·.event)).map (·.source) := by
    induction ms with
    | nil => rfl
    | cons m ms ih =>
      simp only [upsertsOf, List.map_cons, List.filterMap_cons, m.parsed] at ih ⊢
      rw [ih]
  have hdeletes : deletesOf (ms.map (·.body)) = [] := by
    clear hupserts
    induction ms with
    | nil => rfl
    | cons m ms ih =>
      simp only [deletesOf, List.map_cons, List.filterMap_cons, m.parsed] at ih ⊢
      exact ih
  simp only [handleInventoryEvent, hupserts, hdeletes, List.isEmpty_nil, if_true]

theorem handle_raised {db : Database} {ms : List (HostMessage lib)} :
    (handleInventoryEvent lib db (ms.map (·.body))).raised = none ↔
      Comparable db (ms.map (·.event)) ∧
        (((winners (ms.map (·.event))).filter (fresh db)).map HostEvent.inventoryId).Nodup := by
  rw [handle_bodies, raised_of]
  by_cases h : Comparable db (ms.map (·.event))
  · rw [applyUpserts_source h, upsertRows_isOk]
    exact ⟨fun hn => ⟨h, hn⟩, fun hn => hn.2⟩
  · obtain ⟨error, he⟩ := applyUpserts_naive h
    rw [he]
    simp [h]

theorem handle_row {db : Database} {ms : List (HostMessage lib)}
    (h : (handleInventoryEvent lib db (ms.map (·.body))).raised = none) (k : String × Uuid) :
    (∃ w ∈ winners (ms.map (·.event)), fresh db w = true ∧ w.row.key = k ∧
      (handleInventoryEvent lib db (ms.map (·.body))).db.inventory.get? k = some w.row) ∨
    ((∀ w ∈ winners (ms.map (·.event)), fresh db w = true → w.row.key ≠ k) ∧
      (handleInventoryEvent lib db (ms.map (·.body))).db.inventory.get? k = db.inventory.get? k) := by
  have hc := (handle_raised.mp h).1
  rw [handle_bodies, raised_of, applyUpserts_source hc] at h
  obtain ⟨db', hok⟩ := h
  rw [handle_bodies, applyUpserts_source hc, hok]
  unfold upsertRows upsertInstances at hok
  split at hok
  · rename_i inventory hosts hinv _
    simp only [Except.ok.injEq] at hok
    subst hok
    have hget := Table.get?_upsertMany? hinv k
    simp only [Outcome.of]
    rw [hget]
    cases hf : (((winners (ms.map (·.event))).filter (fresh db)).map (·.row)).find?
      fun row => row.key = k with
    | none =>
      refine Or.inr ⟨fun w hw hfresh hk => ?_, rfl⟩
      have hn := List.find?_eq_none.mp hf w.row
        (List.mem_map.mpr ⟨w, List.mem_filter.mpr ⟨hw, hfresh⟩, rfl⟩)
      simp [hk] at hn
    | some row =>
      obtain ⟨w, hw, rfl⟩ := List.mem_map.mp (List.mem_of_find?_eq_some hf)
      obtain ⟨hm, hfresh⟩ := List.mem_filter.mp hw
      have hk : w.row.key = k := by simpa using List.find?_some hf
      refine Or.inl ⟨w, hm, hfresh, hk, ?_⟩
      cases db.inventory.get? k <;> rfl
  · simp at hok

theorem fresh_later {db : Database} {e : HostEvent lib} (hc : e.canonical = true) {stored : AdvisorInventoryHost}
    (hs : db.inventory.get? e.row.key = some stored) :
    fresh db e = true ↔ stored.updated < e.row.updated := by
  rw [e.row_key] at hs
  simp [fresh, storedTime, hc, hs]

theorem orderly_of_newest {db : Database} {ms : List (HostMessage lib)}
    (hok : (handleInventoryEvent lib db (ms.map (·.body))).raised = none)
    (hnewest : ∀ k, IsNewest k (db.inventory.get? k) (ms.map (·.event))
      ((handleInventoryEvent lib db (ms.map (·.body))).db.inventory.get? k)) : Orderly db (ms.map (·.event)) := by
  obtain ⟨hcomparable, hnodup⟩ := handle_raised.mp hok
  have hone : ∀ a ∈ winners (ms.map (·.event)), ∀ b ∈ winners (ms.map (·.event)), fresh db a = true →
      fresh db b = true → a.inventoryId = b.inventoryId → a = b := by
    intro a ha b hb hfa hfb hab
    exact List.inj_on_of_nodup_map hnodup (List.mem_filter.mpr ⟨ha, hfa⟩) (List.mem_filter.mpr ⟨hb, hfb⟩) hab
  have hstored : ∀ w ∈ winners (ms.map (·.event)), fresh db w = true →
      (handleInventoryEvent lib db (ms.map (·.body))).db.inventory.get? w.row.key = some w.row := by
    intro w hw hfresh
    rcases handle_row hok w.row.key with ⟨w', hw', hfresh', hk, hrow⟩ | ⟨hnone, -⟩
    · have hid : w'.inventoryId = w.inventoryId := congrArg Prod.snd hk
      rw [hrow, hone w' hw' w hw hfresh' hfresh hid]
    · exact absurd rfl (hnone w hw hfresh)
  refine ⟨hcomparable, hone, ?_, ?_, ?_⟩
  · intro w hw hfresh e he hk
    rcases hnewest w.row.key with ⟨hsame, hmax⟩ | ⟨x, -, -, hx, hmax, -⟩
    · obtain ⟨stored, hs, hle⟩ := hmax e he hk
      rw [hstored w hw hfresh, hs, Option.some.injEq] at hsame
      exact hsame ▸ hle
    · rw [hstored w hw hfresh, Option.some.injEq] at hx
      exact hx ▸ hmax e he hk
  · intro w hw hc stored hs
    have hfresh : fresh db w = true := by simp [fresh, storedTime, hc]
    rcases hnewest w.row.key with ⟨hsame, -⟩ | ⟨x, -, -, hx, -, hlater⟩
    · rw [hstored w hw hfresh, hs, Option.some.injEq] at hsame
      exact Or.inr hsame
    · rw [hstored w hw hfresh, Option.some.injEq] at hx
      exact Or.inl (hx ▸ hlater stored hs)
  · intro e he hlater
    rcases handle_row hok e.row.key with ⟨w, hw, hfresh, hk, -⟩ | ⟨-, hsame⟩
    · exact ⟨w, hw, hk, hfresh⟩
    · rcases hnewest e.row.key with ⟨-, hmax⟩ | ⟨x, -, -, hx, -, hlater'⟩
      · obtain ⟨stored, hs, hle⟩ := hmax e he rfl
        exact absurd (hlater stored hs) (not_lt.mpr hle)
      · rw [hsame] at hx
        exact absurd (hlater' x.row hx) (lt_irrefl _)

theorem newest_of_orderly {db : Database} {ms : List (HostMessage lib)} (h : Orderly db (ms.map (·.event))) :
    (handleInventoryEvent lib db (ms.map (·.body))).raised = none ∧
      ∀ k, IsNewest k (db.inventory.get? k) (ms.map (·.event))
        ((handleInventoryEvent lib db (ms.map (·.body))).db.inventory.get? k) := by
  have hnodup : (((winners (ms.map (·.event))).filter (fresh db)).map HostEvent.inventoryId).Nodup := by
    refine List.Nodup.map_on ?_ ((nodup_winners _).filter _)
    intro a ha b hb hab
    obtain ⟨ha, hfa⟩ := List.mem_filter.mp ha
    obtain ⟨hb, hfb⟩ := List.mem_filter.mp hb
    exact h.oneRow a ha b hb hfa hfb hab
  have hok := handle_raised.mpr ⟨h.comparable, hnodup⟩
  refine ⟨hok, fun k => ?_⟩
  rcases handle_row hok k with ⟨w, hw, hfresh, rfl, hrow⟩ | ⟨hnone, hsame⟩
  · have hm : w ∈ ms.map (·.event) := newestPerKey_subset hw
    have hmax := h.newest w hw hfresh
    have hlater : ∀ stored, db.inventory.get? w.row.key = some stored →
        stored.updated < w.row.updated ∨ w.row = stored := by
      intro stored hs
      cases hc : w.canonical with
      | true => exact Or.inl ((fresh_later hc hs).mp hfresh)
      | false => exact h.spelled w hw hc stored hs
    by_cases hre : db.inventory.get? w.row.key = some w.row
    · exact Or.inl ⟨hrow.trans hre.symm, fun e he hk => ⟨w.row, hre, hmax e he hk⟩⟩
    · refine Or.inr ⟨w, hm, rfl, hrow, hmax, fun stored hs => ?_⟩
      rcases hlater stored hs with hl | rfl
      · exact hl
      · exact absurd hs hre
  · refine Or.inl ⟨hsame, fun e he hk => ?_⟩
    by_contra hno
    have hlater : ∀ stored, db.inventory.get? e.row.key = some stored →
        stored.updated < e.row.updated := by
      intro stored hs
      by_contra hle
      exact hno ⟨stored, hk ▸ hs, not_lt.mp hle⟩
    obtain ⟨w, hw, hwk, hfresh⟩ := h.kept e he hlater
    exact hnone w hw hfresh (hwk.trans hk)

theorem newest_batch_iff (db : Database) (ms : List (HostMessage lib)) :
    ((handleInventoryEvent lib db (ms.map (·.body))).raised = none ∧
      ∀ k, IsNewest k (db.inventory.get? k) (ms.map (·.event))
        ((handleInventoryEvent lib db (ms.map (·.body))).db.inventory.get? k)) ↔
      Orderly db (ms.map (·.event)) :=
  ⟨fun h => orderly_of_newest h.1 h.2, newest_of_orderly⟩

def stateAfter (db : Database) (pre : List (List (HostMessage lib))) : Database :=
  (runBatches lib db (pre.map fun ms => ms.map (·.body))).db

def seen (pre : List (List (HostMessage lib))) : List (HostEvent lib) :=
  pre.flatten.map (·.event)

/-- After each batch of a run, every row is the one of the newest event seen so far, and the
batch has replaced a row by a later one or not at all. -/
def NewestWins (db : Database) (batches : List (List (HostMessage lib))) : Prop :=
  ∀ pre ms post, batches = pre ++ ms :: post →
    (handleInventoryEvent lib (stateAfter db pre) (ms.map (·.body))).raised = none ∧
    ∀ k,
      IsNewest k (db.inventory.get? k) (seen (pre ++ [ms]))
        ((handleInventoryEvent lib (stateAfter db pre) (ms.map (·.body))).db.inventory.get? k) ∧
      IsNewest k ((stateAfter db pre).inventory.get? k) (ms.map (·.event))
        ((handleInventoryEvent lib (stateAfter db pre) (ms.map (·.body))).db.inventory.get? k)

theorem seen_concat (pre : List (List (HostMessage lib))) (ms : List (HostMessage lib)) :
    seen (pre ++ [ms]) = seen pre ++ ms.map (·.event) := by
  simp [seen]

theorem newest_prefix {db : Database} {batches : List (List (HostMessage lib))}
    (h : ∀ pre ms post, batches = pre ++ ms :: post → Orderly (stateAfter db pre) (ms.map (·.event)))
    (pre : List (List (HostMessage lib))) :
    ∀ post, batches = pre ++ post →
      (runBatches lib db (pre.map fun ms => ms.map (·.body))).raised = none ∧
        ∀ k, IsNewest k (db.inventory.get? k) (seen pre) ((stateAfter db pre).inventory.get? k) := by
  induction pre using List.reverseRecOn with
  | nil => exact fun _ _ => ⟨rfl, fun k => IsNewest.refl k _⟩
  | append_singleton pre ms ih =>
    intro post hsplit
    rw [List.append_assoc, List.singleton_append] at hsplit
    obtain ⟨hok, hpre⟩ := ih _ hsplit
    obtain ⟨hbatch, hstep⟩ := (newest_batch_iff _ ms).mpr (h pre ms post hsplit)
    have hrun : runBatches lib db ((pre ++ [ms]).map fun ms => ms.map (·.body)) =
        handleInventoryEvent lib (stateAfter db pre) (ms.map (·.body)) := by
      rw [List.map_append, List.map_singleton, runBatches_concat hok, stateAfter]
    refine ⟨by rw [hrun]; exact hbatch, fun k => ?_⟩
    rw [seen_concat, stateAfter, hrun]
    exact (hpre k).trans (hstep k)

/-- The newest event wins throughout a run exactly if every batch is orderly where it arrives. -/
theorem newestWins_iff (db : Database) (batches : List (List (HostMessage lib))) :
    NewestWins db batches ↔
      ∀ pre ms post, batches = pre ++ ms :: post →
        Orderly (stateAfter db pre) (ms.map (·.event)) := by
  constructor
  · intro h pre ms post hsplit
    obtain ⟨hok, hrows⟩ := h pre ms post hsplit
    exact (newest_batch_iff _ ms).mp ⟨hok, fun k => (hrows k).2⟩
  · intro h pre ms post hsplit
    obtain ⟨hok, hstep⟩ := (newest_batch_iff _ ms).mpr (h pre ms post hsplit)
    obtain ⟨-, hpre⟩ := newest_prefix h pre _ hsplit
    refine ⟨hok, fun k => ⟨?_, hstep k⟩⟩
    rw [seen_concat]
    exact (hpre k).trans (hstep k)

/-- One host reported twice in a batch, the older time in an offset that makes its text greater. -/
def offsetPair : List (HostMessage isoLibrary) :=
  [(HostMessage.read? (createdBody "1234" "00112233-4455-6677-8899-aabbccddeeff"
      "2024-05-01T10:00:00+00:00")).get (by decide +kernel),
    (HostMessage.read? (createdBody "1234" "00112233-4455-6677-8899-aabbccddeeff"
      "2024-05-01T11:30:00+02:00")).get (by decide +kernel)]

theorem newestWins_offsetPair :
    offsetPair.map (·.event.row.updated) = [1714557600000000, 1714555800000000] ∧
      (handleInventoryEvent isoLibrary .empty (offsetPair.map (·.body))).db.inventory.rows.map (·.updated) =
        [1714555800000000] ∧
      ¬ NewestWins .empty [offsetPair] := by
  refine ⟨by decide +kernel, by decide +kernel, fun h => ?_⟩
  let k : String × Uuid := ("1234", 88962710306127702866241727433142015)
  have hfirst : (offsetPair.map (·.event)).any
      (fun e => e.row.key = k ∧ e.row.updated = 1714557600000000) = true := by decide +kernel
  have hrow : ((handleInventoryEvent isoLibrary .empty (offsetPair.map (·.body))).db.inventory.get? k).map
      (·.updated) = some 1714555800000000 := by decide +kernel
  obtain ⟨first, hm, hfirst⟩ := List.any_eq_true.mp hfirst
  obtain ⟨hk, htime⟩ := of_decide_eq_true hfirst
  rcases ((h [] offsetPair [] rfl).2 k).2 with ⟨-, hmax⟩ | ⟨e, -, -, hafter, hmax, -⟩
  · obtain ⟨stored, hstored, -⟩ := hmax first hm hk
    simp [stateAfter, runBatches, Database.empty] at hstored
  · have hafter' : ((handleInventoryEvent isoLibrary .empty
        (offsetPair.map (·.body))).db.inventory.get? k) = some e.row := hafter
    rw [hafter', Option.map_some, Option.some.injEq] at hrow
    have hle := hmax first hm hk
    rw [hrow, htime] at hle
    exact absurd hle (by decide)

end Advisor.Inventory
