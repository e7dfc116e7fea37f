import Advisor.Pathways.ForAccount

/-! When each pathway carries what its own reports say. The shortcuts for one pathway and for one common value
also go to the pathways that have no reports. -/

namespace Advisor.Pathways

open Python Django Relational

variable {request : Request} {tables : Tables} {impacting : Bool} {rows : List Row}

def hostsOf (rows : List Row) (pathway : Nat) (counted : Row → Bool) : Finset Uuid :=
  ((rows.filter fun row => row.pathway = pathway && counted row).map (·.host)).toFinset

def Impacted (rows : List Row) (pathway : Nat) : Prop := ∃ row ∈ rows, row.pathway = pathway

/-- A pathway is annotated from its own eligible reports. -/
structure Own (request : Request) (tables : Tables) (a : Annotated) : Prop where
  impactedSystemsCount : a.impactedSystemsCount = (hostsOf (reportQuery request tables) a.pathway fun _ => true).card
  incidentCount : a.incidentCount = (hostsOf (reportQuery request tables) a.pathway (·.isIncident)).card
  lowRiskCount : a.lowRiskCount = (hostsOf (reportQuery request tables) a.pathway (·.totalRisk = 1)).card
  mediumRiskCount : a.mediumRiskCount = (hostsOf (reportQuery request tables) a.pathway (·.totalRisk = 2)).card
  highRiskCount : a.highRiskCount = (hostsOf (reportQuery request tables) a.pathway (·.totalRisk = 3)).card
  criticalRiskCount : a.criticalRiskCount = (hostsOf (reportQuery request tables) a.pathway (·.totalRisk = 4)).card
  hasIncident : a.hasIncident = true ↔ 0 < a.incidentCount
  recommendationLevel : Impacted (reportQuery request tables) a.pathway → 0 < request.systems →
    a.recommendationLevel =
      calculateRecLevel (a.impactedSystemsCount / request.systems) a.hasIncident (maxRisk tables a.pathway)
  nothing : ¬ Impacted (reportQuery request tables) a.pathway → a.recommendationLevel = 0 ∧ a.rebootRequired = false

def AnnotatedAlone (request : Request) (tables : Tables) (impacting : Bool) : Prop :=
  ∃ pathways, forAccount request tables impacting = .ok pathways ∧ ∀ a ∈ pathways, Own request tables a

def setsOf (rows : List Row) : AggSets where
  impactedSystems := (rows.map (·.host)).toFinset
  incidents := ((rows.filter (·.isIncident)).map (·.host)).toFinset
  lowRisk := ((rows.filter (·.totalRisk = 1)).map (·.host)).toFinset
  mediumRisk := ((rows.filter (·.totalRisk = 2)).map (·.host)).toFinset
  highRisk := ((rows.filter (·.totalRisk = 3)).map (·.host)).toFinset
  criticalRisk := ((rows.filter (·.totalRisk = 4)).map (·.host)).toFinset

theorem foldl_add (rows : List Row) : rows.foldl AggSets.add {} = setsOf rows := by
  have hinsert (p : Row → Bool) (rows : List Row) (row : Row) :
      (((rows ++ [row]).filter p).map (·.host)).toFinset =
        if p row then insert row.host ((rows.filter p).map (·.host)).toFinset
        else ((rows.filter p).map (·.host)).toFinset := by
    cases hp : p row with
    | false => simp [hp]
    | true =>
      ext host
      simp [hp]
  induction rows using List.reverseRecOn with
  | nil => rfl
  | append_singleton rows row ih =>
    rw [List.foldl_concat, ih, AggSets.add, setsOf]
    simp only [setsOf, hinsert, decide_eq_true_eq]
    congr 1
    ext host
    simp

def own (request : Request) (tables : Tables) (impacting : Bool) (rows : List Row) (pathway : Nat) : AggData :=
  reduce request tables impacting pathway (setsOf (rows.filter fun row => row.pathway = pathway))

def aggData (request : Request) (tables : Tables) (impacting : Bool) (rows : List Row) : List (Nat × AggData) :=
  (rows.foldl (fill (·.pathway) {} AggSets.add) []).map fun item => (item.1, reduce request tables impacting item.1 item.2)

theorem aggData_eq (rows : List Row) :
    aggData request tables impacting rows =
      (groupBy (·.pathway) rows).map fun group => (group.1, reduce request tables impacting group.1 (setsOf group.2)) := by
  rw [aggData, foldl_fill, List.map_map]
  refine List.map_congr_left fun group _ => ?_
  simp [foldl_add]

variable (request tables impacting) in
theorem find?_aggData (rows : List Row) (pathway : Nat) :
    ((aggData request tables impacting rows).find? fun item => item.1 = pathway) =
      if (rows.filter fun row => row.pathway = pathway).isEmpty then none
      else some (pathway, own request tables impacting rows pathway) := by
  rw [aggData_eq, List.find?_map]
  have hgroup := find?_groupBy (fun row : Row => row.pathway) rows pathway
  change ((groupBy (·.pathway) rows).find? fun group => group.1 = pathway).map _ = _
  rw [hgroup]
  split_ifs <;> rfl

theorem isEmpty_iff_impacted {pathway : Nat} :
    (rows.filter fun row => row.pathway = pathway).isEmpty = false ↔ Impacted rows pathway := by
  simp [Impacted]

variable (request tables impacting) in
theorem nodup_aggData (rows : List Row) : ((aggData request tables impacting rows).map (·.1)).Nodup := by
  rw [aggData_eq, List.map_map]
  exact nodup_groupBy (fun row : Row => row.pathway) rows

theorem mem_aggData {item : Nat × AggData} :
    item ∈ aggData request tables impacting rows ↔
      Impacted rows item.1 ∧ item.2 = own request tables impacting rows item.1 := by
  constructor
  · intro hitem
    have hnodup := nodup_aggData request tables impacting rows
    have hfind : ((aggData request tables impacting rows).find? fun other => other.1 = item.1) = some item := by
      cases hf : (aggData request tables impacting rows).find? fun other => other.1 = item.1 with
      | none => simpa using List.find?_eq_none.mp hf item hitem
      | some other =>
        have hkey : other.1 = item.1 := by simpa using List.find?_some hf
        rw [List.inj_on_of_nodup_map hnodup (List.mem_of_find?_eq_some hf) hitem hkey]
    rw [find?_aggData] at hfind
    split_ifs at hfind with hempty
    exact ⟨isEmpty_iff_impacted.mp (by simpa using hempty), (congrArg Prod.snd (Option.some.inj hfind)).symm⟩
  · rintro ⟨himpacted, hown⟩
    have hfind := find?_aggData request tables impacting rows item.1
    rw [isEmpty_iff_impacted.mpr himpacted, if_neg Bool.false_ne_true, ← hown] at hfind
    exact List.mem_of_find?_eq_some hfind

section Case

variable {α : Type} [DecidableEq α] {data : List (Nat × AggData)} {field : AggData → α} {default : α}

/-- With several items in it the dict stays, and an expression gives the value they have in common or each its own. -/
theorem pathwayAggCase_cases (field : AggData → α) (default : α) (hlen : 2 ≤ data.length) :
    (∃ v, (∀ item ∈ data, field item.2 = v) ∧ pathwayAggCase data field default = (.value v, data)) ∨
      ((¬ ∃ v, ∀ item ∈ data, field item.2 = v) ∧ pathwayAggCase data field default =
        (.case ((data.filter fun item => field item.2 ≠ default).map fun item => (item.1, field item.2)) default,
          data)) := by
  rcases data with _ | ⟨first, _ | ⟨second, rest⟩⟩
  · simp at hlen
  · simp at hlen
  · have hmem (v : α) : v ∈ ((first :: second :: rest).map fun item => field item.2).dedup ↔
        ∃ item ∈ first :: second :: rest, field item.2 = v := by
      rw [List.mem_dedup, List.mem_map]
    rcases hvals : ((first :: second :: rest).map fun item => field item.2).dedup with _ | ⟨v, _ | ⟨w, others⟩⟩
    · have hnone := (hmem (field first.2)).mpr ⟨first, by simp, rfl⟩
      rw [hvals] at hnone
      cases hnone
    · refine Or.inl ⟨v, fun item hitem => ?_, ?_⟩
      · have hin := (hmem (field item.2)).mpr ⟨item, hitem, rfl⟩
        rwa [hvals, List.mem_singleton] at hin
      · simp only [pathwayAggCase, hvals]
    · refine Or.inr ⟨?_, ?_⟩
      · rintro ⟨u, hu⟩
        have hboth : v ≠ w := by
          have hnodup := List.nodup_dedup ((first :: second :: rest).map fun item => field item.2)
          rw [hvals] at hnodup
          intro hvw
          simp [hvw] at hnodup
        obtain ⟨a, ha, hav⟩ := (hmem v).mp (by rw [hvals]; simp)
        obtain ⟨b, hb, hbw⟩ := (hmem w).mp (by rw [hvals]; simp)
        exact hboth (hav.symm.trans ((hu a ha).trans ((hu b hb).symm.trans hbw)))
      · simp only [pathwayAggCase, hvals]

theorem pathwayAggCase_data (field : AggData → α) (default : α) (hlen : 2 ≤ data.length) :
    (pathwayAggCase data field default).2 = data := by
  rcases pathwayAggCase_cases field default hlen with ⟨v, -, heq⟩ | ⟨-, heq⟩ <;> rw [heq]

theorem eval_of_mem (hlen : 2 ≤ data.length) (hkeys : (data.map (·.1)).Nodup) {item : Nat × AggData}
    (hitem : item ∈ data) : (pathwayAggCase data field default).1.eval item.1 = field item.2 := by
  rcases pathwayAggCase_cases field default hlen with ⟨v, hall, heq⟩ | ⟨-, heq⟩
  · rw [heq, hall item hitem]
    rfl
  · rw [heq, Expr.eval]
    cases hfind : (((data.filter fun item => field item.2 ≠ default).map fun item => (item.1, field item.2)).find?
        fun when => when.1 = item.1) with
    | none =>
      by_contra hne
      have hwhen := List.find?_eq_none.mp hfind (item.1, field item.2) (List.mem_map.mpr ⟨item,
        List.mem_filter.mpr ⟨hitem, decide_eq_true (fun hdefault => hne (by rw [hdefault]; rfl))⟩, rfl⟩)
      simp at hwhen
    | some when =>
      have hkey : when.1 = item.1 := by simpa using List.find?_some hfind
      obtain ⟨other, hother, rfl⟩ := List.mem_map.mp (List.mem_of_find?_eq_some hfind)
      rw [List.inj_on_of_nodup_map hkeys (List.mem_filter.mp hother).1 hitem hkey]
      rfl

theorem eval_of_not_mem (hlen : 2 ≤ data.length) {pathway : Nat} (hnot : ∀ item ∈ data, item.1 ≠ pathway) :
    (pathwayAggCase data field default).1.eval pathway = default ↔
      ∀ v, v ≠ default → ∃ item ∈ data, field item.2 ≠ v := by
  rcases pathwayAggCase_cases field default hlen with ⟨v, hall, heq⟩ | ⟨hnone, heq⟩
  · rw [heq]
    constructor
    · rintro rfl w hw
      obtain ⟨item, hitem⟩ := List.exists_mem_of_length_pos (by omega : 0 < data.length)
      refine ⟨item, hitem, ?_⟩
      rw [hall item hitem]
      exact hw.symm
    · intro h
      by_contra hne
      obtain ⟨item, hitem, hdiffers⟩ := h v hne
      exact hdiffers (hall item hitem)
  · rw [heq, Expr.eval]
    have hfind : (((data.filter fun item => field item.2 ≠ default).map fun item => (item.1, field item.2)).find?
        fun when => when.1 = pathway) = none := by
      rw [List.find?_eq_none]
      intro when hwhen
      obtain ⟨item, hitem, rfl⟩ := List.mem_map.mp hwhen
      simpa using hnot item (List.mem_filter.mp hitem).1
    refine iff_of_true (by rw [hfind]; rfl) fun v _ => ?_
    by_contra hall
    exact hnone ⟨v, by simpa using hall⟩

end Case

theorem mapM_checkRisk {rows : List Row} (h : ∀ row ∈ rows, 1 ≤ row.totalRisk ∧ row.totalRisk ≤ 4) :
    rows.mapM checkRisk = .ok rows := by
  induction rows with
  | nil => rfl
  | cons row rest ih =>
    have hrow : checkRisk row = .ok row := by
      obtain ⟨hlow, hhigh⟩ := h row (by simp)
      have hrisk : row.totalRisk = 1 ∨ row.totalRisk = 2 ∨ row.totalRisk = 3 ∨ row.totalRisk = 4 := by omega
      rcases hrisk with h | h | h | h <;> simp only [checkRisk, h]
    rw [List.mapM_cons, hrow, ih fun r hr => h r (by simp [hr])]
    rfl

variable (impacting) in
theorem forAccount_eq (h : ∀ row ∈ reportQuery request tables, 1 ≤ row.totalRisk ∧ row.totalRisk ≤ 4) :
    forAccount request tables impacting = .ok
      (if (reportQuery request tables).isEmpty then []
      else annotate request tables (aggData request tables impacting (reportQuery request tables))
        (published request tables impacting
          ((aggData request tables impacting (reportQuery request tables)).map (·.1)))) := by
  have hempty : ((reportQuery request tables).foldl (fill (·.pathway) {} AggSets.add) []).isEmpty =
      (reportQuery request tables).isEmpty := by
    cases hrows : reportQuery request tables with
    | nil => rfl
    | cons row rest =>
      have hitem : (row.pathway, own request tables impacting (row :: rest) row.pathway) ∈
          aggData request tables impacting (row :: rest) := mem_aggData.mpr ⟨⟨row, by simp, rfl⟩, rfl⟩
      have hne := List.ne_nil_of_mem hitem
      cases hsets : (row :: rest).foldl (fill (·.pathway) {} AggSets.add) [] with
      | nil =>
        rw [aggData, hsets] at hne
        exact absurd rfl hne
      | cons item items => rfl
  unfold forAccount
  rw [mapM_checkRisk h]
  change (if ((reportQuery request tables).foldl (fill (·.pathway) {} AggSets.add) []).isEmpty = true then _ else _) = _
  rw [hempty]
  split_ifs <;> rfl

def Shown (request : Request) (tables : Tables) (impacting : Bool) (pathway : Pathway) : Prop :=
  pathway ∈ tables.pathways ∧ pathway.publishDate.any (· ≤ request.now) = true ∧
    (impacting = true → Impacted (reportQuery request tables) pathway.id)

theorem mem_published {pathway : Pathway} :
    pathway ∈ published request tables impacting
        ((aggData request tables impacting (reportQuery request tables)).map (·.1)) ↔
      Shown request tables impacting pathway := by
  have hids : pathway.id ∈ (aggData request tables impacting (reportQuery request tables)).map (·.1) ↔
      Impacted (reportQuery request tables) pathway.id := by
    rw [List.mem_map]
    constructor
    · rintro ⟨item, hitem, hid⟩
      rw [← hid]
      exact (mem_aggData.mp hitem).1
    · intro himpacted
      exact ⟨(pathway.id, own request tables impacting _ pathway.id), mem_aggData.mpr ⟨himpacted, rfl⟩, rfl⟩
  simp only [published, Shown, List.mem_filter, Bool.and_eq_true, Bool.or_eq_true, Bool.not_eq_true',
    List.contains_iff_mem, hids, Table.mem_def]
  cases impacting <;> simp [and_comm]

/-- The pathways with reports have none of the counted values in common, but nothing. -/
structure NothingInCommon (request : Request) (tables : Tables) (impacting : Bool) (rows : List Row) : Prop where
  impactedSystems : ∀ v, v ≠ 0 → ∃ p, Impacted rows p ∧ (own request tables impacting rows p).impactedSystems ≠ v
  incidents : ∀ v, v ≠ 0 → ∃ p, Impacted rows p ∧ (own request tables impacting rows p).incidents ≠ v
  hasIncident : ∀ v, v ≠ false → ∃ p, Impacted rows p ∧ (own request tables impacting rows p).hasIncident ≠ v
  recommendationLevel : ∀ v, v ≠ 0 →
    ∃ p, Impacted rows p ∧ (own request tables impacting rows p).recommendationLevel ≠ v
  criticalRisk : ∀ v, v ≠ 0 → ∃ p, Impacted rows p ∧ (own request tables impacting rows p).criticalRisk ≠ v
  highRisk : ∀ v, v ≠ 0 → ∃ p, Impacted rows p ∧ (own request tables impacting rows p).highRisk ≠ v
  mediumRisk : ∀ v, v ≠ 0 → ∃ p, Impacted rows p ∧ (own request tables impacting rows p).mediumRisk ≠ v
  lowRisk : ∀ v, v ≠ 0 → ∃ p, Impacted rows p ∧ (own request tables impacting rows p).lowRisk ≠ v

/-- The shortcuts do no harm: nothing is returned, or several pathways have reports, and those without any are
not returned or told apart. -/
def Separable (request : Request) (tables : Tables) (impacting : Bool) : Prop :=
  (∃ p, Impacted (reportQuery request tables) p) → (∃ pathway, Shown request tables impacting pathway) →
    (∃ p q, Impacted (reportQuery request tables) p ∧ Impacted (reportQuery request tables) q ∧ p ≠ q) ∧
      ((∀ pathway, Shown request tables impacting pathway → Impacted (reportQuery request tables) pathway.id) ∨
        NothingInCommon request tables impacting (reportQuery request tables))

theorem hostsOf_eq (rows : List Row) (pathway : Nat) (counted : Row → Bool) :
    (((rows.filter fun row => row.pathway = pathway).filter counted).map (·.host)).toFinset =
      hostsOf rows pathway counted := by
  rw [hostsOf, List.filter_filter]
  simp only [Bool.and_comm]

theorem own_counts (request : Request) (tables : Tables) (impacting : Bool) (rows : List Row) (pathway : Nat) :
    (own request tables impacting rows pathway).impactedSystems = (hostsOf rows pathway fun _ => true).card ∧
      (own request tables impacting rows pathway).incidents = (hostsOf rows pathway (·.isIncident)).card ∧
      (own request tables impacting rows pathway).lowRisk = (hostsOf rows pathway (·.totalRisk = 1)).card ∧
      (own request tables impacting rows pathway).mediumRisk = (hostsOf rows pathway (·.totalRisk = 2)).card ∧
      (own request tables impacting rows pathway).highRisk = (hostsOf rows pathway (·.totalRisk = 3)).card ∧
      (own request tables impacting rows pathway).criticalRisk = (hostsOf rows pathway (·.totalRisk = 4)).card := by
  simp only [← hostsOf_eq, List.filter_true]
  exact ⟨rfl, rfl, rfl, rfl, rfl, rfl⟩

theorem hostsOf_pos {row : Row} {counted : Row → Bool} (hrow : row ∈ rows) (hcounted : counted row = true) :
    0 < (hostsOf rows row.pathway counted).card := by
  rw [Finset.card_pos]
  refine ⟨row.host, ?_⟩
  rw [hostsOf, List.mem_toFinset]
  exact List.mem_map.mpr ⟨row, List.mem_filter.mpr ⟨hrow, by simp [hcounted]⟩, rfl⟩

theorem hostsOf_of_not_impacted {pathway : Nat} (h : ¬ Impacted rows pathway) (counted : Row → Bool) :
    (hostsOf rows pathway counted).card = 0 := by
  rw [Finset.card_eq_zero, hostsOf, List.toFinset_eq_empty_iff, List.map_eq_nil_iff, List.filter_eq_nil_iff]
  intro row hrow hcounted
  simp only [Bool.and_eq_true, decide_eq_true_eq] at hcounted
  exact h ⟨row, hrow, hcounted.1⟩

/-- The fields of an annotated pathway are those of some data. -/
structure Annotated.Carries (a : Annotated) (data : AggData) : Prop where
  impactedSystems : a.impactedSystemsCount = data.impactedSystems
  incidents : a.incidentCount = data.incidents
  lowRisk : a.lowRiskCount = data.lowRisk
  mediumRisk : a.mediumRiskCount = data.mediumRisk
  highRisk : a.highRiskCount = data.highRisk
  criticalRisk : a.criticalRiskCount = data.criticalRisk
  hasIncident : a.hasIncident = data.hasIncident
  rebootRequired : a.rebootRequired = data.rebootRequired
  recommendationLevel : a.recommendationLevel = data.recommendationLevel

def AggData.zero : AggData := ⟨0, 0, 0, 0, 0, 0, false, false, 0⟩

theorem own_of_carries (impacting : Bool) {a : Annotated} (himpacted : Impacted (reportQuery request tables) a.pathway)
    (h : a.Carries (own request tables impacting (reportQuery request tables) a.pathway)) : Own request tables a := by
  obtain ⟨hsystems, hincidents, hlow, hmedium, hhigh, hcritical⟩ :=
    own_counts request tables impacting (reportQuery request tables) a.pathway
  refine ⟨h.impactedSystems.trans hsystems, h.incidents.trans hincidents, h.lowRisk.trans hlow,
    h.mediumRisk.trans hmedium, h.highRisk.trans hhigh, h.criticalRisk.trans hcritical, ?_, ?_,
    fun hnot => absurd himpacted hnot⟩
  · rw [h.hasIncident, h.incidents]
    simp [own, reduce]
  · intro _ hsystems
    rw [h.recommendationLevel, h.impactedSystems, h.hasIncident]
    simp only [own, reduce, hsystems, gt_iff_lt, if_true]

theorem own_iff_zero {a : Annotated} (hnot : ¬ Impacted (reportQuery request tables) a.pathway)
    (hreboot : a.rebootRequired = false) : Own request tables a ↔ a.Carries .zero := by
  have hzero := hostsOf_of_not_impacted hnot
  constructor
  · intro h
    have hincidents : a.incidentCount = 0 := h.incidentCount.trans (hzero _)
    have hincident : a.hasIncident = false := by simpa [hincidents] using h.hasIncident
    refine ⟨h.impactedSystemsCount.trans (hzero _), hincidents, h.lowRiskCount.trans (hzero _),
      h.mediumRiskCount.trans (hzero _), h.highRiskCount.trans (hzero _), h.criticalRiskCount.trans (hzero _), hincident,
      hreboot, (h.nothing hnot).1⟩
  · intro h
    refine ⟨h.impactedSystems.trans (hzero _).symm, h.incidents.trans (hzero _).symm, h.lowRisk.trans (hzero _).symm,
      h.mediumRisk.trans (hzero _).symm, h.highRisk.trans (hzero _).symm, h.criticalRisk.trans (hzero _).symm, ?_,
      fun himpacted => absurd himpacted hnot, fun _ => ⟨h.recommendationLevel, hreboot⟩⟩
    rw [h.hasIncident, h.incidents]
    simp [AggData.zero]

theorem annotate_of_two {data : List (Nat × AggData)} (hlen : 2 ≤ data.length) (pathways : List Pathway) :
    annotate request tables data pathways = pathways.map fun pathway =>
      { pathway := pathway.id
        totalSystemsInAccount := request.systems
        impactedSystemsCount := (pathwayAggCase data (·.impactedSystems) 0).1.eval pathway.id
        hasPlaybook := (rulesOf tables pathway.id).any fun rule => tables.playbooks.contains rule.id
        rebootRequired := (pathwayAggCase data (·.rebootRequired) false).1.eval pathway.id
        incidentCount := (pathwayAggCase data (·.incidents) 0).1.eval pathway.id
        hasIncident := (pathwayAggCase data (·.hasIncident) false).1.eval pathway.id
        recommendationLevel := (pathwayAggCase data (·.recommendationLevel) 0).1.eval pathway.id
        criticalRiskCount := (pathwayAggCase data (·.criticalRisk) 0).1.eval pathway.id
        highRiskCount := (pathwayAggCase data (·.highRisk) 0).1.eval pathway.id
        mediumRiskCount := (pathwayAggCase data (·.mediumRisk) 0).1.eval pathway.id
        lowRiskCount := (pathwayAggCase data (·.lowRisk) 0).1.eval pathway.id } := by
  simp only [annotate, pathwayAggCase_data _ _ hlen]

theorem eval_zero_iff {α : Type} [DecidableEq α] (field : AggData → α) (default : α)
    (hlen : 2 ≤ (aggData request tables impacting rows).length) {pathway : Nat} (hnot : ¬ Impacted rows pathway) :
    (pathwayAggCase (aggData request tables impacting rows) field default).1.eval pathway = default ↔
      ∀ v, v ≠ default → ∃ p, Impacted rows p ∧ field (own request tables impacting rows p) ≠ v := by
  have hkeys : ∀ item ∈ aggData request tables impacting rows, item.1 ≠ pathway := by
    rintro item hitem rfl
    exact hnot (mem_aggData.mp hitem).1
  rw [eval_of_not_mem hlen hkeys]
  refine forall_congr' fun v => imp_congr_right fun _ => ?_
  constructor
  · rintro ⟨item, hitem, hne⟩
    obtain ⟨himpacted, hown⟩ := mem_aggData.mp hitem
    exact ⟨item.1, himpacted, by rwa [← hown]⟩
  · rintro ⟨p, himpacted, hne⟩
    exact ⟨(p, own request tables impacting rows p), mem_aggData.mpr ⟨himpacted, rfl⟩, hne⟩

theorem eval_own {α : Type} [DecidableEq α] (field : AggData → α) (default : α)
    (hlen : 2 ≤ (aggData request tables impacting rows).length) {pathway : Nat} (himpacted : Impacted rows pathway) :
    (pathwayAggCase (aggData request tables impacting rows) field default).1.eval pathway =
      field (own request tables impacting rows pathway) :=
  eval_of_mem hlen (nodup_aggData request tables impacting rows) (mem_aggData.mpr ⟨himpacted, rfl⟩ :
    (pathway, own request tables impacting rows pathway) ∈ aggData request tables impacting rows)

theorem row_of_mem {row : Row} (h : row ∈ reportQuery request tables) :
    ∃ rule ∈ tables.rules, rule.totalRisk = row.totalRisk := by
  obtain ⟨report, -, hrow⟩ := List.mem_filterMap.mp h
  obtain ⟨rule, hrule, hpathway⟩ := Option.bind_eq_some_iff.mp hrow
  obtain ⟨pathway, -, rfl⟩ := Option.map_eq_some_iff.mp hpathway
  exact ⟨rule, (Table.get?_eq_some.mp hrule).1, rfl⟩

/-- With several pathways that have reports, each of those is annotated from its own, and another one is unless
the shortcut for a common value gives it one. -/
theorem own_annotated (hlen : 2 ≤ (aggData request tables impacting (reportQuery request tables)).length)
    {pathways : List Pathway} (hshown : ∀ pathway ∈ pathways, Shown request tables impacting pathway) :
    (∀ a ∈ annotate request tables (aggData request tables impacting (reportQuery request tables)) pathways,
        Own request tables a) ↔
      ∀ pathway ∈ pathways, Impacted (reportQuery request tables) pathway.id ∨
        NothingInCommon request tables impacting (reportQuery request tables) := by
  rw [annotate_of_two hlen, List.forall_mem_map]
  refine forall₂_congr fun pathway hpathway => ?_
  by_cases himpacted : Impacted (reportQuery request tables) pathway.id
  · refine iff_of_true (own_of_carries impacting himpacted ?_) (Or.inl himpacted)
    constructor <;> exact eval_own _ _ hlen himpacted
  · have himpacting : impacting = false := by
      by_contra hne
      exact himpacted ((hshown pathway hpathway).2.2 (by simpa using hne))
    have hreboot : (pathwayAggCase (aggData request tables impacting (reportQuery request tables)) (·.rebootRequired)
        false).1.eval pathway.id = false := by
      rw [eval_zero_iff (·.rebootRequired) false hlen himpacted]
      intro v hv
      obtain ⟨item, hitem⟩ := List.exists_mem_of_length_pos (by omega :
        0 < (aggData request tables impacting (reportQuery request tables)).length)
      refine ⟨item.1, (mem_aggData.mp hitem).1, ?_⟩
      simp only [own, reduce, himpacting, Bool.and_false]
      exact hv.symm
    rw [own_iff_zero himpacted hreboot]
    constructor
    · intro h
      refine Or.inr ⟨?_, ?_, ?_, ?_, ?_, ?_, ?_, ?_⟩
      · exact (eval_zero_iff (·.impactedSystems) 0 hlen himpacted).mp h.impactedSystems
      · exact (eval_zero_iff (·.incidents) 0 hlen himpacted).mp h.incidents
      · exact (eval_zero_iff (·.hasIncident) false hlen himpacted).mp h.hasIncident
      · exact (eval_zero_iff (·.recommendationLevel) 0 hlen himpacted).mp h.recommendationLevel
      · exact (eval_zero_iff (·.criticalRisk) 0 hlen himpacted).mp h.criticalRisk
      · exact (eval_zero_iff (·.highRisk) 0 hlen himpacted).mp h.highRisk
      · exact (eval_zero_iff (·.mediumRisk) 0 hlen himpacted).mp h.mediumRisk
      · exact (eval_zero_iff (·.lowRisk) 0 hlen himpacted).mp h.lowRisk
    · intro h
      have hcommon := h.resolve_left himpacted
      exact {
        impactedSystems := (eval_zero_iff (·.impactedSystems) 0 hlen himpacted).mpr hcommon.impactedSystems
        incidents := (eval_zero_iff (·.incidents) 0 hlen himpacted).mpr hcommon.incidents
        lowRisk := (eval_zero_iff (·.lowRisk) 0 hlen himpacted).mpr hcommon.lowRisk
        mediumRisk := (eval_zero_iff (·.mediumRisk) 0 hlen himpacted).mpr hcommon.mediumRisk
        highRisk := (eval_zero_iff (·.highRisk) 0 hlen himpacted).mpr hcommon.highRisk
        criticalRisk := (eval_zero_iff (·.criticalRisk) 0 hlen himpacted).mpr hcommon.criticalRisk
        hasIncident := (eval_zero_iff (·.hasIncident) false hlen himpacted).mpr hcommon.hasIncident
        rebootRequired := hreboot
        recommendationLevel :=
          (eval_zero_iff (·.recommendationLevel) 0 hlen himpacted).mpr hcommon.recommendationLevel }

/-- With one pathway that has reports none is annotated from its own: the dict is empty after the first
annotation. -/
theorem not_own_of_one {row : Row} (hrow : row ∈ reportQuery request tables)
    (hrisk : 1 ≤ row.totalRisk ∧ row.totalRisk ≤ 4)
    (hone : ∀ p, Impacted (reportQuery request tables) p → p = row.pathway) {pathways : List Pathway} {pathway : Pathway}
    (hpathway : pathway ∈ pathways) :
    ¬ ∀ a ∈ annotate request tables
        [(row.pathway, own request tables impacting (reportQuery request tables) row.pathway)] pathways,
      Own request tables a := by
  intro h
  have hown := h _ (List.mem_map.mpr ⟨pathway, hpathway, rfl⟩)
  by_cases himpacted : Impacted (reportQuery request tables) pathway.id
  · have hid := hone pathway.id himpacted
    have hlow : 0 = (hostsOf (reportQuery request tables) pathway.id (·.totalRisk = 1)).card := hown.lowRiskCount
    have hmedium : 0 = (hostsOf (reportQuery request tables) pathway.id (·.totalRisk = 2)).card := hown.mediumRiskCount
    have hhigh : 0 = (hostsOf (reportQuery request tables) pathway.id (·.totalRisk = 3)).card := hown.highRiskCount
    have hcritical : 0 = (hostsOf (reportQuery request tables) pathway.id (·.totalRisk = 4)).card :=
      hown.criticalRiskCount
    have hcounted (risk : Nat) (h : row.totalRisk = risk) :
        0 < (hostsOf (reportQuery request tables) pathway.id (·.totalRisk = risk)).card := by
      rw [hid]
      exact hostsOf_pos hrow (decide_eq_true h)
    have hcases : row.totalRisk = 1 ∨ row.totalRisk = 2 ∨ row.totalRisk = 3 ∨ row.totalRisk = 4 := by omega
    rcases hcases with hr | hr | hr | hr
    · exact absurd (hcounted 1 hr) (by rw [← hlow]; exact Nat.lt_irrefl 0)
    · exact absurd (hcounted 2 hr) (by rw [← hmedium]; exact Nat.lt_irrefl 0)
    · exact absurd (hcounted 3 hr) (by rw [← hhigh]; exact Nat.lt_irrefl 0)
    · exact absurd (hcounted 4 hr) (by rw [← hcritical]; exact Nat.lt_irrefl 0)
  · have hsystems : (own request tables impacting (reportQuery request tables) row.pathway).impactedSystems =
        (hostsOf (reportQuery request tables) pathway.id fun _ => true).card := hown.impactedSystemsCount
    rw [(own_counts request tables impacting _ _).1, hostsOf_of_not_impacted himpacted] at hsystems
    exact absurd (hostsOf_pos hrow rfl) (by rw [hsystems]; exact Nat.lt_irrefl 0)

theorem two_le_aggData {p q : Nat} (hp : Impacted rows p) (hq : Impacted rows q) (hne : p ≠ q) :
    2 ≤ (aggData request tables impacting rows).length := by
  have hpin : (p, own request tables impacting rows p) ∈ aggData request tables impacting rows :=
    mem_aggData.mpr ⟨hp, rfl⟩
  have hqin : (q, own request tables impacting rows q) ∈ aggData request tables impacting rows :=
    mem_aggData.mpr ⟨hq, rfl⟩
  rcases hdata : aggData request tables impacting rows with _ | ⟨first, _ | ⟨second, rest⟩⟩
  · rw [hdata] at hpin
    cases hpin
  · rw [hdata, List.mem_singleton] at hpin hqin
    exact absurd (congrArg Prod.fst (hpin.trans hqin.symm)) hne
  · simp

theorem aggData_of_one {row : Row} (hrow : row ∈ rows) (hone : ∀ p, Impacted rows p → p = row.pathway) :
    aggData request tables impacting rows = [(row.pathway, own request tables impacting rows row.pathway)] := by
  have hitem {item : Nat × AggData} (hitem : item ∈ aggData request tables impacting rows) :
      item = (row.pathway, own request tables impacting rows row.pathway) := by
    obtain ⟨himpacted, hown⟩ := mem_aggData.mp hitem
    rw [hone _ himpacted] at hown
    exact Prod.ext (hone _ himpacted) hown
  have hin : (row.pathway, own request tables impacting rows row.pathway) ∈ aggData request tables impacting rows :=
    mem_aggData.mpr ⟨⟨row, hrow, rfl⟩, rfl⟩
  have hnodup := nodup_aggData request tables impacting rows
  rcases hdata : aggData request tables impacting rows with _ | ⟨first, _ | ⟨second, rest⟩⟩
  · rw [hdata] at hin
    cases hin
  · have hfirst := hitem (by rw [hdata]; simp : first ∈ _)
    rw [hfirst]
  · have hfirst := hitem (by rw [hdata]; simp : first ∈ _)
    have hsecond := hitem (by rw [hdata]; simp : second ∈ _)
    rw [hdata, hfirst, hsecond] at hnodup
    simp at hnodup

theorem annotatedAlone_iff (request : Request) (tables : Tables) (impacting : Bool)
    (hrisk : ∀ rule ∈ tables.rules, 1 ≤ rule.totalRisk ∧ rule.totalRisk ≤ 4) :
    AnnotatedAlone request tables impacting ↔ Separable request tables impacting := by
  have hrows : ∀ row ∈ reportQuery request tables, 1 ≤ row.totalRisk ∧ row.totalRisk ≤ 4 := by
    intro row hrow
    obtain ⟨rule, hrule, hsame⟩ := row_of_mem hrow
    rw [← hsame]
    exact hrisk rule hrule
  have heq := forAccount_eq impacting hrows
  have halone : AnnotatedAlone request tables impacting ↔ ∀ a ∈ (if (reportQuery request tables).isEmpty then []
      else annotate request tables (aggData request tables impacting (reportQuery request tables))
        (published request tables impacting
          ((aggData request tables impacting (reportQuery request tables)).map (·.1)))), Own request tables a := by
    rw [AnnotatedAlone, heq]
    constructor
    · rintro ⟨pathways, hpathways, hown⟩
      rwa [Except.ok.inj hpathways]
    · exact fun h => ⟨_, rfl, h⟩
  rw [halone]
  clear halone heq
  cases hquery : (reportQuery request tables).isEmpty with
  | true =>
    have hnil : reportQuery request tables = [] := List.isEmpty_iff.mp hquery
    rw [if_pos rfl]
    refine iff_of_true (by simp) ?_
    rintro ⟨p, row, hrow, -⟩
    rw [hnil] at hrow
    cases hrow
  | false =>
    rw [if_neg Bool.false_ne_true]
    have himpacted : ∃ p, Impacted (reportQuery request tables) p := by
      obtain ⟨row, hrow⟩ := List.exists_mem_of_ne_nil _ (List.isEmpty_eq_false_iff.mp hquery)
      exact ⟨row.pathway, row, hrow, rfl⟩
    by_cases htwo : ∃ p q, Impacted (reportQuery request tables) p ∧ Impacted (reportQuery request tables) q ∧ p ≠ q
    · have hlen : 2 ≤ (aggData request tables impacting (reportQuery request tables)).length := by
        obtain ⟨p, q, hp, hq, hne⟩ := htwo
        exact two_le_aggData hp hq hne
      rw [own_annotated hlen fun pathway hpathway => mem_published.mp hpathway]
      constructor
      · intro h _ _
        refine ⟨htwo, ?_⟩
        by_cases hcommon : NothingInCommon request tables impacting (reportQuery request tables)
        · exact Or.inr hcommon
        · exact Or.inl fun pathway hshown => (h pathway (mem_published.mpr hshown)).resolve_right hcommon
      · intro h pathway hpathway
        have hshown := mem_published.mp hpathway
        exact (h himpacted ⟨pathway, hshown⟩).2.imp (fun hall => hall pathway hshown) id
    · obtain ⟨p, row, hrow, rfl⟩ := himpacted
      have hone : ∀ p, Impacted (reportQuery request tables) p → p = row.pathway := by
        intro p hp
        by_contra hne
        exact htwo ⟨p, row.pathway, hp, ⟨row, hrow, rfl⟩, hne⟩
      by_cases hshown : ∃ pathway, Shown request tables impacting pathway
      · obtain ⟨pathway, hpathway⟩ := hshown
        have hin := mem_published.mpr hpathway
        refine iff_of_false ?_ fun h => htwo (h ⟨_, row, hrow, rfl⟩ ⟨pathway, hpathway⟩).1
        rw [aggData_of_one hrow hone] at hin ⊢
        exact not_own_of_one hrow (hrows row hrow) hone hin
      · have hnone : published request tables impacting
            ((aggData request tables impacting (reportQuery request tables)).map (·.1)) = [] :=
          List.eq_nil_iff_forall_not_mem.mpr fun pathway hpathway => hshown ⟨pathway, mem_published.mp hpathway⟩
        rw [hnone]
        refine iff_of_true (fun a ha => ?_) fun _ h => absurd h hshown
        cases ha

def onePathway : Tables where
  rules := .single { id := 1, ruleId := "a|A", active := true, totalRisk := 3 }
  pathwayOf id := if id = 1 then some 5 else none
  pathways := .single ⟨5, some 0⟩
  reports := .single ⟨none, "1234", 1, 7, 1, .dict [], some 0⟩
  acks := .empty
  hostAcks := .empty

def viewer : Request := ⟨"1234", fun _ => true, 4, 1⟩

theorem annotatedAlone_viewer : AnnotatedAlone viewer onePathway true ↔ Separable viewer onePathway true :=
  annotatedAlone_iff viewer onePathway true fun rule hrule => by
    obtain rfl := Table.mem_single.mp hrule
    decide

/-- The one pathway with reports has a report of risk 3, but its count of them is 0. -/
theorem annotatedAlone_onePathway : ¬ AnnotatedAlone viewer onePathway true := by
  rintro ⟨pathways, hpathways, hown⟩
  have heq : forAccount viewer onePathway true =
      .ok [⟨5, 4, 1, false, false, 0, false, 0, 0, 0, 0, 0⟩] := by decide +kernel
  rw [heq] at hpathways
  obtain rfl := Except.ok.inj hpathways
  have hhigh := (hown _ List.mem_cons_self).highRiskCount
  exact absurd hhigh (by decide +kernel)

end Advisor.Pathways
