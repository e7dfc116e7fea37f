import Advisor.Python.Procedure
import Advisor.Tasks.Model

/-! The definitions of the tasks, as the internal task API creates and updates them: a task, its parameters, and what
executed tasks recorded for those. A request is no transaction. -/

namespace Advisor.Tasks.Content

open Python Procedure Django Relational

structure Task where
  id : Nat
  slug : String
  type : TaskType := .ansible
  title : String
  description : String
  publishDate : Instant
  active : Bool := false
  playbook : String
  timeout : Nat := 3600
  filterMessage : Option String := none
  filters : List String := []
  slug_length : slug.length ≤ 50
  title_length : title.length ≤ 200
  filterMessage_length : ∀ message ∈ filterMessage, message.length ≤ 200
  filters_length : ∀ filter ∈ filters, filter.length ≤ 40

abbrev ParameterValues := { values : List String // ∀ value ∈ values, value.length ≤ 250 }

/-- The columns of a parameter that have a default. -/
structure ParameterTexts where
  key : String := ""
  title : String := ""
  default : Option String := none
  description : String := ""
  required : Bool := false
  multiValued : Bool := false
  key_length : key.length ≤ 100
  title_length : title.length ≤ 250
  default_length : ∀ value ∈ default, value.length ≤ 250

structure ParameterFields extends ParameterTexts where
  values : ParameterValues

structure TaskParameter extends ParameterFields where
  id : Nat
  task : Nat
  index : Nat
  index_lt : index < 2 ^ 31

structure ExecutedTaskParameter where
  id : Nat
  executedTask : Nat
  parameter : Nat
  value : String

/-- The constraints of the tables hold of what is stored. -/
structure Store where
  tasks : Table Task.id
  parameters : Table TaskParameter.id
  recorded : Table ExecutedTaskParameter.id
  /-- The sequence of the parameters' ids. -/
  nextId : Nat
  slugs : (tasks.rows.map (·.slug)).Nodup
  indexes : (parameters.rows.map fun parameter => (parameter.task, parameter.index)).Nodup
  ofTask : ∀ parameter ∈ parameters, (tasks.get? parameter.task).isSome
  ofParameter : ∀ value ∈ recorded, (parameters.get? value.parameter).isSome
  ids_lt : ∀ parameter ∈ parameters, parameter.id < nextId

abbrev Run (α : Type) := Procedure Exception Store α

section Serializer

/-- What `TaskParameterSerializer` makes of a parameter. In a `PATCH` it requires no field, and those that are left
out have the default of their column. -/
structure ParameterData extends ParameterTexts where
  values : Option ParameterValues := none
  index : Option Nat := none
  index_lt : ∀ i ∈ index, i < 2 ^ 31

/-- The validated data; a request may leave out any field. -/
structure TaskData where
  slug : Option String := none
  type : Option TaskType := none
  title : Option String := none
  description : Option String := none
  publishDate : Option Instant := none
  active : Option Bool := none
  playbook : Option String := none
  filterMessage : Option (Option String) := none
  filters : Option (List String) := none
  parameters : Option (List ParameterData) := none
  slug_length : ∀ text ∈ slug, text.length ≤ 50
  title_length : ∀ text ∈ title, text.length ≤ 200
  filterMessage_length : ∀ text ∈ filterMessage, ∀ message ∈ text, message.length ≤ 200
  filters_length : ∀ list ∈ filters, ∀ filter ∈ list, filter.length ≤ 40

def pythonIndex : Option Nat → String
  | none => "None"
  | some index => toString index

def seeIndex (indexes : List (Option Nat)) (param : ParameterData) : Except String (List (Option Nat)) :=
  if indexes.contains param.index then
    .error ("Task parameters must have unique indexes for the same task. Index " ++ pythonIndex param.index ++
      " is duplicated.")
  else .ok (param.index :: indexes)

def validateParameters (params : List ParameterData) : Except String (List ParameterData) := do
  let _ ← params.foldlM seeIndex []
  return params

theorem getD_of {α : Type} {P : α → Prop} {given : Option α} {old : α} (h : ∀ a ∈ given, P a) (hold : P old) :
    P (given.getD old) := by
  cases given with
  | none => exact hold
  | some a => exact h a rfl

def Task.withData (task : Task) (data : TaskData) : Task where
  id := task.id
  slug := data.slug.getD task.slug
  type := data.type.getD task.type
  title := data.title.getD task.title
  description := data.description.getD task.description
  publishDate := data.publishDate.getD task.publishDate
  active := data.active.getD task.active
  playbook := data.playbook.getD task.playbook
  timeout := task.timeout
  filterMessage := data.filterMessage.getD task.filterMessage
  filters := data.filters.getD task.filters
  slug_length := getD_of data.slug_length task.slug_length
  title_length := getD_of data.title_length task.title_length
  filterMessage_length := getD_of data.filterMessage_length task.filterMessage_length
  filters_length := getD_of data.filters_length task.filters_length

def ParameterData.position (param : ParameterData) : Nat := param.index.getD 1

/-- The values have no default, and their column takes no NULL. -/
def ParameterData.fields? (param : ParameterData) : Option ParameterFields :=
  param.values.map fun values => { param.toParameterTexts with values }

theorem one_lt : 1 < 2 ^ 31 := by decide

def ParameterData.row (param : ParameterData) (task id : Nat) (fields : ParameterFields) : TaskParameter where
  toParameterFields := fields
  id
  task
  index := param.position
  index_lt := getD_of param.index_lt one_lt

def numbered (task : Nat) : Nat → List ParameterData → Option (List TaskParameter)
  | _, [] => some []
  | id, param :: rest => do
    let fields ← param.fields?
    let rows ← numbered task (id + 1) rest
    return param.row task id fields :: rows

theorem numbered_cons {task id : Nat} {param : ParameterData} {rest : List ParameterData} {rows : List TaskParameter} :
    numbered task id (param :: rest) = some rows ↔
      ∃ fields later, param.fields? = some fields ∧ numbered task (id + 1) rest = some later ∧
        param.row task id fields :: later = rows := by
  simp [numbered, Option.bind_eq_some_iff]

theorem numbered_isSome (task id : Nat) (params : List ParameterData) :
    (numbered task id params).isSome ↔ ∀ param ∈ params, param.values ≠ none := by
  induction params generalizing id with
  | nil => simp [numbered]
  | cons param rest ih =>
    rw [List.forall_mem_cons, ← ih (id + 1), Option.isSome_iff_exists, Option.isSome_iff_exists]
    simp only [numbered_cons, ParameterData.fields?, Option.map_eq_some_iff]
    constructor
    · rintro ⟨_, _, later, ⟨values, hvalues, -⟩, hlater, -⟩
      exact ⟨by simp [hvalues], later, hlater⟩
    · rintro ⟨hvalues, later, hlater⟩
      obtain ⟨values, hvalues⟩ := Option.ne_none_iff_exists'.mp hvalues
      exact ⟨_, _, later, ⟨values, hvalues, rfl⟩, hlater, rfl⟩

section Numbered

variable {task id : Nat} {params : List ParameterData} {rows : List TaskParameter}

theorem numbered_ids (h : numbered task id params = some rows) : rows.map (·.id) = List.range' id params.length := by
  induction params generalizing id rows with
  | nil =>
    obtain rfl := Option.some.inj h
    rfl
  | cons param rest ih =>
    obtain ⟨fields, later, -, hlater, rfl⟩ := numbered_cons.mp h
    rw [List.map_cons, ih hlater, List.length_cons, List.range'_succ]
    rfl

theorem numbered_places (h : numbered task id params = some rows) :
    (rows.map fun parameter => (parameter.task, parameter.index)) = params.map fun param => (task, param.position) := by
  induction params generalizing id rows with
  | nil =>
    obtain rfl := Option.some.inj h
    rfl
  | cons param rest ih =>
    obtain ⟨fields, later, -, hlater, rfl⟩ := numbered_cons.mp h
    rw [List.map_cons, List.map_cons, ih hlater]
    rfl

theorem numbered_fields (h : numbered task id params = some rows) :
    (rows.map fun parameter => (some parameter.toParameterFields, parameter.index)) =
      params.map fun param => (param.fields?, param.position) := by
  induction params generalizing id rows with
  | nil =>
    obtain rfl := Option.some.inj h
    rfl
  | cons param rest ih =>
    obtain ⟨fields, later, hfields, hlater, rfl⟩ := numbered_cons.mp h
    rw [List.map_cons, List.map_cons, ih hlater, hfields]
    rfl

theorem numbered_task (h : numbered task id params = some rows) {parameter : TaskParameter} (hmem : parameter ∈ rows) :
    parameter.task = task := by
  have hplace : (parameter.task, parameter.index) ∈ params.map fun param => (task, param.position) :=
    numbered_places h ▸ List.mem_map_of_mem (f := fun parameter => (parameter.task, parameter.index)) hmem
  obtain ⟨param, -, heq⟩ := List.mem_map.mp hplace
  exact (congrArg Prod.fst heq).symm

theorem numbered_id (h : numbered task id params = some rows) {parameter : TaskParameter} (hmem : parameter ∈ rows) :
    id ≤ parameter.id ∧ parameter.id < id + params.length := by
  have hid := List.mem_map_of_mem (f := (·.id)) hmem
  rw [numbered_ids h, List.mem_range'_1] at hid
  exact hid

end Numbered

end Serializer

section Writes

def Task.save (task : Task) : Run Unit := fun s =>
  let tasks := s.tasks.upsert (overwrite Task.id) task
  if h : (tasks.rows.map (·.slug)).Nodup then
    (.ok (), { s with
      tasks
      slugs := h
      ofTask := fun parameter hparameter => by
        rw [get?_overwrite]
        split_ifs
        · rfl
        · exact s.ofTask parameter hparameter })
  else (.error .integrityError, s)

/-- `DELETE` of a task's parameters, which takes what executed tasks recorded for them along. -/
def Store.withoutParameters (s : Store) (task : Nat) : Store :=
  let gone : TaskParameter → Bool := fun parameter => parameter.task = task
  { s with
    parameters := s.parameters.deleteWhere gone
    recorded := s.recorded.deleteWhere fun value => (s.parameters.get? value.parameter).any gone
    indexes := s.indexes.sublist (List.filter_sublist.map _)
    ofTask := fun parameter hparameter => s.ofTask parameter (Table.mem_deleteWhere.mp hparameter).1
    ofParameter := fun value hvalue => by
      obtain ⟨hmem, hkept⟩ := Table.mem_deleteWhere.mp hvalue
      obtain ⟨parameter, hget⟩ := Option.isSome_iff_exists.mp (s.ofParameter value hmem)
      rw [hget, Option.any_some] at hkept
      simp [Table.get?_deleteWhere, hget, hkept]
    ids_lt := fun parameter hparameter => s.ids_lt parameter (Table.mem_deleteWhere.mp hparameter).1 }

def deleteParameters (task : Nat) : Run Unit := write fun s => s.withoutParameters task

section Rows

variable {task : Nat} {params : List ParameterData} {rows : List TaskParameter}

theorem Store.ids_nodup (s : Store) (h : numbered task s.nextId params = some rows) :
    ((s.parameters.rows ++ rows).map (·.id)).Nodup := by
  rw [List.map_append, List.nodup_append, numbered_ids h]
  refine ⟨s.parameters.unique, List.nodup_range', ?_⟩
  intro id hid id' hid'
  obtain ⟨parameter, hparameter, rfl⟩ := List.mem_map.mp hid
  have hlt := s.ids_lt parameter hparameter
  rw [List.mem_range'_1] at hid'
  omega

def Store.withParameters (s : Store) (hrows : numbered task s.nextId params = some rows)
    (htask : (s.tasks.get? task).isSome)
    (h : ((s.parameters.rows ++ rows).map fun parameter => (parameter.task, parameter.index)).Nodup) : Store :=
  { s with
    parameters := ⟨s.parameters.rows ++ rows, s.ids_nodup hrows⟩
    nextId := s.nextId + params.length
    indexes := h
    ofTask := fun parameter hparameter => by
      rcases List.mem_append.mp hparameter with hold | hnew
      · exact s.ofTask parameter hold
      · rwa [numbered_task hrows hnew]
    ofParameter := fun value hvalue => by
      obtain ⟨parameter, hget⟩ := Option.isSome_iff_exists.mp (s.ofParameter value hvalue)
      obtain ⟨hmem, hid⟩ := Table.get?_eq_some.mp hget
      exact Option.isSome_iff_exists.mpr
        ⟨parameter, Table.get?_eq_some.mpr ⟨List.mem_append_left _ hmem, hid⟩⟩
    ids_lt := fun parameter hparameter => by
      rcases List.mem_append.mp hparameter with hold | hnew
      · have hlt := s.ids_lt parameter hold
        omega
      · exact (numbered_id hrows hnew).2 }

end Rows

/-- `bulk_create`: all rows or none. -/
def bulkCreate (task : Nat) (params : List ParameterData) : Run Unit := fun s =>
  match hrows : numbered task s.nextId params with
  | none => (.error .integrityError, s)
  | some rows =>
    if h : (s.tasks.get? task).isSome ∧
        ((s.parameters.rows ++ rows).map fun parameter => (parameter.task, parameter.index)).Nodup then
      (.ok (), s.withParameters hrows h.1 h.2)
    else (.error .integrityError, s)

def update (task : Task) (data : TaskData) : Run Task := do
  let parameters := data.parameters.getD []
  let task := task.withData data
  task.save
  if !parameters.isEmpty then
    deleteParameters task.id
    bulkCreate task.id parameters
  return task

end Writes

section Specification

def Store.parametersOf (s : Store) (task : Nat) : List TaskParameter :=
  s.parameters.rows.filter fun parameter => parameter.task = task

/-- The data have passed the serializer; `params` are their parameters. -/
structure Validated (s : Store) (task : Task) (data : TaskData) (params : List ParameterData) : Prop where
  stored : task ∈ s.tasks
  supplied : data.parameters = some params
  indexes : validateParameters params = .ok params
  slug : ∀ other ∈ s.tasks, data.slug = some other.slug → other.id = task.id

/-- The task is as the data say, its parameters are those of the data, and nothing else is different. -/
structure Replaced (task : Task) (data : TaskData) (params : List ParameterData) (s s' : Store) : Prop where
  updated : s'.tasks.get? task.id = some (task.withData data)
  tasks : ∀ id, id ≠ task.id → s'.tasks.get? id = s.tasks.get? id
  parameters : ((s'.parametersOf task.id).map fun parameter => (some parameter.toParameterFields, parameter.index)).Perm
    (params.map fun param => (param.fields?, param.position))
  others : ∀ parameter, parameter.task ≠ task.id → (parameter ∈ s'.parameters ↔ parameter ∈ s.parameters)

structure Unchanged (s s' : Store) : Prop where
  tasks : s'.tasks.Same s.tasks
  parameters : s'.parameters.Same s.parameters

def Atomic (s : Store) (task : Task) (data : TaskData) (params : List ParameterData) : Prop :=
  (∃ updated s', update task data s = (.ok updated, s') ∧ Replaced task data params s s') ∨
    ∃ e s', update task data s = (.error e, s') ∧ Unchanged s s'

def KeepsRecorded (s : Store) (task : Task) (data : TaskData) : Prop :=
  (update task data s).2.recorded.Same s.recorded

def Clash (params : List ParameterData) : Prop :=
  ∃ param ∈ params, ∃ other ∈ params, param.index = none ∧ other.index = some 1

/-- The parameters cannot be inserted: two get one index, or one has no values. -/
def Unfit (params : List ParameterData) : Prop := Clash params ∨ ∃ param ∈ params, param.values = none

end Specification

section Cases

variable {s : Store} {task : Task} {data : TaskData} {params : List ParameterData}

theorem seeIndex_fold {indexes seen : List (Option Nat)} (hseen : seen.Nodup)
    (h : params.foldlM seeIndex seen = .ok indexes) : (seen.reverse ++ params.map (·.index)).Nodup := by
  induction params generalizing seen with
  | nil => simpa using hseen
  | cons param rest ih =>
    rw [List.foldlM_cons, seeIndex] at h
    by_cases hmem : param.index ∈ seen
    · rw [if_pos (by simpa using hmem)] at h
      cases h
    · rw [if_neg (by simpa using hmem)] at h
      have hrest := ih (List.nodup_cons.mpr ⟨hmem, hseen⟩) h
      rwa [List.reverse_cons, List.append_assoc] at hrest

theorem validateParameters_nodup (h : validateParameters params = .ok params) : (params.map (·.index)).Nodup := by
  rw [validateParameters] at h
  cases hfold : params.foldlM seeIndex [] with
  | error e =>
    rw [hfold] at h
    cases h
  | ok indexes => exact seeIndex_fold List.nodup_nil hfold

theorem positions_nodup (h : validateParameters params = .ok params) :
    (params.map ParameterData.position).Nodup ↔ ¬ Clash params := by
  constructor
  · rintro hnodup ⟨param, hparam, other, hother, hnone, hone⟩
    have heq : param = other := List.inj_on_of_nodup_map hnodup hparam hother (by
      rw [ParameterData.position, ParameterData.position, hnone, hone]
      rfl)
    rw [heq, hone] at hnone
    cases hnone
  · intro hclash
    have hmap : params.map ParameterData.position = (params.map (·.index)).map (·.getD 1) := by
      rw [List.map_map]
      rfl
    rw [hmap]
    refine (validateParameters_nodup h).map_on ?_
    intro i hi j hj hij
    obtain ⟨param, hparam, rfl⟩ := List.mem_map.mp hi
    obtain ⟨other, hother, rfl⟩ := List.mem_map.mp hj
    cases hp : param.index with
    | none =>
      cases ho : other.index with
      | none => rfl
      | some j =>
        rw [hp, ho] at hij
        exact absurd ⟨param, hparam, other, hother, hp, by rw [ho, ← (show 1 = j from hij)]⟩ hclash
    | some i =>
      cases ho : other.index with
      | none =>
        rw [hp, ho] at hij
        exact absurd ⟨other, hother, param, hparam, ho, by rw [hp, (show i = 1 from hij)]⟩ hclash
      | some j =>
        rw [hp, ho] at hij
        exact congrArg some hij

theorem withData_slug (h : Validated s task data params) {other : Task} (hother : other ∈ s.tasks)
    (hslug : (task.withData data).slug = other.slug) : other.id = task.id := by
  have hslug : data.slug.getD task.slug = other.slug := hslug
  cases hdata : data.slug with
  | none =>
    rw [hdata] at hslug
    rw [List.inj_on_of_nodup_map s.slugs h.stored hother hslug]
  | some slug =>
    rw [hdata] at hslug
    exact h.slug other hother (by rw [hdata, ← hslug]; rfl)

theorem save_of_validated (h : Validated s task data params) :
    ∃ s', (task.withData data).save s = (.ok (), s') ∧
      s'.tasks = s.tasks.upsert (overwrite Task.id) (task.withData data) ∧ s'.parameters = s.parameters ∧
        s'.recorded = s.recorded ∧ s'.nextId = s.nextId := by
  have hslugs : ((s.tasks.upsert (overwrite Task.id) (task.withData data)).rows.map (·.slug)).Nodup := by
    rw [List.nodup_map_iff_inj_on (Table.unique _).of_map]
    intro a ha b hb hslug
    rcases mem_overwrite.mp ha with rfl | ⟨ha, hne⟩
    · rcases mem_overwrite.mp hb with rfl | ⟨hb, hne⟩
      · rfl
      · exact absurd (withData_slug h hb hslug) hne
    · rcases mem_overwrite.mp hb with rfl | ⟨hb, -⟩
      · exact absurd (withData_slug h ha hslug.symm) hne
      · exact List.inj_on_of_nodup_map s.slugs ha hb hslug
  rw [Task.save, dif_pos hslugs]
  exact ⟨_, rfl, rfl, rfl, rfl, rfl⟩

theorem places_nodup {s : Store} {id : Nat} {rows : List TaskParameter} (hrows : numbered id s.nextId params = some rows)
    (hnone : ∀ parameter ∈ s.parameters, parameter.task ≠ id) :
    ((s.parameters.rows ++ rows).map fun parameter => (parameter.task, parameter.index)).Nodup ↔
      (params.map ParameterData.position).Nodup := by
  have hpair : (params.map fun param => (id, param.position)) = (params.map ParameterData.position).map (Prod.mk id) := by
    rw [List.map_map]
    rfl
  have hinjective : Function.Injective (Prod.mk id : Nat → Nat × Nat) := fun i j hij => (Prod.mk.injEq _ _ _ _ ▸ hij).2
  rw [List.map_append, List.nodup_append, numbered_places hrows, hpair, List.nodup_map_iff hinjective]
  refine ⟨fun h => h.2.1, fun h => ⟨s.indexes, h, ?_⟩⟩
  intro place hplace place' hplace' heq
  obtain ⟨parameter, hparameter, rfl⟩ := List.mem_map.mp hplace
  obtain ⟨i, -, rfl⟩ := List.mem_map.mp hplace'
  exact hnone parameter hparameter (congrArg Prod.fst heq)

theorem bulkCreate_cases {s : Store} {id : Nat} (hindexes : validateParameters params = .ok params)
    (htask : (s.tasks.get? id).isSome) (hnone : ∀ parameter ∈ s.parameters, parameter.task ≠ id) :
    (¬ Unfit params ∧ ∃ rows s', numbered id s.nextId params = some rows ∧ bulkCreate id params s = (.ok (), s') ∧
        s'.tasks = s.tasks ∧ s'.recorded = s.recorded ∧ s'.parameters.rows = s.parameters.rows ++ rows) ∨
      (Unfit params ∧ bulkCreate id params s = (.error .integrityError, s)) := by
  unfold bulkCreate
  split
  · rename_i hrows
    refine .inr ⟨.inr ?_, rfl⟩
    by_contra hvalues
    push Not at hvalues
    have hsome := (numbered_isSome id s.nextId params).mpr hvalues
    rw [hrows] at hsome
    cases hsome
  · rename_i rows hrows
    have hvalues : ∀ param ∈ params, param.values ≠ none := (numbered_isSome id s.nextId params).mp (by rw [hrows]; rfl)
    have hplaces := places_nodup hrows hnone
    rw [positions_nodup hindexes] at hplaces
    by_cases hclash : Clash params
    · refine .inr ⟨.inl hclash, ?_⟩
      rw [dif_neg fun hadmitted => hplaces.mp hadmitted.2 hclash]
    · refine .inl ⟨?_, rows, s.withParameters hrows htask (hplaces.mpr hclash), hrows, ?_, rfl, rfl, rfl⟩
      · rintro (hc | ⟨param, hparam, hmissing⟩)
        · exact hclash hc
        · exact hvalues param hparam hmissing
      · rw [dif_pos ⟨htask, hplaces.mpr hclash⟩]

/-- What an update writes: the task alone if the list is empty, and then the parameters' deletion and all or none of
the new ones. -/
theorem update_cases (h : Validated s task data params) :
    ∃ s', s'.tasks = s.tasks.upsert (overwrite Task.id) (task.withData data) ∧
      ((params = [] ∧ update task data s = (.ok (task.withData data), s') ∧
          s'.parameters = s.parameters ∧ s'.recorded = s.recorded) ∨
        (params ≠ [] ∧ s'.recorded = (s.withoutParameters task.id).recorded ∧
          (¬ Unfit params ∧ update task data s = (.ok (task.withData data), s') ∧
              (∃ rows, numbered task.id s.nextId params = some rows ∧
                s'.parameters.rows = (s.withoutParameters task.id).parameters.rows ++ rows) ∨
            Unfit params ∧ update task data s = (.error .integrityError, s') ∧
              s'.parameters = (s.withoutParameters task.id).parameters))) := by
  obtain ⟨saved, hsave, htasks, hparameters, hrecorded, hnext⟩ := save_of_validated h
  cases hparams : params with
  | nil =>
    have hrun : update task data s = (.ok (task.withData data), saved) := by
      rw [update, h.supplied, hparams, bind_of_ok hsave]
      rfl
    exact ⟨saved, htasks, .inl ⟨rfl, hrun, hparameters, hrecorded⟩⟩
  | cons param rest =>
    rw [← hparams]
    have hne : params ≠ [] := by simp [hparams]
    have hdeleted : update task data s =
        (bulkCreate task.id params >>= fun _ => pure (task.withData data)) (saved.withoutParameters task.id) := by
      rw [update, h.supplied, hparams, bind_of_ok hsave]
      rfl
    have hkept : (saved.withoutParameters task.id).parameters = (s.withoutParameters task.id).parameters := by
      rw [Store.withoutParameters, Store.withoutParameters]
      dsimp only
      rw [hparameters]
    have hvalues : (saved.withoutParameters task.id).recorded = (s.withoutParameters task.id).recorded := by
      rw [Store.withoutParameters, Store.withoutParameters]
      dsimp only
      rw [hparameters, hrecorded]
    have htask : ((saved.withoutParameters task.id).tasks.get? task.id).isSome := by
      rw [show (saved.withoutParameters task.id).tasks = saved.tasks from rfl, htasks, get?_overwrite,
        if_pos (show (task.withData data).id = task.id from rfl)]
      rfl
    have hnone : ∀ parameter ∈ (saved.withoutParameters task.id).parameters, parameter.task ≠ task.id := by
      intro parameter hparameter
      simpa using (Table.mem_deleteWhere.mp hparameter).2
    rcases bulkCreate_cases h.indexes htask hnone with
      ⟨hfit, rows, s', hrows, hcreate, htasks', hrecorded', hparameters'⟩ | ⟨hunfit, hcreate⟩
    · refine ⟨s', htasks'.trans htasks, .inr ⟨hne, hrecorded'.trans hvalues, .inl ⟨hfit,
        hdeleted.trans (bind_of_ok hcreate), rows, ?_, by rw [hparameters', hkept]⟩⟩⟩
      rw [← hnext]
      exact hrows
    · exact ⟨saved.withoutParameters task.id, htasks,
        .inr ⟨hne, hvalues, .inr ⟨hunfit, hdeleted.trans (bind_of_error hcreate), hkept⟩⟩⟩

theorem mem_parametersOf {s : Store} {id : Nat} {parameter : TaskParameter} :
    parameter ∈ s.parametersOf id ↔ parameter ∈ s.parameters ∧ parameter.task = id := by
  rw [Store.parametersOf, List.mem_filter, decide_eq_true_eq, Table.mem_def]

theorem parametersOf_eq_nil {s : Store} {id : Nat} :
    s.parametersOf id = [] ↔ ∀ parameter ∈ s.parameters, parameter.task ≠ id := by
  rw [List.eq_nil_iff_forall_not_mem]
  simp only [mem_parametersOf, not_and]

theorem mem_withoutParameters {s : Store} {id : Nat} {parameter : TaskParameter} :
    parameter ∈ (s.withoutParameters id).parameters ↔ parameter ∈ s.parameters ∧ parameter.task ≠ id := by
  rw [Store.withoutParameters, Table.mem_deleteWhere, decide_eq_false_iff_not]

theorem replaced_of_rows {s' : Store} {rows : List TaskParameter}
    (htasks : s'.tasks = s.tasks.upsert (overwrite Task.id) (task.withData data))
    (hnumbered : numbered task.id s.nextId params = some rows)
    (hrows : s'.parameters.rows = (s.withoutParameters task.id).parameters.rows ++ rows) :
    Replaced task data params s s' where
  updated := by rw [htasks, get?_overwrite, if_pos (show (task.withData data).id = task.id from rfl)]
  tasks id hid := by rw [htasks, get?_overwrite, if_neg fun heq => hid heq.symm]
  parameters := by
    have hkept : (s.withoutParameters task.id).parameters.rows.filter (fun parameter => parameter.task = task.id) = [] := by
      rw [List.filter_eq_nil_iff]
      intro parameter hparameter
      simpa using (mem_withoutParameters.mp hparameter).2
    have hnew : rows.filter (fun parameter => parameter.task = task.id) = rows := by
      rw [List.filter_eq_self]
      intro parameter hparameter
      simpa using numbered_task hnumbered hparameter
    rw [Store.parametersOf, hrows, List.filter_append, hkept, hnew, List.nil_append, numbered_fields hnumbered]
  others parameter hparameter := by
    rw [Table.mem_def, hrows, List.mem_append, ← Table.mem_def, mem_withoutParameters]
    constructor
    · rintro (⟨hmem, -⟩ | hnew)
      · exact hmem
      · exact absurd (numbered_task hnumbered hnew) hparameter
    · exact fun hmem => .inl ⟨hmem, hparameter⟩

theorem unchanged_iff {s' : Store} (hstored : task ∈ s.tasks)
    (htasks : s'.tasks = s.tasks.upsert (overwrite Task.id) (task.withData data))
    (hparameters : s'.parameters = (s.withoutParameters task.id).parameters) :
    Unchanged s s' ↔ s.parametersOf task.id = [] ∧ task.withData data = task := by
  constructor
  · rintro ⟨hsame, hkept⟩
    constructor
    · rw [parametersOf_eq_nil]
      intro parameter hparameter
      rw [← hkept parameter, hparameters, mem_withoutParameters] at hparameter
      exact hparameter.2
    · have hmem : task.withData data ∈ s.tasks := by
        rw [← hsame, htasks]
        exact mem_overwrite.mpr (.inl rfl)
      exact s.tasks.key_injOn hmem hstored rfl
  · rintro ⟨hnil, heq⟩
    constructor
    · rw [htasks, heq]
      intro row
      rw [mem_overwrite]
      constructor
      · rintro (rfl | ⟨hrow, -⟩)
        · exact hstored
        · exact hrow
      · intro hrow
        by_cases hid : row.id = task.id
        · exact .inl (s.tasks.key_injOn hrow hstored hid)
        · exact .inr ⟨hrow, hid⟩
    · intro parameter
      rw [hparameters, mem_withoutParameters, and_iff_left_iff_imp]
      exact parametersOf_eq_nil.mp hnil parameter

theorem atomic_iff (h : Validated s task data params) :
    Atomic s task data params ↔ (params = [] → s.parametersOf task.id = []) ∧
      (Unfit params → s.parametersOf task.id = [] ∧ task.withData data = task) := by
  obtain ⟨s', htasks, hcases⟩ := update_cases h
  rcases hcases with
    ⟨rfl, hrun, hparameters, -⟩ | ⟨hne, -, ⟨hfit, hrun, rows, hnumbered, hrows⟩ | ⟨hunfit, hrun, hparameters⟩⟩
  · have hsame : s'.parametersOf task.id = s.parametersOf task.id := by
      rw [Store.parametersOf, Store.parametersOf, hparameters]
    constructor
    · rintro (⟨updated, s'', hrun', hreplaced⟩ | ⟨e, s'', hrun', -⟩)
      · rw [hrun, Prod.mk.injEq] at hrun'
        obtain ⟨-, rfl⟩ := hrun'
        have hnil := List.map_eq_nil_iff.mp (List.perm_nil.mp hreplaced.parameters)
        rw [hsame] at hnil
        refine ⟨fun _ => hnil, ?_⟩
        rintro (⟨param, hparam, -⟩ | ⟨param, hparam, -⟩)
        · cases hparam
        · cases hparam
      · rw [hrun] at hrun'
        cases hrun'
    · intro hnil
      refine .inl ⟨_, s', hrun, ⟨?_, ?_, ?_, ?_⟩⟩
      · rw [htasks, get?_overwrite, if_pos (show (task.withData data).id = task.id from rfl)]
      · intro id hid
        rw [htasks, get?_overwrite, if_neg fun heq => hid heq.symm]
      · rw [hsame, hnil.1 rfl]
        exact List.Perm.refl _
      · intro parameter _
        rw [hparameters]
  · refine iff_of_true (.inl ⟨_, s', hrun, replaced_of_rows htasks hnumbered hrows⟩) ⟨?_, ?_⟩
    · exact fun hnil => absurd hnil hne
    · exact fun hunfit => absurd hunfit hfit
  · rw [← unchanged_iff h.stored htasks hparameters]
    constructor
    · rintro (⟨updated, s'', hrun', -⟩ | ⟨e, s'', hrun', hunchanged⟩)
      · rw [hrun] at hrun'
        cases hrun'
      · rw [hrun, Prod.mk.injEq] at hrun'
        obtain ⟨-, rfl⟩ := hrun'
        exact ⟨fun hnil => absurd hnil hne, fun _ => hunchanged⟩
    · exact fun hunchanged => .inr ⟨_, s', hrun, hunchanged.2 hunfit⟩

theorem keepsRecorded_iff (h : Validated s task data params) :
    KeepsRecorded s task data ↔ params = [] ∨
      ∀ value ∈ s.recorded, ∀ parameter ∈ s.parametersOf task.id, value.parameter ≠ parameter.id := by
  have hdeleted : (s.withoutParameters task.id).recorded.Same s.recorded ↔
      ∀ value ∈ s.recorded, ∀ parameter ∈ s.parametersOf task.id, value.parameter ≠ parameter.id := by
    constructor
    · intro hsame value hvalue parameter hparameter heq
      obtain ⟨hmem, htask⟩ := mem_parametersOf.mp hparameter
      have hget := Table.mem_iff_get?.mp hmem
      have hkept := (Table.mem_deleteWhere.mp ((hsame value).mpr hvalue)).2
      rw [heq, hget, Option.any_some, htask] at hkept
      simp at hkept
    · intro hnone value
      refine ⟨fun hvalue => (Table.mem_deleteWhere.mp hvalue).1, fun hvalue => Table.mem_deleteWhere.mpr ⟨hvalue, ?_⟩⟩
      obtain ⟨parameter, hget⟩ := Option.isSome_iff_exists.mp (s.ofParameter value hvalue)
      obtain ⟨hmem, hid⟩ := Table.get?_eq_some.mp hget
      rw [hget, Option.any_some, decide_eq_false_iff_not]
      exact fun htask => hnone value hvalue parameter (mem_parametersOf.mpr ⟨hmem, htask⟩) hid.symm
  obtain ⟨s', -, hcases⟩ := update_cases h
  rw [KeepsRecorded]
  rcases hcases with ⟨rfl, hrun, -, hrecorded⟩ | ⟨hne, hrecorded, ⟨-, hrun, -⟩ | ⟨-, hrun, -⟩⟩
  · rw [hrun, hrecorded]
    exact iff_of_true (Table.Same.refl _) (.inl rfl)
  · rw [hrun, hrecorded, hdeleted, or_iff_right hne]
  · rw [hrun, hrecorded, hdeleted, or_iff_right hne]

end Cases

section Replacement

/-- An update replaces the parameters or changes nothing unless the list is empty or cannot be inserted, and the
recorded values stay if no executed task has any. -/
theorem update_atomic_iff (s : Store) (task : Task) (data : TaskData) (params : List ParameterData)
    (h : Validated s task data params) :
    (Atomic s task data params ∧ KeepsRecorded s task data) ↔
      ((params = [] → s.parametersOf task.id = []) ∧
          (Unfit params → s.parametersOf task.id = [] ∧ task.withData data = task)) ∧
        (params = [] ∨ ∀ value ∈ s.recorded, ∀ parameter ∈ s.parametersOf task.id, value.parameter ≠ parameter.id) :=
  and_congr (atomic_iff h) (keepsRecorded_iff h)

def pingTask : Task where
  id := 1
  slug := "ping"
  title := "Ping"
  description := "Ping a host"
  publishDate := 0
  playbook := "- name: ping"
  slug_length := by decide
  title_length := by decide
  filterMessage_length := by decide
  filters_length := by decide

def countTexts : ParameterTexts where
  key := "COUNT"
  title := "Count"
  description := "How often"
  key_length := by decide
  title_length := by decide
  default_length := by decide

def countValues : ParameterValues := ⟨["1", "2"], by decide⟩

def pingData (params : List ParameterData) : TaskData where
  parameters := some params
  slug_length := by decide
  title_length := by decide
  filterMessage_length := by decide
  filters_length := by decide

def pingStore : Store where
  tasks := .single pingTask
  parameters := .single { countTexts with values := countValues, id := 1, task := 1, index := 1, index_lt := one_lt }
  recorded := .single ⟨1, 7, 1, "2"⟩
  nextId := 2
  slugs := by decide
  indexes := by decide
  ofTask := by
    intro parameter hparameter
    rw [Table.mem_single.mp hparameter]
    rfl
  ofParameter := by
    intro value hvalue
    rw [Table.mem_single.mp hvalue]
    rfl
  ids_lt := by
    intro parameter hparameter
    rw [Table.mem_single.mp hparameter]
    decide

def emptyStore : Store where
  tasks := .single pingTask
  parameters := .empty
  recorded := .empty
  nextId := 1
  slugs := by decide
  indexes := List.nodup_nil
  ofTask := fun _ h => absurd h List.not_mem_nil
  ofParameter := fun _ h => absurd h List.not_mem_nil
  ids_lt := fun _ h => absurd h List.not_mem_nil

theorem pingData_validated {s : Store} {params : List ParameterData} (hs : s.tasks = .single pingTask)
    (hparams : validateParameters params = .ok params) : Validated s pingTask (pingData params) params where
  stored := by rw [hs]; exact Table.mem_single.mpr rfl
  supplied := rfl
  indexes := hparams
  slug := fun _ _ h => nomatch h

theorem someOne_lt : ∀ i ∈ some 1, i < 2 ^ 31 := by decide

def countData : ParameterData := { countTexts with values := some countValues, index := some 1, index_lt := someOne_lt }

theorem noIndex_lt : ∀ i ∈ (none : Option Nat), i < 2 ^ 31 := by decide

theorem next_length : "NEXT".length ≤ 100 := by decide

def nextData : ParameterData :=
  { countTexts with values := some countValues, key := "NEXT", index_lt := noIndex_lt, key_length := next_length }

def valuelessData : ParameterData := { countTexts with index := some 1, index_lt := someOne_lt }

theorem update_emptyStore :
    Atomic emptyStore pingTask (pingData [countData]) [countData] ∧
      KeepsRecorded emptyStore pingTask (pingData [countData]) := by
  refine (update_atomic_iff _ _ _ _ (pingData_validated rfl rfl)).mpr ⟨⟨fun _ => rfl, ?_⟩, .inr ?_⟩
  · rintro (⟨param, hparam, -, -, hnone, -⟩ | ⟨param, hparam, hnone⟩)
    · rw [List.mem_singleton.mp hparam] at hnone
      cases hnone
    · rw [List.mem_singleton.mp hparam] at hnone
      cases hnone
  · exact fun value hvalue => absurd hvalue List.not_mem_nil

/-- An empty list, a list with a clash, one without values, and any other list for a task that was executed. -/
theorem replacement_fails :
    (Validated pingStore pingTask (pingData []) [] ∧ ¬ Atomic pingStore pingTask (pingData []) []) ∧
      (Validated pingStore pingTask (pingData [nextData, countData]) [nextData, countData] ∧
        ¬ Atomic pingStore pingTask (pingData [nextData, countData]) [nextData, countData]) ∧
      (Validated pingStore pingTask (pingData [valuelessData]) [valuelessData] ∧
        ¬ Atomic pingStore pingTask (pingData [valuelessData]) [valuelessData]) ∧
      (Validated pingStore pingTask (pingData [countData]) [countData] ∧
        ¬ KeepsRecorded pingStore pingTask (pingData [countData])) := by
  have hparameters : pingStore.parametersOf pingTask.id ≠ [] := by decide +kernel
  refine ⟨⟨pingData_validated rfl rfl, ?_⟩, ⟨pingData_validated rfl rfl, ?_⟩,
    ⟨pingData_validated rfl rfl, ?_⟩, pingData_validated rfl rfl, ?_⟩
  · rw [atomic_iff (pingData_validated rfl rfl)]
    exact fun h => hparameters (h.1 rfl)
  · rw [atomic_iff (pingData_validated rfl rfl)]
    exact fun h => hparameters (h.2 (.inl ⟨nextData, by simp, countData, by simp, rfl, rfl⟩)).1
  · rw [atomic_iff (pingData_validated rfl rfl)]
    exact fun h => hparameters (h.2 (.inr ⟨valuelessData, by simp, rfl⟩)).1
  · intro hsame
    have hrecorded : (update pingTask (pingData [countData]) pingStore).2.recorded.rows = [] := by decide +kernel
    have hmem := (hsame ⟨1, 7, 1, "2"⟩).mpr (Table.mem_single.mpr rfl)
    rw [Table.mem_def, hrecorded] at hmem
    exact absurd hmem List.not_mem_nil

end Replacement

end Advisor.Tasks.Content
