import Advisor.Access.Kessel
import Advisor.Models
import Advisor.Python.Raise

/-! The host groups the access service names for a request, and the hosts the request may
see. A missing list of groups means every host, so definitions that are skipped matter. -/

namespace Advisor

open Python Django

namespace AdvisorInventoryHost

def workspaceId (row : AdvisorInventoryHost) : Option Uuid :=
  match row.columns.lookup "workspace_id" with
  | some (some (.uuid u)) => some u
  | _ => none

def workspaceName (row : AdvisorInventoryHost) : Option String :=
  match row.columns.lookup "workspace_name" with
  | some (some (.text name)) => some name
  | _ => none

def workspaceUngrouped (row : AdvisorInventoryHost) : Option Bool :=
  match row.columns.lookup "workspace_ungrouped" with
  | some (some (.bool ungrouped)) => some ungrouped
  | _ => none

end AdvisorInventoryHost

namespace Access

def soughtPermission : RBACPermission := ⟨"inventory:hosts:read", "inventory", "hosts", "read"⟩

def roleDefinitions (role : Json) : Except Exception (Option (List Json)) := do
  if !(← role.hasKey "permission") then return none
  match RBACPermission.init (← role.item "permission") with
  | .error .valueError => return none
  | .error e => throw e
  | .ok rolePermission =>
    if !rolePermission.contains soughtPermission then return none
    if !(← role.hasKey "resourceDefinitions") then return none
    match ← role.item "resourceDefinitions" with
    | .list definitions => return some definitions
    | _ => return none

/-- The `key` and the `value` of the attribute filter of a definition, where they are there. -/
def attributeFilter? (rscdef : Json) : Option (Option Json × Option Json) :=
  match rscdef with
  | .dict items =>
    match items.lookup "attributeFilter" with
    | some (.dict attrfilter) => some (attrfilter.lookup "key", attrfilter.lookup "value")
    | _ => none
  | _ => none

def bracketed (value : String) : Bool :=
  value.toList.head? = some '[' && value.toList.getLast? = some ']'

/-- `json.loads`; `none` when the text is not JSON. -/
abbrev Loads := String → Option Json

variable (loads : Loads)

def decodeValue : Json → Except Exception Json
  | .str value =>
    if value = "" then .error .indexError
    else if bracketed value then
      match loads value with
      | some decoded => .ok decoded
      | none => .error .valueError
    else .ok (.str value)
  | value => .ok value

/-- What one definition adds to the groups; definitions of other shapes are skipped, but not
one with only half a filter. -/
def definitionGroups (rscdef : Json) : Except Exception (List Json) :=
  match attributeFilter? rscdef with
  | none | some (none, none) => .ok []
  | some (none, some _) => .error (.keyError "key")
  | some (some key, value?) =>
    if key.eq (.str "group.id") then
      match value? with
      | none => .error (.keyError "value")
      | some value => do
        match ← decodeValue loads value with
        | .list groups => return groups
        | _ => return []
    else .ok []

/-- The attribute `host_groups` of the request afterwards; `none` when it is not set. -/
def findHostGroups : List Json → List Json → Except Exception (Option (List Json))
  | [], hostGroups => .ok (if hostGroups.isEmpty then none else some hostGroups)
  | role :: rest, hostGroups => do
    match ← roleDefinitions role with
    | none => findHostGroups rest hostGroups
    | some [] => return none
    | some definitions =>
      let groups ← definitions.mapM (definitionGroups loads)
      findHostGroups rest (hostGroups ++ groups.flatten)

/-- A condition on the host columns; `all` is the empty `Q()`. -/
inductive Q where
  | all
  | workspaceIdIsNull
  | workspaceId (group : Uuid)
  | workspaceUngrouped
  | workspaceName (name : String)
  | or (p q : Q)
  | and (p q : Q)

namespace Q

/-- `p | q`: an empty condition is left out. -/
def union : Q → Q → Q
  | all, q => q
  | p, all => p
  | p, q => or p q

def inter : Q → Q → Q
  | all, q => q
  | p, all => p
  | p, q => and p q

def accepts (row : AdvisorInventoryHost) : Q → Bool
  | all => true
  | workspaceIdIsNull => row.workspaceId = none
  | workspaceId group => row.workspaceId = some group
  | workspaceUngrouped => row.workspaceUngrouped = some true
  | workspaceName name => row.workspaceName = some name
  | or p q => p.accepts row || q.accepts row
  | and p q => p.accepts row && q.accepts row

end Q

def groupFilter : Json → Except Exception Q
  | .null => .ok .workspaceIdIsNull
  | group => (uuidOf group).map .workspaceId

def nameFilter (name : String) : Q :=
  if name = "" then .workspaceUngrouped else .workspaceName name

/-- `hostGroupsParam` is empty when the request has no `groups` parameter. -/
def getHostGroupFilter (hostGroups : List Json) (hostGroupsParam : List String) : Except Exception Q := do
  if hostGroups.isEmpty && hostGroupsParam.isEmpty then return .all
  let groups ← hostGroups.mapM groupFilter
  return (groups.foldl Q.union .all).inter ((hostGroupsParam.map nameFilter).foldl Q.union .all)

/-- Whether a request whose roles are `roleList` sees a host. -/
def hostVisible (roleList : List Json) (hostGroupsParam : List String) (row : AdvisorInventoryHost) :
    Except Exception Bool := do
  let hostGroups ← findHostGroups loads roleList []
  let filter ← getHostGroupFilter (hostGroups.getD []) hostGroupsParam
  return filter.accepts row

def grants (role : Json) : Bool :=
  match role with
  | .dict items =>
    match items.lookup "permission" with
    | some permission =>
      match RBACPermission.init permission with
      | .ok rolePermission => rolePermission.contains soughtPermission
      | .error _ => false
    | none => false
  | _ => false

def definitionsOf (role : Json) : Option (List Json) :=
  match role with
  | .dict items =>
    match items.lookup "resourceDefinitions" with
    | some (.list definitions) => some definitions
    | _ => none
  | _ => none

/-- A definition names a group: its filter is for `group.id`, and the value is a list with the
group, as it stands or in JSON. -/
def Names (rscdef group : Json) : Prop :=
  ∃ value groups, attributeFilter? rscdef = some (some (.str "group.id"), some value) ∧ group ∈ groups ∧
    (value = .list groups ∨
      ∃ text, value = .str text ∧ bracketed text = true ∧ loads text = some (.list groups))

/-- Reading the definition raises: half a filter, an empty text, or a text in brackets that
is not JSON. -/
inductive Unreadable (rscdef : Json) : Prop where
  | noKey (value : Json) : attributeFilter? rscdef = some (none, some value) → Unreadable rscdef
  | noValue : attributeFilter? rscdef = some (some (.str "group.id"), none) → Unreadable rscdef
  | empty : attributeFilter? rscdef = some (some (.str "group.id"), some (.str "")) → Unreadable rscdef
  | notJson (text : String) : attributeFilter? rscdef = some (some (.str "group.id"), some (.str text)) →
      bracketed text = true → loads text = none → Unreadable rscdef

def BadEntry (role : Json) : Prop :=
  match role with
  | .dict items => ∃ permission, items.lookup "permission" = some permission ∧ permission.isStr = false
  | _ => role.hasKey "permission" ≠ .ok false

def grantedDefinitions (roleList : List Json) : List Json :=
  roleList.flatMap fun role => if grants role then (definitionsOf role).getD [] else []

/-- The hosts a request sees are those of the groups its definitions name, and it is without
restriction only by an entry with no definitions, or without any entry that grants. -/
structure Isolated (roleList : List Json) : Prop where
  restricted : findHostGroups loads roleList [] = .ok none →
    (∀ role ∈ roleList, grants role = false) ∨
      ∃ role ∈ roleList, grants role = true ∧ definitionsOf role = some []
  named : (∃ role ∈ roleList, grants role = true) →
    (∀ role ∈ roleList, grants role = true → ∃ d ds, definitionsOf role = some (d :: ds)) →
    ∀ hostGroupsParam row, hostVisible loads roleList hostGroupsParam row = .ok true →
      ∃ d ∈ grantedDefinitions roleList, ∃ group, Names loads d group ∧
        (group = .null ∧ row.workspaceId = none ∨ ∃ u, uuidOf group = .ok u ∧ row.workspaceId = some u)

/-- Nothing grants, an entry grants everything, an entry or a definition stops the request, or
some definition names a group. -/
inductive Restricting (roleList : List Json) : Prop where
  | ungranted : (∀ role ∈ roleList, grants role = false) → Restricting roleList
  | full (role : Json) : role ∈ roleList → grants role = true → definitionsOf role = some [] →
      Restricting roleList
  | badEntry (role : Json) : role ∈ roleList → BadEntry role → Restricting roleList
  | unreadable (d : Json) : d ∈ grantedDefinitions roleList → Unreadable loads d → Restricting roleList
  | named (d group : Json) : d ∈ grantedDefinitions roleList → Names loads d group → Restricting roleList

variable {loads}

variable (loads) in
theorem decodeValue_cases (value : Json) :
    (∃ decoded, decodeValue loads value = .ok decoded ∧
      (∀ groups, decoded = .list groups ↔ value = .list groups ∨
        ∃ text, value = .str text ∧ bracketed text = true ∧ loads text = some (.list groups)) ∧
      value ≠ .str "" ∧ ∀ text, value = .str text → bracketed text = true → loads text ≠ none) ∨
    (∃ e, decodeValue loads value = .error e) ∧
      (value = .str "" ∨ ∃ text, value = .str text ∧ bracketed text = true ∧ loads text = none) := by
  cases value with
  | str text =>
    by_cases hempty : text = ""
    · exact Or.inr ⟨⟨.indexError, by simp [decodeValue, hempty]⟩, Or.inl (by rw [hempty])⟩
    · by_cases hb : bracketed text = true
      · cases hl : loads text with
        | none =>
          exact Or.inr ⟨⟨.valueError, by simp [decodeValue, hempty, hb, hl]⟩, Or.inr ⟨text, rfl, hb, hl⟩⟩
        | some decoded => exact Or.inl ⟨decoded, by simp [decodeValue, hempty, hb, hl]⟩
      · exact Or.inl ⟨.str text, by simp [decodeValue, hempty, hb]⟩
  | _ => exact Or.inl ⟨_, rfl, by simp⟩

variable (loads) in
theorem definitionGroups_cases (rscdef : Json) :
    (∃ groups, definitionGroups loads rscdef = .ok groups ∧ (∀ g, g ∈ groups ↔ Names loads rscdef g) ∧
      ¬ Unreadable loads rscdef) ∨
    ((∃ e, definitionGroups loads rscdef = .error e) ∧ Unreadable loads rscdef) := by
  have hskip (h : definitionGroups loads rscdef = .ok [])
      (hne : ∀ value?, attributeFilter? rscdef ≠ some (some (.str "group.id"), value?))
      (hkey : ∀ value, attributeFilter? rscdef ≠ some (none, some value)) :
      ∃ groups, definitionGroups loads rscdef = .ok groups ∧ (∀ g, g ∈ groups ↔ Names loads rscdef g) ∧
        ¬ Unreadable loads rscdef := by
    refine ⟨[], h, fun g => ⟨by simp, ?_⟩, ?_⟩
    · rintro ⟨value, _, hf, _⟩
      exact absurd hf (hne _)
    · intro hu
      cases hu with
      | noKey value hf => exact hkey value hf
      | noValue hf => exact hne _ hf
      | empty hf => exact hne _ hf
      | notJson text hf => exact hne _ hf
  rcases hf : attributeFilter? rscdef with _ | ⟨_ | key, value?⟩
  · exact Or.inl (hskip (by simp [definitionGroups, hf]) (by simp [hf]) (by simp [hf]))
  · cases value? with
    | none => exact Or.inl (hskip (by simp [definitionGroups, hf]) (by simp [hf]) (by simp [hf]))
    | some value => exact Or.inr ⟨⟨.keyError "key", by simp only [definitionGroups, hf]⟩, .noKey value hf⟩
  · by_cases hgroup : key = .str "group.id"
    · subst hgroup
      have heq : (Json.str "group.id").eq (.str "group.id") = true := Json.eq_str.mpr rfl
      cases value? with
      | none => exact Or.inr ⟨⟨.keyError "value", by simp only [definitionGroups, hf, heq, if_true]⟩, .noValue hf⟩
      | some value =>
        rcases decodeValue_cases loads value with
          ⟨decoded, hdecoded, hlist, hnonempty, hjson⟩ | ⟨⟨e, he⟩, hbad⟩
        · left
          have hreadable : ¬ Unreadable loads rscdef := by
            intro hu
            cases hu with
            | noKey _ hf' => simp [hf] at hf'
            | noValue hf' => simp [hf] at hf'
            | empty hf' => exact hnonempty (by simpa [hf] using hf')
            | notJson text hf' hb hl => exact hjson text (by simpa [hf] using hf') hb hl
          have hnames (g : Json) : Names loads rscdef g ↔ ∃ groups, decoded = .list groups ∧ g ∈ groups := by
            constructor
            · rintro ⟨value', groups, hf', hg, hv⟩
              simp only [hf, Option.some.injEq, Prod.mk.injEq, true_and] at hf'
              subst hf'
              exact ⟨groups, (hlist groups).mpr hv, hg⟩
            · rintro ⟨groups, hd, hg⟩
              exact ⟨value, groups, hf, hg, (hlist groups).mp hd⟩
          by_cases hd : ∃ groups, decoded = .list groups
          · obtain ⟨groups, rfl⟩ := hd
            refine ⟨groups, ?_, fun g => by simp [hnames], hreadable⟩
            simp only [definitionGroups, hf, heq, if_true, hdecoded, bind, Except.bind, pure, Except.pure]
          · refine ⟨[], ?_, fun g => ?_, hreadable⟩
            · cases decoded with
              | list groups => exact absurd ⟨groups, rfl⟩ hd
              | _ => simp [definitionGroups, hf, heq, hdecoded, bind, Except.bind, pure, Except.pure]
            · rw [hnames]
              simp only [List.not_mem_nil, false_iff]
              rintro ⟨groups, hlist, -⟩
              exact hd ⟨groups, hlist⟩
        · refine Or.inr ⟨⟨e, by simp [definitionGroups, hf, heq, he, bind, Except.bind]⟩, ?_⟩
          rcases hbad with rfl | ⟨text, rfl, hb, hl⟩
          · exact .empty hf
          · exact .notJson text hf hb hl
    · have hne : key.eq (.str "group.id") = false := by
        simpa using fun h => hgroup (Json.eq_str.mp h)
      refine Or.inl (hskip ?_ ?_ (by simp [hf]))
      · simp [definitionGroups, hf, hne]
      · intro value?' hf'
        simp only [hf, Option.some.injEq, Prod.mk.injEq] at hf'
        exact hgroup hf'.1

theorem init_error {permission : Json} {e : Exception} (h : RBACPermission.init permission = .error e) :
    (e = .valueError ↔ permission.isStr = true) ∧ (permission.isStr = false → e = .typeError) := by
  cases permission with
  | str text =>
    simp only [RBACPermission.init] at h
    split at h
    · simp at h
    · simp only [Except.error.injEq] at h
      simp [← h, Json.isStr]
  | _ =>
    simp only [RBACPermission.init, Except.error.injEq] at h
    simp [← h, Json.isStr]

theorem init_ok {permission : Json} {p : RBACPermission} (h : RBACPermission.init permission = .ok p) :
    permission.isStr = true := by
  cases permission with
  | str text => rfl
  | _ => simp [RBACPermission.init] at h

theorem roleDefinitions_cases (role : Json) :
    (¬ BadEntry role ∧ roleDefinitions role = .ok (if grants role then definitionsOf role else none)) ∨
      (∃ e, roleDefinitions role = .error e) ∧ BadEntry role := by
  by_cases hdict : ∃ items, role = .dict items
  · obtain ⟨items, rfl⟩ := hdict
    have hkey (key : String) : (Json.dict items).hasKey key = .ok (items.lookup key).isSome := rfl
    have hitem {key : String} {value : Json} (h : items.lookup key = some value) :
        (Json.dict items).item key = .ok value := by simp [Json.item, h]
    cases hp : items.lookup "permission" with
    | none =>
      left
      refine ⟨by simp [BadEntry, hp], ?_⟩
      simp [roleDefinitions, hkey, hp, grants, bind, Except.bind, pure, Except.pure]
    | some permission =>
      cases hinit : RBACPermission.init permission with
      | error e =>
        by_cases hstr : permission.isStr = true
        · obtain rfl := (init_error hinit).1.mpr hstr
          left
          refine ⟨by simp [BadEntry, hp, hstr], ?_⟩
          simp [roleDefinitions, hkey, hitem hp, hp, hinit, grants, bind, Except.bind, pure, Except.pure]
        · obtain rfl := (init_error hinit).2 (by simpa using hstr)
          right
          refine ⟨⟨.typeError, ?_⟩, permission, hp, by simpa using hstr⟩
          simp [roleDefinitions, hkey, hitem hp, hp, hinit, bind, Except.bind, throw, throwThe,
            MonadExceptOf.throw]
      | ok p =>
        left
        refine ⟨by simp [BadEntry, hp, init_ok hinit], ?_⟩
        have hgrants : grants (.dict items) = p.contains soughtPermission := by simp [grants, hp, hinit]
        rw [hgrants]
        by_cases hc : p.contains soughtPermission = true
        · cases hd : items.lookup "resourceDefinitions" with
          | none =>
            simp [roleDefinitions, hkey, hitem hp, hp, hinit, hc, hd, definitionsOf, bind, Except.bind, pure,
              Except.pure]
          | some value =>
            cases value <;>
              simp [roleDefinitions, hkey, hitem hp, hitem hd, hp, hinit, hc, hd, definitionsOf, bind,
                Except.bind, pure, Except.pure]
        · simp [roleDefinitions, hkey, hitem hp, hp, hinit, hc, bind, Except.bind, pure, Except.pure]
  · have hbad : BadEntry role ↔ role.hasKey "permission" ≠ .ok false := by
      cases role with
      | dict items => exact absurd ⟨items, rfl⟩ hdict
      | _ => exact Iff.rfl
    have hgrants : grants role = false := by
      cases role with
      | dict items => exact absurd ⟨items, rfl⟩ hdict
      | _ => rfl
    have hitem : role.item "permission" = .error .typeError := by
      cases role with
      | dict items => exact absurd ⟨items, rfl⟩ hdict
      | _ => rfl
    rw [hbad, hgrants]
    rcases hkey : role.hasKey "permission" with e | _ | _
    · exact Or.inr ⟨⟨e, by simp [roleDefinitions, hkey, bind, Except.bind]⟩, by simp⟩
    · left
      refine ⟨by simp, ?_⟩
      simp [roleDefinitions, hkey, bind, Except.bind, pure, Except.pure]
    · right
      refine ⟨⟨.typeError, ?_⟩, by simp⟩
      simp [roleDefinitions, hkey, hitem, bind, Except.bind]

variable (loads) in
theorem definitions_cases (ds : List Json) :
    (∃ groups, ds.mapM (definitionGroups loads) = .ok groups ∧
      (∀ g, g ∈ groups.flatten ↔ ∃ d ∈ ds, Names loads d g) ∧ ∀ d ∈ ds, ¬ Unreadable loads d) ∨
    (∃ e, ds.mapM (definitionGroups loads) = .error e) ∧ ∃ d ∈ ds, Unreadable loads d := by
  induction ds with
  | nil => exact Or.inl ⟨[], rfl, by simp⟩
  | cons d ds ih =>
    rw [List.mapM_cons]
    rcases definitionGroups_cases loads d with ⟨groups, hd, hnames, hread⟩ | ⟨⟨e, he⟩, hbad⟩
    · rcases ih with ⟨rest, hrest, hnames', hread'⟩ | ⟨⟨e, he⟩, d', hd', hbad⟩
      · refine Or.inl ⟨groups :: rest, by rw [hd, hrest]; rfl, fun g => ?_, ?_⟩
        · simp [hnames, hnames']
        · simpa using ⟨hread, hread'⟩
      · exact Or.inr ⟨⟨e, by rw [hd, he]; rfl⟩, d', by simp [hd'], hbad⟩
    · exact Or.inr ⟨⟨e, by rw [he]; rfl⟩, d, by simp, hbad⟩

variable (loads) in
/-- Entries without an unrestricted one add the groups their definitions name, unless one of
them cannot be read. -/
theorem findHostGroups_cases {roleList : List Json}
    (hfull : ∀ role ∈ roleList, grants role = true → definitionsOf role ≠ some []) (hostGroups : List Json) :
    (∃ groups, findHostGroups loads roleList hostGroups =
        .ok (if (hostGroups ++ groups).isEmpty then none else some (hostGroups ++ groups)) ∧
      (∀ g, g ∈ groups ↔ ∃ d ∈ grantedDefinitions roleList, Names loads d g) ∧
      (∀ role ∈ roleList, ¬ BadEntry role) ∧ ∀ d ∈ grantedDefinitions roleList, ¬ Unreadable loads d) ∨
    (∃ e, findHostGroups loads roleList hostGroups = .error e) ∧
      ((∃ role ∈ roleList, BadEntry role) ∨ ∃ d ∈ grantedDefinitions roleList, Unreadable loads d) := by
  induction roleList generalizing hostGroups with
  | nil => exact Or.inl ⟨[], by simp [findHostGroups], by simp [grantedDefinitions]⟩
  | cons role rest ih =>
    have hrest := ih fun r hr => hfull r (by simp [hr])
    have hcons : grantedDefinitions (role :: rest) =
        (if grants role then (definitionsOf role).getD [] else []) ++ grantedDefinitions rest := rfl
    rw [hcons]
    rcases roleDefinitions_cases role with ⟨hgood, hrole⟩ | ⟨⟨e, he⟩, hbad⟩
    · have hused : (if grants role then (definitionsOf role).getD [] else []) =
          (if grants role then definitionsOf role else none).getD [] := by
        by_cases hg : grants role = true <;> simp [hg]
      rw [hused]
      cases hdefs : (if grants role then definitionsOf role else none) with
      | none =>
        have hskip : findHostGroups loads (role :: rest) hostGroups = findHostGroups loads rest hostGroups := by
          simp only [findHostGroups, hrole, hdefs, bind, Except.bind]
        rw [hskip]
        rcases hrest hostGroups with ⟨groups, hok, hnames, hgoods, hreads⟩ | ⟨herror, hbad⟩
        · refine Or.inl ⟨groups, hok, by simpa using hnames, ?_, by simpa using hreads⟩
          simpa using ⟨hgood, hgoods⟩
        · refine Or.inr ⟨herror, ?_⟩
          rcases hbad with ⟨r, hr, hbad⟩ | ⟨d, hd, hbad⟩
          · exact Or.inl ⟨r, by simp [hr], hbad⟩
          · exact Or.inr ⟨d, by simpa using hd, hbad⟩
      | some ds =>
        have hgrants : grants role = true := by
          by_contra hg
          simp [hg] at hdefs
        rw [hgrants, if_pos rfl] at hdefs
        have hne : ds ≠ [] := fun h => hfull role (by simp) hgrants (by rw [hdefs, h])
        have hstep : findHostGroups loads (role :: rest) hostGroups =
            ds.mapM (definitionGroups loads) >>= fun groups =>
              findHostGroups loads rest (hostGroups ++ groups.flatten) := by
          cases ds with
          | nil => exact absurd rfl hne
          | cons d ds => simp only [findHostGroups, hrole, hgrants, if_true, hdefs, bind, Except.bind]
        rw [hstep]
        rcases definitions_cases loads ds with ⟨added, hadded, hnames, hreads⟩ | ⟨⟨e, he⟩, hbad⟩
        · rw [hadded]
          rcases hrest (hostGroups ++ added.flatten) with
            ⟨groups, hok, hnames', hgoods, hreads'⟩ | ⟨herror, hbad⟩
          · refine Or.inl ⟨added.flatten ++ groups, ?_, fun g => ?_, by simpa using ⟨hgood, hgoods⟩, fun d hd => ?_⟩
            · simpa only [bind, Except.bind, List.append_assoc] using hok
            · simp only [List.mem_append, hnames, hnames', Option.getD_some, or_and_right, exists_or]
            · rcases List.mem_append.mp hd with hm | hm
              · exact hreads d hm
              · exact hreads' d hm
          · refine Or.inr ⟨herror, ?_⟩
            rcases hbad with ⟨r, hr, hbad⟩ | ⟨d, hd, hbad⟩
            · exact Or.inl ⟨r, by simp [hr], hbad⟩
            · exact Or.inr ⟨d, List.mem_append_right _ hd, hbad⟩
        · obtain ⟨d, hd, hbad⟩ := hbad
          exact Or.inr ⟨⟨e, by rw [he]; rfl⟩, Or.inr ⟨d, List.mem_append_left _ hd, hbad⟩⟩
    · refine Or.inr ⟨⟨e, by simp only [findHostGroups, he, bind, Except.bind]⟩, Or.inl ⟨role, by simp, hbad⟩⟩

theorem accepts_union {p q : Q} {row : AdvisorInventoryHost} (h : (p.union q).accepts row = true) :
    (p = .all ∧ q = .all) ∨ (p ≠ .all ∧ p.accepts row = true) ∨ (q ≠ .all ∧ q.accepts row = true) := by
  by_cases hp : p = .all
  · subst hp
    by_cases hq : q = .all
    · exact Or.inl ⟨rfl, hq⟩
    · exact Or.inr (Or.inr ⟨hq, h⟩)
  · by_cases hq : q = .all
    · subst hq
      refine Or.inr (Or.inl ⟨hp, ?_⟩)
      cases p <;> first | exact absurd rfl hp | exact h
    · have hor : p.union q = .or p q := by
        cases p <;> cases q <;> first | exact absurd rfl hp | exact absurd rfl hq | rfl
      rw [hor] at h
      simp only [Q.accepts, Bool.or_eq_true] at h
      exact Or.inr (h.imp (fun h => ⟨hp, h⟩) fun h => ⟨hq, h⟩)

theorem accepts_inter {p q : Q} {row : AdvisorInventoryHost} (h : (p.inter q).accepts row = true) :
    p.accepts row = true ∧ q.accepts row = true := by
  by_cases hp : p = .all
  · subst hp
    exact ⟨rfl, h⟩
  · by_cases hq : q = .all
    · subst hq
      refine ⟨?_, rfl⟩
      cases p <;> first | exact absurd rfl hp | exact h
    · have hand : p.inter q = .and p q := by
        cases p <;> cases q <;> first | exact absurd rfl hp | exact absurd rfl hq | rfl
      rw [hand] at h
      simpa [Q.accepts] using h

theorem accepts_foldl_union {qs : List Q} {p : Q} {row : AdvisorInventoryHost}
    (hqs : ∀ q ∈ qs, q ≠ .all) (h : (qs.foldl Q.union p).accepts row = true) :
    (p = .all ∧ qs = []) ∨ (p ≠ .all ∧ p.accepts row = true) ∨ ∃ q ∈ qs, q.accepts row = true := by
  induction qs generalizing p with
  | nil =>
    by_cases hp : p = .all
    · exact Or.inl ⟨hp, rfl⟩
    · exact Or.inr (Or.inl ⟨hp, h⟩)
  | cons q qs ih =>
    have hq := hqs q (by simp)
    have hunion : p.union q ≠ .all := by
      intro hall
      by_cases hp : p = .all
      · subst hp
        exact hq hall
      · cases p <;> cases q <;> first | exact hp rfl | exact hq rfl | simp [Q.union] at hall
    rcases ih (fun x hx => hqs x (by simp [hx])) h with ⟨hall, -⟩ | ⟨-, haccepts⟩ | ⟨x, hx, haccepts⟩
    · exact absurd hall hunion
    · rcases accepts_union haccepts with ⟨-, hall⟩ | hp | ⟨-, hq'⟩
      · exact absurd hall hq
      · exact Or.inr (Or.inl hp)
      · exact Or.inr (Or.inr ⟨q, by simp, hq'⟩)
    · exact Or.inr (Or.inr ⟨x, by simp [hx], haccepts⟩)

theorem accepts_groupFilter {group : Json} {q : Q} (h : groupFilter group = .ok q) (row : AdvisorInventoryHost) :
    q ≠ .all ∧ (q.accepts row = true →
      group = .null ∧ row.workspaceId = none ∨ ∃ u, uuidOf group = .ok u ∧ row.workspaceId = some u) := by
  by_cases hnull : group = .null
  · subst hnull
    simp only [groupFilter, Except.ok.injEq] at h
    subst h
    exact ⟨by simp, fun ha => Or.inl ⟨rfl, of_decide_eq_true ha⟩⟩
  · have hid : (uuidOf group).map Q.workspaceId = .ok q := by
      cases group with
      | null => exact absurd rfl hnull
      | _ => exact h
    cases hu : uuidOf group with
    | error e => simp [hu, Except.map] at hid
    | ok u =>
      simp only [hu, Except.map, Except.ok.injEq] at hid
      subst hid
      exact ⟨by simp, fun ha => Or.inr ⟨u, rfl, of_decide_eq_true ha⟩⟩

theorem accepted_in_group {hostGroups : List Json} {hostGroupsParam : List String} {q : Q}
    {row : AdvisorInventoryHost} (hne : hostGroups ≠ []) (h : getHostGroupFilter hostGroups hostGroupsParam = .ok q)
    (ha : q.accepts row = true) : ∃ group ∈ hostGroups,
      (group = .null ∧ row.workspaceId = none ∨ ∃ u, uuidOf group = .ok u ∧ row.workspaceId = some u) := by
  have hempty : hostGroups.isEmpty = false := by simpa using hne
  simp only [getHostGroupFilter, hempty, Bool.false_and, Bool.false_eq_true, if_false, bind_eq_ok] at h
  obtain ⟨filters, hfilters, hq⟩ := h
  simp only [pure, Except.pure, Except.ok.injEq] at hq
  subst hq
  have hall : ∀ f ∈ filters, f ≠ .all := by
    intro f hf
    obtain ⟨group, -, hgroup⟩ := (mapM_mem hfilters).mp hf
    exact (accepts_groupFilter hgroup row).1
  rcases accepts_foldl_union hall (accepts_inter ha).1 with ⟨-, hnil⟩ | ⟨hall, -⟩ | ⟨f, hf, haccepts⟩
  · subst hnil
    cases mapM_forall₂ hfilters
    exact absurd rfl hne
  · exact absurd rfl hall
  · obtain ⟨group, hgroup, hfilter⟩ := (mapM_mem hfilters).mp hf
    exact ⟨group, hgroup, (accepts_groupFilter hfilter row).2 haccepts⟩

/-- The hosts of a request are isolated exactly if its roles restrict it or stop it. -/
theorem isolated_iff (roleList : List Json) : Isolated loads roleList ↔ Restricting loads roleList := by
  constructor
  · intro h
    by_contra hnot
    have hfull : ∀ role ∈ roleList, grants role = true → definitionsOf role ≠ some [] :=
      fun role hr hg hd => hnot (.full role hr hg hd)
    rcases findHostGroups_cases loads hfull [] with ⟨groups, hok, hnames, -, -⟩ | ⟨-, hbad⟩
    · have hempty : groups = [] := by
        apply List.eq_nil_iff_forall_not_mem.mpr
        intro g hg
        obtain ⟨d, hd, hn⟩ := (hnames g).mp hg
        exact hnot (.named d g hd hn)
      subst hempty
      rcases h.restricted (by simpa using hok) with hnone | ⟨role, hr, hg, hd⟩
      · exact hnot (.ungranted hnone)
      · exact hfull role hr hg hd
    · rcases hbad with ⟨role, hr, hb⟩ | ⟨d, hd, hu⟩
      · exact hnot (.badEntry role hr hb)
      · exact hnot (.unreadable d hd hu)
  · intro h
    -- without an unrestricted entry, a request that is not stopped has groups
    have hgroups (hsome : ∃ role ∈ roleList, grants role = true)
        (hfull : ∀ role ∈ roleList, grants role = true → definitionsOf role ≠ some [])
        {attr : Option (List Json)} (hok : findHostGroups loads roleList [] = .ok attr) :
        ∃ groups, groups ≠ [] ∧ attr = some groups ∧
          ∀ g, g ∈ groups ↔ ∃ d ∈ grantedDefinitions roleList, Names loads d g := by
      rcases findHostGroups_cases loads hfull [] with
        ⟨groups, hok', hnames, hgood, hread⟩ | ⟨⟨e, he⟩, -⟩
      · have hne : groups ≠ [] := by
          rintro rfl
          cases h with
          | ungranted hnone =>
            obtain ⟨role, hr, hg⟩ := hsome
            simp [hnone role hr] at hg
          | full role hr hg hd => exact hfull role hr hg hd
          | badEntry role hr hb => exact hgood role hr hb
          | unreadable d hd hu => exact hread d hd hu
          | named d g hd hn =>
            have hmem := (hnames g).mpr ⟨d, hd, hn⟩
            simp at hmem
        rw [hok] at hok'
        simp only [List.nil_append, List.isEmpty_iff, hne, if_false, Except.ok.injEq] at hok'
        exact ⟨groups, hne, hok', hnames⟩
      · rw [hok] at he
        simp at he
    refine ⟨fun hnone => ?_, fun hsome hcarry hostGroupsParam row hvisible => ?_⟩
    · by_contra hc
      simp only [not_or, not_forall, Bool.not_eq_false, not_exists, not_and] at hc
      obtain ⟨⟨role, hr, hg⟩, hfull⟩ := hc
      obtain ⟨groups, -, hsome, -⟩ := hgroups ⟨role, hr, hg⟩ hfull hnone
      simp at hsome
    · have hfull : ∀ role ∈ roleList, grants role = true → definitionsOf role ≠ some [] := by
        intro role hr hg hd
        obtain ⟨d, ds, hds⟩ := hcarry role hr hg
        simp [hds] at hd
      simp only [hostVisible, bind_eq_ok] at hvisible
      obtain ⟨attr, hok, filter, hfilter, haccepts⟩ := hvisible
      simp only [pure, Except.pure, Except.ok.injEq] at haccepts
      obtain ⟨groups, hne, rfl, hnames⟩ := hgroups hsome hfull hok
      obtain ⟨group, hgroup, hin⟩ := accepted_in_group hne hfilter haccepts
      obtain ⟨d, hd, hn⟩ := (hnames group).mp hgroup
      exact ⟨d, hd, group, hn, hin⟩

/-- One definition, with a single group id as text: every host is visible. -/
theorem isolated_scalarGroup :
    let roleList := [Json.dict [("permission", .str "inventory:hosts:read"),
      ("resourceDefinitions", .list [.dict [("attributeFilter", .dict [("key", .str "group.id"),
        ("value", .str "11111111-1111-1111-1111-111111111111"), ("operation", .str "equal")])]])]]
    findHostGroups (fun _ => none) roleList [] = .ok none ∧ ¬ Isolated (fun _ => none) roleList := by
  intro roleList
  have hfind : findHostGroups (fun _ => none) roleList [] = .ok none := by decide +kernel
  have hgrants : roleList.all (fun role => grants role && definitionsOf role != some []) = true := by
    decide +kernel
  refine ⟨hfind, fun h => ?_⟩
  simp only [List.all_eq_true, Bool.and_eq_true, bne_iff_ne, ne_eq] at hgrants
  rcases h.restricted hfind with hnone | ⟨role, hr, -, hd⟩
  · have hrole : roleList.head (by simp [roleList]) ∈ roleList := List.head_mem _
    have hg := (hgrants _ hrole).1
    rw [hnone _ hrole] at hg
    simp at hg
  · exact (hgrants role hr).2 hd

end Access

end Advisor
