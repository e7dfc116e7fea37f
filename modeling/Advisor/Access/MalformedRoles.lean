import Advisor.Access.HostGroups

/-! Role lists as the access service may send them: which entries and definitions are malformed, which of these stop a
request, and what the others come to. -/

namespace Advisor.Access

open Python

variable (loads : Loads)

def unrestricted (role : Json) : Bool := grants role && decide (definitionsOf role = some [])

def consulted (roleList : List Json) : List Json := roleList.takeWhile fun role => !unrestricted role

/-- One of them, or a definition of one that grants, cannot be read. -/
inductive Stops (roleList : List Json) : Prop where
  | entry (role : Json) : role ∈ consulted roleList → BadEntry role → Stops roleList
  | definition (d : Json) : d ∈ grantedDefinitions (consulted roleList) → Unreadable loads d → Stops roleList

def isList : Json → Bool
  | .list _ => true
  | _ => false

def listValue : Json → Bool
  | .list _ => true
  | .str text => bracketed text && ((loads text).map isList).getD false
  | _ => false

def wellFormedDefinition (rscdef : Json) : Bool :=
  match attributeFilter? rscdef with
  | some (some key, some value) => !key.eq (.str "group.id") || listValue loads value
  | _ => false

def permissionOf (role : Json) : Option RBACPermission :=
  (role.field? "permission").bind fun permission => (RBACPermission.init permission).toOption

def withDefinitions (role : Json) (definitions : List Json) : Json :=
  match role with
  | .dict items => .dict (Json.setKey "resourceDefinitions" (.list definitions) items)
  | role => role

/-- An entry without its malformed definitions. One without a permission or a list of definitions is malformed itself,
and so is one that has definitions, all of them malformed. -/
def wellFormedPart (role : Json) : Option Json :=
  match permissionOf role, definitionsOf role with
  | some _, some definitions =>
    let kept := definitions.filter (wellFormedDefinition loads)
    if definitions.isEmpty then some role
    else if kept.isEmpty then none
    else some (withDefinitions role kept)
  | _, _ => none

def withoutMalformed (roleList : List Json) : List Json := roleList.filterMap (wellFormedPart loads)

/-- The list is read, and as if what is malformed in it were absent. -/
def Tolerated (roleList : List Json) : Prop :=
  ∃ hostGroups, findHostGroups loads roleList [] = .ok hostGroups ∧
    findHostGroups loads (withoutMalformed loads roleList) [] = .ok hostGroups

def usedDefinitions (role : Json) : Option (List Json) := if grants role then definitionsOf role else none

variable {loads}

variable (loads) in
theorem findHostGroups_cons (role : Json) (rest hostGroups : List Json) :
    ((∃ e, findHostGroups loads (role :: rest) hostGroups = .error e) ∧ BadEntry role) ∨ ¬ BadEntry role ∧
      ((usedDefinitions role = none ∧ findHostGroups loads (role :: rest) hostGroups = findHostGroups loads rest hostGroups) ∨
      (usedDefinitions role = some [] ∧ findHostGroups loads (role :: rest) hostGroups = .ok none) ∨
      ∃ ds, ds ≠ [] ∧ usedDefinitions role = some ds ∧ findHostGroups loads (role :: rest) hostGroups =
        ds.mapM (definitionGroups loads) >>= fun groups => findHostGroups loads rest (hostGroups ++ groups.flatten)) := by
  rcases roleDefinitions_cases role with ⟨hgood, hrole⟩ | ⟨⟨e, he⟩, hbad⟩
  · refine Or.inr ⟨hgood, ?_⟩
    change roleDefinitions role = .ok (usedDefinitions role) at hrole
    cases hused : usedDefinitions role with
    | none =>
      refine Or.inl ⟨rfl, ?_⟩
      simp only [findHostGroups, hrole, hused, bind, Except.bind]
    | some ds =>
      cases ds with
      | nil =>
        refine Or.inr (Or.inl ⟨rfl, ?_⟩)
        simp only [findHostGroups, hrole, hused, bind, Except.bind, pure, Except.pure]
      | cons d ds =>
        refine Or.inr (Or.inr ⟨d :: ds, by simp, rfl, ?_⟩)
        simp only [findHostGroups, hrole, hused, bind, Except.bind]
  · exact Or.inl ⟨⟨e, by simp only [findHostGroups, he, bind, Except.bind]⟩, hbad⟩

theorem unrestricted_iff {role : Json} : unrestricted role = true ↔ usedDefinitions role = some [] := by
  by_cases hg : grants role = true
  · simp [unrestricted, usedDefinitions, hg]
  · simp [unrestricted, usedDefinitions, hg]

theorem not_badEntry_of_grants {role : Json} (h : grants role = true) : ¬ BadEntry role := by
  cases role with
  | dict items =>
    rintro ⟨permission, hlookup, hstr⟩
    rw [grants, hlookup] at h
    cases hinit : RBACPermission.init permission with
    | ok p =>
      rw [init_ok hinit] at hstr
      cases hstr
    | error e =>
      simp only [hinit] at h
      cases h
  | _ => cases h

theorem stops_nil : ¬ Stops loads [] := by
  intro h
  cases h with
  | entry role hrole => cases hrole
  | definition d hd => cases hd

theorem stops_of_unrestricted {role : Json} (h : unrestricted role = true) (rest : List Json) :
    ¬ Stops loads (role :: rest) := by
  have hnil : consulted (role :: rest) = [] := by simp [consulted, h]
  intro hstops
  cases hstops with
  | entry other hother =>
    rw [hnil] at hother
    cases hother
  | definition d hd =>
    rw [hnil] at hd
    cases hd

theorem stops_cons {role : Json} (h : unrestricted role = false) (rest : List Json) :
    Stops loads (role :: rest) ↔
      BadEntry role ∨ (∃ d ∈ (usedDefinitions role).getD [], Unreadable loads d) ∨ Stops loads rest := by
  have hcons : consulted (role :: rest) = role :: consulted rest := by simp [consulted, h]
  have hgranted : grantedDefinitions (role :: consulted rest) =
      (usedDefinitions role).getD [] ++ grantedDefinitions (consulted rest) := by
    rw [grantedDefinitions, List.flatMap_cons]
    by_cases hg : grants role = true
    · simp [usedDefinitions, hg, grantedDefinitions]
    · simp [usedDefinitions, hg, grantedDefinitions]
  constructor
  · intro hstops
    cases hstops with
    | entry other hother hbad =>
      rw [hcons] at hother
      rcases List.mem_cons.mp hother with rfl | hother
      · exact Or.inl hbad
      · exact Or.inr (Or.inr (.entry other hother hbad))
    | definition d hd hbad =>
      rw [hcons, hgranted] at hd
      rcases List.mem_append.mp hd with hd | hd
      · exact Or.inr (Or.inl ⟨d, hd, hbad⟩)
      · exact Or.inr (Or.inr (.definition d hd hbad))
  · rintro (hbad | ⟨d, hd, hbad⟩ | hrest)
    · exact .entry role (by simp [hcons]) hbad
    · exact .definition d (by rw [hcons, hgranted]; exact List.mem_append_left _ hd) hbad
    · cases hrest with
      | entry other hother hbad => exact .entry other (by simp [hcons, hother]) hbad
      | definition d hd hbad => exact .definition d (by rw [hcons, hgranted]; exact List.mem_append_right _ hd) hbad

theorem findHostGroups_ok_iff (roleList hostGroups : List Json) :
    (∃ found, findHostGroups loads roleList hostGroups = .ok found) ↔ ¬ Stops loads roleList := by
  induction roleList generalizing hostGroups with
  | nil => exact iff_of_true ⟨_, rfl⟩ stops_nil
  | cons role rest ih =>
    rcases findHostGroups_cons loads role rest hostGroups with
      ⟨⟨e, he⟩, hbad⟩ | ⟨hgood, ⟨hused, hfind⟩ | ⟨hused, hfind⟩ | ⟨ds, hne, hused, hfind⟩⟩
    · have hrestricted : unrestricted role = false := by
        rw [← Bool.not_eq_true]
        intro hfull
        exact not_badEntry_of_grants (Bool.and_eq_true_iff.mp hfull).1 hbad
      rw [he, stops_cons hrestricted]
      exact iff_of_false (by simp) (not_not_intro (Or.inl hbad))
    · have hrestricted : unrestricted role = false := by
        rw [← Bool.not_eq_true, unrestricted_iff, hused]
        simp
      rw [hfind, ih, stops_cons hrestricted, hused]
      simp [hgood]
    · exact iff_of_true ⟨_, hfind⟩ (stops_of_unrestricted (unrestricted_iff.mpr hused) rest)
    · have hrestricted : unrestricted role = false := by
        rw [← Bool.not_eq_true, unrestricted_iff, hused]
        simpa using hne
      rw [hfind, stops_cons hrestricted, hused]
      rcases definitions_cases loads ds with ⟨groups, hgroups, -, hread⟩ | ⟨⟨e, he⟩, d, hd, hbad⟩
      · rw [hgroups]
        show (∃ found, findHostGroups loads rest (hostGroups ++ groups.flatten) = .ok found) ↔ _
        rw [ih]
        refine not_congr (or_iff_right ?_ |>.trans (or_iff_right ?_)).symm
        · exact hgood
        · rintro ⟨d, hd, hbad⟩
          exact hread d hd hbad
      · rw [he]
        exact iff_of_false (by rintro ⟨found, hfound⟩; cases hfound) (not_not_intro (Or.inr (Or.inl ⟨d, hd, hbad⟩)))

theorem wellFormed_of_names {d group : Json} (h : Names loads d group) : wellFormedDefinition loads d = true := by
  obtain ⟨value, groups, hfilter, -, hvalue⟩ := h
  rw [wellFormedDefinition, hfilter]
  show (!(Json.str "group.id").eq (.str "group.id") || listValue loads value) = true
  rw [Bool.or_eq_true]
  right
  rcases hvalue with rfl | ⟨text, rfl, hbracketed, hloads⟩
  · rfl
  · simp [listValue, hbracketed, hloads, isList]

theorem definitions_wellFormed {ds : List Json} {groups : List (List Json)}
    (h : ds.mapM (definitionGroups loads) = .ok groups) :
    ∃ kept, (ds.filter (wellFormedDefinition loads)).mapM (definitionGroups loads) = .ok kept ∧
      kept.flatten = groups.flatten := by
  induction ds generalizing groups with
  | nil =>
    obtain rfl := Except.ok.inj h
    exact ⟨[], rfl, rfl⟩
  | cons d ds ih =>
    rw [List.mapM_cons] at h
    obtain ⟨first, hfirst, h⟩ := bind_eq_ok.mp h
    obtain ⟨rest, hrest, h⟩ := bind_eq_ok.mp h
    obtain rfl := Except.ok.inj h
    obtain ⟨kept, hkept, hflatten⟩ := ih hrest
    by_cases hd : wellFormedDefinition loads d = true
    · refine ⟨first :: kept, ?_, by rw [List.flatten_cons, List.flatten_cons, hflatten]⟩
      rw [List.filter_cons_of_pos hd, List.mapM_cons, hfirst, hkept]
      rfl
    · refine ⟨kept, by rw [List.filter_cons_of_neg hd]; exact hkept, ?_⟩
      have hnil : first = [] := by
        rcases definitionGroups_cases loads d with ⟨groups, hgroups, hnames, -⟩ | ⟨⟨e, he⟩, -⟩
        · obtain rfl := Except.ok.inj (hfirst.symm.trans hgroups)
          refine List.eq_nil_iff_forall_not_mem.mpr fun g hg => ?_
          exact hd (wellFormed_of_names ((hnames g).mp hg))
        · rw [hfirst] at he
          cases he
      rw [hnil, List.flatten_cons, List.nil_append, hflatten]

theorem permissionOf_of_grants {role : Json} (h : grants role = true) : ∃ p, permissionOf role = some p := by
  cases role with
  | dict items =>
    rw [grants] at h
    cases hlookup : items.lookup "permission" with
    | none =>
      rw [hlookup] at h
      cases h
    | some permission =>
      rw [hlookup] at h
      cases hinit : RBACPermission.init permission with
      | ok p => exact ⟨p, by simp [permissionOf, Json.field?, hlookup, hinit, Except.toOption]⟩
      | error e =>
        simp only [hinit] at h
        cases h
  | _ => cases h

theorem withDefinitions_spec {role : Json} {ds : List Json} (h : definitionsOf role = some ds) (kept : List Json) :
    (BadEntry (withDefinitions role kept) ↔ BadEntry role) ∧
      usedDefinitions (withDefinitions role kept) = if grants role then some kept else none := by
  cases role with
  | dict items =>
    have hpermission : (Json.setKey "resourceDefinitions" (.list kept) items).lookup "permission" =
        items.lookup "permission" := by
      rw [Json.lookup_setKey, if_neg (by decide)]
    have hdefinitions : (Json.setKey "resourceDefinitions" (.list kept) items).lookup "resourceDefinitions" =
        some (.list kept) := by
      rw [Json.lookup_setKey, if_pos rfl]
    refine ⟨?_, ?_⟩
    · simp only [withDefinitions, BadEntry, hpermission]
    · simp only [usedDefinitions, withDefinitions, grants, definitionsOf, hpermission, hdefinitions]
      rfl
  | _ => cases h

theorem wellFormedPart_cases {role : Json} (hgood : ¬ BadEntry role) :
    (wellFormedPart loads role = none ∧ ∀ ds, usedDefinitions role = some ds →
      ds ≠ [] ∧ ds.filter (wellFormedDefinition loads) = []) ∨
    ∃ part, wellFormedPart loads role = some part ∧ ¬ BadEntry part ∧
      (usedDefinitions part = (usedDefinitions role).map fun ds => ds.filter (wellFormedDefinition loads)) ∧
      ∀ ds, usedDefinitions role = some ds → ds ≠ [] → ds.filter (wellFormedDefinition loads) ≠ [] := by
  have hused : ∀ {ds}, usedDefinitions role = some ds → grants role = true ∧ definitionsOf role = some ds := by
    intro ds h
    by_cases hg : grants role = true
    · rw [usedDefinitions, if_pos hg] at h
      exact ⟨hg, h⟩
    · rw [usedDefinitions, if_neg hg] at h
      cases h
  cases hpermission : permissionOf role with
  | none =>
    refine Or.inl ⟨by simp [wellFormedPart, hpermission], fun ds hds => ?_⟩
    obtain ⟨p, hp⟩ := permissionOf_of_grants (hused hds).1
    rw [hpermission] at hp
    cases hp
  | some p =>
    cases hdefinitions : definitionsOf role with
    | none =>
      refine Or.inl ⟨by simp [wellFormedPart, hpermission, hdefinitions], fun ds hds => ?_⟩
      rw [hdefinitions] at hused
      cases (hused hds).2
    | some ds =>
      by_cases hnil : ds = []
      · refine Or.inr ⟨role, by simp [wellFormedPart, hpermission, hdefinitions, hnil], hgood, ?_, fun other hother hne => ?_⟩
        · cases h : usedDefinitions role with
          | none => rfl
          | some other =>
            obtain rfl := Option.some.inj (hdefinitions.symm.trans (hused h).2)
            rw [hnil]
            rfl
        · obtain rfl := Option.some.inj (hdefinitions.symm.trans (hused hother).2)
          exact absurd hnil hne
      · by_cases hkept : ds.filter (wellFormedDefinition loads) = []
        · refine Or.inl ⟨by simp [wellFormedPart, hpermission, hdefinitions, hnil, hkept], fun other hother => ?_⟩
          obtain rfl := Option.some.inj (hdefinitions.symm.trans (hused hother).2)
          exact ⟨hnil, hkept⟩
        · obtain ⟨hbad, hpart⟩ := withDefinitions_spec hdefinitions (ds.filter (wellFormedDefinition loads))
          refine Or.inr ⟨_, ?_, mt hbad.mp hgood, ?_, fun other hother _ => ?_⟩
          · simp only [wellFormedPart, hpermission, hdefinitions, List.isEmpty_iff, hnil, hkept, if_false]
          · rw [hpart, usedDefinitions]
            by_cases hg : grants role = true
            · rw [if_pos hg, if_pos hg, hdefinitions]
              rfl
            · rw [if_neg hg, if_neg hg]
              rfl
          · obtain rfl := Option.some.inj (hdefinitions.symm.trans (hused hother).2)
            exact hkept

/-- A list that is read comes to the same without what is malformed in it. -/
theorem findHostGroups_withoutMalformed {roleList hostGroups : List Json} {found : Option (List Json)}
    (h : findHostGroups loads roleList hostGroups = .ok found) :
    findHostGroups loads (withoutMalformed loads roleList) hostGroups = .ok found := by
  induction roleList generalizing hostGroups with
  | nil => exact h
  | cons role rest ih =>
    rcases findHostGroups_cons loads role rest hostGroups with
      ⟨⟨e, he⟩, -⟩ | ⟨hgood, hcases⟩
    · rw [he] at h
      cases h
    rcases wellFormedPart_cases hgood with ⟨hnone, hdropped⟩ | ⟨part, hpart, hpartGood, hpartUsed, hkeeps⟩
    · rw [withoutMalformed, List.filterMap_cons_none hnone]
      rcases hcases with ⟨-, hfind⟩ | ⟨hused, -⟩ | ⟨ds, hne, hused, hfind⟩
      · exact ih (hfind ▸ h)
      · exact absurd rfl (hdropped [] hused).1
      · rw [hfind] at h
        obtain ⟨groups, hgroups, hrest⟩ := bind_eq_ok.mp h
        obtain ⟨kept, hkept, hflatten⟩ := definitions_wellFormed hgroups
        rw [(hdropped ds hused).2] at hkept
        obtain rfl := Except.ok.inj hkept
        rw [← hflatten] at hrest
        exact ih (by simpa using hrest)
    · rw [withoutMalformed, List.filterMap_cons_some hpart]
      have hpartCases := findHostGroups_cons loads part (withoutMalformed loads rest) hostGroups
      rw [or_iff_right (by simp [hpartGood]), and_iff_right hpartGood, hpartUsed] at hpartCases
      rcases hcases with ⟨hused, hfind⟩ | ⟨hused, hfind⟩ | ⟨ds, hne, hused, hfind⟩
      · rw [hused] at hpartCases
        rcases hpartCases with ⟨-, hpartFind⟩ | ⟨hsome, -⟩ | ⟨ds, -, hsome, -⟩
        · exact hpartFind.trans (ih (hfind ▸ h))
        · cases hsome
        · cases hsome
      · rw [hused] at hpartCases
        rcases hpartCases with ⟨hnone, -⟩ | ⟨-, hpartFind⟩ | ⟨ds, hne, hsome, -⟩
        · cases hnone
        · exact hpartFind.trans (hfind.symm.trans h)
        · exact absurd (Option.some.inj hsome).symm hne
      · rw [hused] at hpartCases
        rcases hpartCases with ⟨hnone, -⟩ | ⟨hnil, -⟩ | ⟨kept, -, hsome, hpartFind⟩
        · cases hnone
        · exact absurd (Option.some.inj hnil) (hkeeps ds hused hne)
        · obtain rfl := Option.some.inj hsome
          rw [hfind] at h
          obtain ⟨groups, hgroups, hrest⟩ := bind_eq_ok.mp h
          obtain ⟨kept, hkept, hflatten⟩ := definitions_wellFormed hgroups
          refine hpartFind.trans ?_
          rw [hkept]
          show findHostGroups loads (withoutMalformed loads rest) (hostGroups ++ kept.flatten) = _
          rw [hflatten]
          exact ih hrest

/-- A role list is read, as without its malformed parts, exactly when nothing in what is looked at of it stops the
request. -/
theorem tolerated_iff (loads : Loads) (roleList : List Json) : Tolerated loads roleList ↔ ¬ Stops loads roleList := by
  rw [← findHostGroups_ok_iff roleList []]
  constructor
  · rintro ⟨found, hfound, -⟩
    exact ⟨found, hfound⟩
  · rintro ⟨found, hfound⟩
    exact ⟨found, hfound, findHostGroups_withoutMalformed hfound⟩

def filterWithoutValue : Json :=
  .dict [("permission", .str "inventory:hosts:read"),
    ("resourceDefinitions", .list [.dict [("attributeFilter", .dict [("key", .str "group.id"), ("operation", .str "in")])]])]

/-- A filter without a value raises, where one that has neither a value nor a key is skipped. -/
theorem filterWithoutValue_raises :
    findHostGroups (fun _ => none) [filterWithoutValue] [] = .error (.keyError "value") ∧
      ¬ Tolerated (fun _ => none) [filterWithoutValue] := by
  have hraises : findHostGroups (fun _ => none) [filterWithoutValue] [] = .error (.keyError "value") := by decide +kernel
  refine ⟨hraises, ?_⟩
  rintro ⟨found, hfound, -⟩
  rw [hraises] at hfound
  cases hfound

end Advisor.Access
