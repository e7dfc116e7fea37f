import Advisor.Access.MalformedRoles
import Advisor.Python.Search

/-! When one permission contains another, and `has_rbac_permission` over the role list of the access service. -/

namespace Advisor.Access

open Python

structure Concrete where
  app : String
  resource : String
  method : String
  app_ne : app ≠ "*"
  resource_ne : resource ≠ "*"
  method_ne : method ≠ "*"
  colonless : ∀ part ∈ [app, resource, method], ':' ∉ part.toList

/-- The permission grants a concrete one: `*` stands for everything, and who may write may read. -/
structure RBACPermission.Grants (p : RBACPermission) (c : Concrete) : Prop where
  app : p.app = c.app ∨ p.app = "*"
  resource : p.resource = c.resource ∨ p.resource = "*"
  method : p.method = c.method ∨ p.method = "*" ∨ p.method = "write" ∧ c.method = "read"

def Parsed (p : RBACPermission) : Prop := RBACPermission.init (.str p.string) = .ok p

structure RbacSettings where
  rbacEnabled : Bool
  rbacUrl : String

/-- A response of the access service; no body where it is not JSON. -/
structure Response where
  statusCode : Nat
  json : Option Json

inductive RbacFailure where
  | noUrl
  | raised (e : Exception)

/-- What is returned, and what is put on the request. -/
structure Answer where
  granted : Bool
  elapsed : Nat
  hostGroups : Option (List Json) := none
  matched : Option (RBACPermission × String) := none
  message : Option String := none

def iterate : Json → Except Exception (List Json)
  | .list xs => .ok xs
  | .dict items => .ok (items.map fun item => .str item.1)
  | .str s => .ok (s.toList.map fun c => .str (String.ofList [c]))
  | _ => .error .typeError

def matchingPermission (requestPermission : RBACPermission) :
    List Json → Except Exception (Option (RBACPermission × String))
  | [] => .ok none
  | roleInfo :: rest => do
    if !(← roleInfo.hasKey "permission") then matchingPermission requestPermission rest
    else
      match RBACPermission.init (← roleInfo.item "permission") with
      | .error .valueError => matchingPermission requestPermission rest
      | .error e => throw e
      | .ok rbacPermission =>
        if rbacPermission.string = requestPermission.string then return some (rbacPermission, "exact")
        if rbacPermission.contains requestPermission then return some (rbacPermission, "contains")
        matchingPermission requestPermission rest

variable (loads : Loads)

def answerOf (requestPermission : RBACPermission) (elapsed : Nat) (data : Json) : Except Exception Answer := do
  if !(← data.hasKey "data") then
    return { granted := false, elapsed, message := some "Response from RBAC did not contain a \"data\" list" }
  let roleList ← iterate (← data.item "data")
  let hostGroups ← findHostGroups loads roleList []
  match ← matchingPermission requestPermission roleList with
  | some matched => return { granted := true, elapsed, hostGroups, matched := some matched }
  | none => return { granted := false, elapsed, hostGroups }

/-- `fetched` is the response of the access service, or the one in the cache, and the time it took. -/
def hasRbacPermission (settings : RbacSettings) (fetched : Option Response × Nat) (permission : String) :
    Except RbacFailure Answer :=
  if !settings.rbacEnabled then .ok { granted := true, elapsed := 0 }
  else if settings.rbacUrl = "" then .error .noUrl
  else
    match RBACPermission.init (.str permission), fetched with
    | .error e, _ => .error (.raised e)
    | .ok _, (none, elapsed) => .ok { granted := false, elapsed, message := some "Cannot reach RBAC" }
    | .ok requestPermission, (some response, elapsed) =>
      if response.statusCode = 500 then .ok { granted := false, elapsed, message := some "Cannot reach RBAC" }
      else if response.statusCode = 200 then
        match response.json with
        | none => .error (.raised .valueError)
        | some data => (answerOf loads requestPermission elapsed data).mapError .raised
      else .ok { granted := false, elapsed }

section Containment

variable {p q r : RBACPermission}

theorem Parsed.colonless (h : Parsed p) : ∀ part ∈ [p.app, p.resource, p.method], ':' ∉ part.toList := by
  have hparts : (p.string.toList.splitOn ':').map String.ofList = [p.app, p.resource, p.method] := by
    rw [Parsed, RBACPermission.init] at h
    split at h
    · rename_i hsplit
      rw [hsplit, ← Except.ok.inj h]
    · cases h
  intro part hpart
  rw [← hparts] at hpart
  obtain ⟨text, htext, rfl⟩ := List.mem_map.mp hpart
  rw [String.toList_ofList]
  exact not_mem_of_mem_splitOn htext

theorem Parsed.eq (hp : Parsed p) (hq : Parsed q) (h : p.string = q.string) : p = q := by
  rw [Parsed, h] at hp
  exact Except.ok.inj (hp.symm.trans hq)

theorem contains_eq (hp : Parsed p) (hq : Parsed q) : p.contains q = true ↔
    (p.app = q.app ∨ p.app = "*") ∧ (p.resource = q.resource ∨ p.resource = "*") ∧
      (p.method = q.method ∨ p.method = "*" ∨ p.method = "write" ∧ q.method = "read") := by
  rw [RBACPermission.contains]
  by_cases hstring : p.string = q.string
  · rw [if_pos hstring, hp.eq hq hstring]
    simp
  · rw [if_neg hstring]
    by_cases happ : p.app = q.app ∨ p.app = "*"
    · by_cases hresource : p.resource = q.resource ∨ p.resource = "*"
      · by_cases hall : p.method = "*"
        · simp [happ, hresource, hall]
        · by_cases hmethod : p.method = q.method
          · simp [happ, hresource, hmethod]
          · simpa [happ, hresource, hall, hmethod] using and_comm
      · simp [happ, hresource]
    · simp [happ]

/-- Some text without a colon is neither a wildcard nor the given text, nor a method that writing includes. -/
theorem exists_other (part : String) : ∃ other, other ≠ "*" ∧ other ≠ part ∧ other ≠ "read" ∧ ':' ∉ other.toList := by
  by_cases h : part = "a"
  · exact ⟨"b", by decide, by rw [h]; decide, by decide, by decide⟩
  · exact ⟨"a", by decide, Ne.symm h, by decide, by decide⟩

theorem exists_concrete {part : String} (h : ':' ∉ part.toList) (other : String) :
    ∃ c, c ≠ "*" ∧ ':' ∉ c.toList ∧ (part = c ∨ part = "*") ∧ (part = "*" → c ≠ other ∧ c ≠ "read") := by
  by_cases hall : part = "*"
  · obtain ⟨c, hc, hother, hread, hcolon⟩ := exists_other other
    exact ⟨c, hc, hcolon, Or.inr hall, fun _ => ⟨hother, hread⟩⟩
  · exact ⟨part, hall, h, Or.inl rfl, fun h => absurd h hall⟩

/-- One permission contains another exactly when it grants whatever the other grants. -/
theorem contains_iff (hp : Parsed p) (hq : Parsed q) : p.contains q = true ↔ ∀ c, q.Grants c → p.Grants c := by
  rw [contains_eq hp hq]
  constructor
  · rintro ⟨happ, hresource, hmethod⟩ c hc
    refine ⟨?_, ?_, ?_⟩
    · rcases happ with happ | happ
      · rw [happ]
        exact hc.app
      · exact Or.inr happ
    · rcases hresource with hresource | hresource
      · rw [hresource]
        exact hc.resource
      · exact Or.inr hresource
    · rcases hmethod with hmethod | hmethod | ⟨hwrite, hread⟩
      · rw [hmethod]
        exact hc.method
      · exact Or.inr (Or.inl hmethod)
      · rcases hc.method with hm | hm | ⟨hm, -⟩
        · exact Or.inr (Or.inr ⟨hwrite, hm ▸ hread⟩)
        · rw [hread] at hm
          exact absurd hm (by decide)
        · rw [hread] at hm
          exact absurd hm (by decide)
  · intro h
    obtain ⟨app, happ, happColon, hqapp, happOther⟩ := exists_concrete (hq.colonless q.app (by simp)) p.app
    obtain ⟨resource, hresource, hresourceColon, hqresource, hresourceOther⟩ :=
      exists_concrete (hq.colonless q.resource (by simp)) p.resource
    obtain ⟨method, hmethod, hmethodColon, hqmethod, hmethodOther⟩ :=
      exists_concrete (hq.colonless q.method (by simp)) p.method
    have hgrants := h ⟨app, resource, method, happ, hresource, hmethod, by simp [happColon, hresourceColon, hmethodColon]⟩
      ⟨hqapp, hqresource, hqmethod.imp_right Or.inl⟩
    refine ⟨?_, ?_, ?_⟩
    · rcases hgrants.app with hpapp | hpapp
      · rcases hqapp with hqapp | hqapp
        · exact Or.inl (hpapp.trans hqapp.symm)
        · exact absurd hpapp.symm (happOther hqapp).1
      · exact Or.inr hpapp
    · rcases hgrants.resource with hpresource | hpresource
      · rcases hqresource with hqresource | hqresource
        · exact Or.inl (hpresource.trans hqresource.symm)
        · exact absurd hpresource.symm (hresourceOther hqresource).1
      · exact Or.inr hpresource
    · rcases hgrants.method with hpmethod | hpmethod | ⟨hwrite, hread⟩
      · rcases hqmethod with hqmethod | hqmethod
        · exact Or.inl (hpmethod.trans hqmethod.symm)
        · exact absurd hpmethod.symm (hmethodOther hqmethod).1
      · exact Or.inr (Or.inl hpmethod)
      · rcases hqmethod with hqmethod | hqmethod
        · exact Or.inr (Or.inr ⟨hwrite, hqmethod.trans hread⟩)
        · exact absurd hread (hmethodOther hqmethod).2

theorem contains_refl (p : RBACPermission) : p.contains p = true := by
  simp [RBACPermission.contains]

theorem contains_trans (hp : Parsed p) (hq : Parsed q) (hr : Parsed r) (hpq : p.contains q = true)
    (hqr : q.contains r = true) : p.contains r = true := by
  rw [contains_iff hp hr]
  rw [contains_iff hp hq] at hpq
  rw [contains_iff hq hr] at hqr
  exact fun c hc => hpq c (hqr c hc)

end Containment

/-- A well-formed entry with a permission that contains the one that is sought. -/
def carries (sought : RBACPermission) (role : Json) : Bool := (permissionOf role).any (·.contains sought)

variable {sought : RBACPermission}

theorem carries_dict {items : List (String × Json)} {permission : Json} (h : items.lookup "permission" = some permission) :
    carries sought (.dict items) = (RBACPermission.init permission).toOption.any (·.contains sought) := by
  rw [carries, permissionOf, Json.field?, h, Option.bind_some]

variable (sought) in
theorem matchingPermission_cons (role : Json) (rest : List Json) :
    ((∃ e, matchingPermission sought (role :: rest) = .error e) ∧ BadEntry role) ∨ ¬ BadEntry role ∧
      (carries sought role = true ∧ (∃ matched, matchingPermission sought (role :: rest) = .ok (some matched)) ∨
        carries sought role = false ∧ matchingPermission sought (role :: rest) = matchingPermission sought rest) := by
  by_cases hdict : ∃ items, role = .dict items
  · obtain ⟨items, rfl⟩ := hdict
    have hkey : (Json.dict items).hasKey "permission" = .ok (items.lookup "permission").isSome := rfl
    cases hp : items.lookup "permission" with
    | none =>
      refine Or.inr ⟨by simp [BadEntry, hp], Or.inr ⟨by simp [carries, permissionOf, Json.field?, hp], ?_⟩⟩
      simp [matchingPermission, hkey, hp, bind, Except.bind]
    | some permission =>
      have hitem : (Json.dict items).item "permission" = .ok permission := by simp [Json.item, hp]
      cases hinit : RBACPermission.init permission with
      | error e =>
        by_cases hstr : permission.isStr = true
        · obtain rfl := (init_error hinit).1.mpr hstr
          refine Or.inr ⟨by simp [BadEntry, hp, hstr], Or.inr ⟨by simp [carries_dict hp, hinit, Except.toOption], ?_⟩⟩
          simp [matchingPermission, hkey, hitem, hp, hinit, bind, Except.bind]
        · obtain rfl := (init_error hinit).2 (by simpa using hstr)
          refine Or.inl ⟨⟨.typeError, ?_⟩, permission, hp, by simpa using hstr⟩
          simp [matchingPermission, hkey, hitem, hp, hinit, bind, Except.bind, throw, throwThe, MonadExceptOf.throw]
      | ok p =>
        have hcarries : carries sought (.dict items) = p.contains sought := by
          simp [carries_dict hp, hinit, Except.toOption]
        refine Or.inr ⟨by simp [BadEntry, hp, init_ok hinit], ?_⟩
        rw [hcarries]
        by_cases hstring : p.string = sought.string
        · refine Or.inl ⟨by simp [RBACPermission.contains, hstring], (p, "exact"), ?_⟩
          simp [matchingPermission, hkey, hitem, hp, hinit, hstring, bind, Except.bind, pure, Except.pure]
        · by_cases hcontains : p.contains sought = true
          · refine Or.inl ⟨hcontains, (p, "contains"), ?_⟩
            simp [matchingPermission, hkey, hitem, hp, hinit, hstring, hcontains, bind, Except.bind, pure, Except.pure]
          · refine Or.inr ⟨by simpa using hcontains, ?_⟩
            simp [matchingPermission, hkey, hitem, hp, hinit, hstring, hcontains, bind, Except.bind]
  · have hcarries : carries sought role = false := by
      cases role with
      | dict items => exact absurd ⟨items, rfl⟩ hdict
      | _ => rfl
    have hbad : BadEntry role ↔ role.hasKey "permission" ≠ .ok false := by
      cases role with
      | dict items => exact absurd ⟨items, rfl⟩ hdict
      | _ => exact Iff.rfl
    have hitem : role.item "permission" = .error .typeError := by
      cases role with
      | dict items => exact absurd ⟨items, rfl⟩ hdict
      | _ => rfl
    rcases hkey : role.hasKey "permission" with e | _ | _
    · exact Or.inl ⟨⟨e, by simp [matchingPermission, hkey, bind, Except.bind]⟩, hbad.mpr (by simp [hkey])⟩
    · refine Or.inr ⟨mt hbad.mp (by simp [hkey]), Or.inr ⟨hcarries, ?_⟩⟩
      simp [matchingPermission, hkey, bind, Except.bind]
    · exact Or.inl ⟨⟨.typeError, by simp [matchingPermission, hkey, hitem, bind, Except.bind]⟩, hbad.mpr (by simp [hkey])⟩

theorem carries_of_badEntry {role : Json} (h : BadEntry role) : carries sought role = false := by
  cases role with
  | dict items =>
    obtain ⟨permission, hlookup, hstr⟩ := h
    rw [carries_dict hlookup]
    cases hinit : RBACPermission.init permission with
    | error e => rfl
    | ok p =>
      rw [init_ok hinit] at hstr
      cases hstr
  | _ => rfl

/-- A match is found where some entry carries the permission, and none before it is bad. -/
theorem matchingPermission_iff (roleList : List Json) : (∃ matched, matchingPermission sought roleList = .ok (some matched)) ↔
    (∃ role ∈ roleList, carries sought role = true) ∧
      ∀ role ∈ roleList.takeWhile fun role => !carries sought role, ¬ BadEntry role := by
  induction roleList with
  | nil =>
    refine iff_of_false ?_ (by simp)
    rintro ⟨matched, h⟩
    cases h
  | cons role rest ih =>
    rcases matchingPermission_cons sought role rest with ⟨⟨e, he⟩, hbad⟩ | ⟨hgood, ⟨hcarries, hmatched⟩ | ⟨hcarries, hpassed⟩⟩
    · rw [he]
      refine iff_of_false (by simp) fun h => h.2 role ?_ hbad
      simp [carries_of_badEntry hbad]
    · refine iff_of_true hmatched ⟨⟨role, by simp, hcarries⟩, ?_⟩
      simp [hcarries]
    · rw [hpassed, ih]
      simp [hcarries, hgood]

def Granted (loads : Loads) (settings : RbacSettings) (fetched : Option Response × Nat) (permission : String) : Prop :=
  ∃ answer, hasRbacPermission loads settings fetched permission = .ok answer ∧ answer.granted = true

/-- Containment is containment of what is granted, and a request is let through for an entry that contains what it seeks
and for nothing else. -/
structure ContainmentDecides (loads : Loads) (settings : RbacSettings) (fetched : Option Response × Nat)
    (sought : RBACPermission) (roleList : List Json) : Prop where
  contains : ∀ p q, Parsed p → Parsed q → (p.contains q = true ↔ ∀ c, q.Grants c → p.Grants c)
  refl : ∀ p : RBACPermission, p.contains p = true
  trans : ∀ p q r, Parsed p → Parsed q → Parsed r → p.contains q = true → q.contains r = true → p.contains r = true
  granted : Granted loads settings fetched sought.string ↔ ∃ role ∈ roleList, carries sought role = true

variable {loads : Loads}

theorem granted_iff {settings : RbacSettings} (henabled : settings.rbacEnabled = true) (hurl : settings.rbacUrl ≠ "")
    (hsought : Parsed sought) {items : List (String × Json)} {roleList : List Json}
    (hdata : items.lookup "data" = some (.list roleList)) (elapsed : Nat) :
    Granted loads settings (some ⟨200, some (.dict items)⟩, elapsed) sought.string ↔
      ¬ Stops loads roleList ∧ ∃ matched, matchingPermission sought roleList = .ok (some matched) := by
  have hkey : (Json.dict items).hasKey "data" = .ok true := by simp [Json.hasKey, hdata]
  have hitem : (Json.dict items).item "data" = .ok (.list roleList) := by simp [Json.item, hdata]
  have hanswer : hasRbacPermission loads settings (some ⟨200, some (.dict items)⟩, elapsed) sought.string =
      (answerOf loads sought elapsed (.dict items)).mapError .raised := by
    rw [Parsed] at hsought
    simp only [hasRbacPermission, henabled, hurl, hsought]
    rfl
  have hdecided : answerOf loads sought elapsed (.dict items) = findHostGroups loads roleList [] >>= fun hostGroups =>
      matchingPermission sought roleList >>= fun matched =>
        .ok { granted := matched.isSome, elapsed, hostGroups, matched } := by
    simp only [answerOf, hkey, hitem, iterate, bind, Except.bind, pure, Except.pure]
    cases findHostGroups loads roleList [] with
    | error e => rfl
    | ok hostGroups =>
      cases matchingPermission sought roleList with
      | error e => rfl
      | ok matched => cases matched <;> rfl
  rw [Granted, hanswer, hdecided, ← findHostGroups_ok_iff roleList []]
  constructor
  · rintro ⟨answer, hok, hgranted⟩
    cases hfind : findHostGroups loads roleList [] with
    | error e =>
      rw [hfind] at hok
      cases hok
    | ok hostGroups =>
      cases hmatching : matchingPermission sought roleList with
      | error e =>
        rw [hfind, hmatching] at hok
        cases hok
      | ok matched =>
        rw [hfind, hmatching] at hok
        obtain rfl := Except.ok.inj hok
        obtain ⟨found, rfl⟩ := Option.isSome_iff_exists.mp hgranted
        exact ⟨⟨hostGroups, rfl⟩, found, rfl⟩
  · rintro ⟨⟨hostGroups, hfind⟩, matched, hmatching⟩
    rw [hfind, hmatching]
    exact ⟨_, rfl, rfl⟩

/-- Containment is always as it should be. Requests are let through as it says unless something before the match stops
them. -/
theorem containmentDecides_iff (loads : Loads) (settings : RbacSettings) (elapsed : Nat) (sought : RBACPermission)
    (items : List (String × Json)) (roleList : List Json) (henabled : settings.rbacEnabled = true)
    (hurl : settings.rbacUrl ≠ "") (hsought : Parsed sought) (hdata : items.lookup "data" = some (.list roleList)) :
    ContainmentDecides loads settings (some ⟨200, some (.dict items)⟩, elapsed) sought roleList ↔
      (∀ role ∈ roleList, carries sought role = false) ∨
        ¬ Stops loads roleList ∧ ∀ role ∈ roleList.takeWhile fun role => !carries sought role, ¬ BadEntry role := by
  have hgranted := @granted_iff sought loads settings henabled hurl hsought items roleList hdata elapsed
  rw [matchingPermission_iff] at hgranted
  constructor
  · intro h
    by_cases hnone : ∀ role ∈ roleList, carries sought role = false
    · exact Or.inl hnone
    · simp only [not_forall, Bool.not_eq_false, exists_prop] at hnone
      obtain ⟨hread, -, hgood⟩ := hgranted.mp (h.granted.mpr hnone)
      exact Or.inr ⟨hread, hgood⟩
  · intro h
    refine ⟨fun p q => contains_iff, contains_refl, fun p q r => contains_trans, ?_⟩
    rw [hgranted]
    rcases h with hnone | ⟨hread, hgood⟩
    · have hnot : ¬ ∃ role ∈ roleList, carries sought role = true := by
        rintro ⟨role, hrole, hcarries⟩
        rw [hnone role hrole] at hcarries
        cases hcarries
      exact iff_of_false (fun h => hnot h.2.1) hnot
    · exact ⟨fun h => h.2.1, fun hsome => ⟨hread, hsome, hgood⟩⟩

def advisorRead : RBACPermission := ⟨"advisor:*:read", "advisor", "*", "read"⟩

def rbacEnabled : RbacSettings := ⟨true, "http://rbac"⟩

/-- An entry without a permission, one with a text that is none, and one that may write. -/
def writers : List Json :=
  [.dict [("spatula", .str "confirmed")], .dict [("permission", .str "fabulous clean!")],
    .dict [("permission", .str "advisor:*:write")]]

theorem containmentDecides_write :
    ContainmentDecides (fun _ => none) rbacEnabled (some ⟨200, some (.dict [("data", .list writers)])⟩, 0) advisorRead writers := by
  refine (containmentDecides_iff (fun _ => none) rbacEnabled 0 advisorRead [("data", .list writers)] writers rfl (by decide)
    (by unfold Parsed; decide) rfl).mpr (Or.inr ⟨?_, ?_⟩)
  · rw [← findHostGroups_ok_iff writers []]
    exact ⟨none, by decide +kernel⟩
  · intro role hrole
    have hmem : role ∈ writers := (List.takeWhile_sublist _).subset hrole
    simp only [writers, List.mem_cons, List.not_mem_nil, or_false] at hmem
    rcases hmem with rfl | rfl | rfl <;> simp [BadEntry, List.lookup_cons, Json.isStr]

def numericFirst : List Json := [.dict [("permission", .int 5)], .dict [("permission", .str "advisor:*:*")]]

/-- The number stops a request that the other entry would let through. -/
theorem numericFirst_stops :
    ¬ ContainmentDecides (fun _ => none) rbacEnabled (some ⟨200, some (.dict [("data", .list numericFirst)])⟩, 0) advisorRead
      numericFirst := by
  intro h
  have hcarries : numericFirst.any (carries advisorRead) = true := by decide +kernel
  obtain ⟨answer, hok, hgranted⟩ := h.granted.mpr (List.any_eq_true.mp hcarries)
  have hrefused : (hasRbacPermission (fun _ => none) rbacEnabled (some ⟨200, some (.dict [("data", .list numericFirst)])⟩, 0)
      advisorRead.string).toOption.any (·.granted) = false := by decide +kernel
  rw [hok, Except.toOption, Option.any_some, hgranted] at hrefused
  cases hrefused

end Advisor.Access
