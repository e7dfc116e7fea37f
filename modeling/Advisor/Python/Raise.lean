import Mathlib.Data.List.Basic
import Mathlib.Data.List.Forall2

/-! Loops whose body may raise: they finish exactly when no turn raises. -/

namespace Python

variable {ε α β : Type}

theorem bind_eq_ok {x : Except ε α} {f : α → Except ε β} {b : β} :
    (x >>= f) = .ok b ↔ ∃ a, x = .ok a ∧ f a = .ok b := by
  cases x with
  | error e => simp [bind, Except.bind]
  | ok a => simp [bind, Except.bind]

theorem map_eq_ok {x : Except ε α} {f : α → β} {b : β} : x.map f = .ok b ↔ ∃ a, x = .ok a ∧ f a = b := by
  cases x with
  | error e => simp [Except.map]
  | ok a => simp [Except.map]

theorem mapError_eq_ok {δ : Type} {x : Except ε α} {f : ε → δ} {a : α} : x.mapError f = .ok a ↔ x = .ok a := by
  cases x with
  | error e => simp [Except.mapError]
  | ok a => simp [Except.mapError]

theorem mapM_ok {f : α → Except ε β} {g : α → β} {l : List α} (h : ∀ a ∈ l, f a = .ok (g a)) :
    l.mapM f = .ok (l.map g) := by
  induction l with
  | nil => rfl
  | cons a l ih =>
    rw [List.mapM_cons, h a (by simp), ih fun x hx => h x (by simp [hx])]
    rfl

theorem filterM_ok {f : α → β} {p : β → Except ε Bool} {q : α → Bool} {l : List α}
    (h : ∀ a ∈ l, p (f a) = .ok (q a)) : (l.map f).filterM p = Except.ok ((l.filter q).map f) := by
  have haux : ∀ (l : List α) (acc : List β), (∀ a ∈ l, p (f a) = .ok (q a)) →
      (l.map f).filterAuxM p acc = Except.ok (((l.filter q).map f).reverse ++ acc) := by
    intro l
    induction l with
    | nil => intros; rfl
    | cons a l ih =>
      intro acc hl
      have hrest := ih (bif q a then f a :: acc else acc) fun x hx => hl x (by simp [hx])
      rw [List.map_cons, List.filterAuxM, hl a (by simp)]
      refine hrest.trans ?_
      cases hq : q a <;> simp [hq]
  rw [List.filterM, haux l [] h]
  simp [bind, Except.bind, pure, Except.pure]

def isOk : Except ε α → Bool
  | .ok _ => true
  | .error _ => false

theorem isOk_iff {x : Except ε α} : isOk x = true ↔ ∃ a, x = .ok a := by
  cases x <;> simp [isOk]

theorem mapM_isOk {f : α → Except ε β} {l : List α} (h : ∃ r, l.mapM f = .ok r) :
    ∀ a ∈ l, ∃ b, f a = .ok b := by
  induction l with
  | nil => simp
  | cons x l ih =>
    obtain ⟨r, h⟩ := h
    rw [List.mapM_cons, bind_eq_ok] at h
    obtain ⟨b, hb, h⟩ := h
    rw [bind_eq_ok] at h
    obtain ⟨bs, hbs, -⟩ := h
    intro a ha
    rcases List.mem_cons.mp ha with rfl | hm
    · exact ⟨b, hb⟩
    · exact ih ⟨bs, hbs⟩ a hm

theorem mapM_forall₂ {f : α → Except ε β} {l : List α} {r : List β} (h : l.mapM f = .ok r) :
    List.Forall₂ (fun a b => f a = .ok b) l r := by
  induction l generalizing r with
  | nil =>
    simp only [List.mapM_nil, pure, Except.pure, Except.ok.injEq] at h
    rw [← h]
    exact .nil
  | cons x l ih =>
    rw [List.mapM_cons, bind_eq_ok] at h
    obtain ⟨b, hb, h⟩ := h
    rw [bind_eq_ok] at h
    obtain ⟨bs, hbs, hr⟩ := h
    simp only [pure, Except.pure, Except.ok.injEq] at hr
    rw [← hr]
    exact .cons hb (ih hbs)

theorem mapM_mem {f : α → Except ε β} {l : List α} {r : List β} (h : l.mapM f = .ok r) {b : β} :
    b ∈ r ↔ ∃ a ∈ l, f a = .ok b := by
  have hall := mapM_forall₂ h
  clear h
  induction hall with
  | nil => simp
  | cons hab _ ih => simp [ih, hab, eq_comm]

theorem forall₂_exists {R : α → β → Prop} {l : List α} {m : List β} (h : l.Forall₂ R m) {b : β} (hb : b ∈ m) :
    ∃ a ∈ l, R a b := by
  induction h with
  | nil => cases hb
  | cons hab _ ih =>
    rcases List.mem_cons.mp hb with rfl | hmem
    · exact ⟨_, List.mem_cons_self .., hab⟩
    · obtain ⟨a, ha, hR⟩ := ih hmem
      exact ⟨a, List.mem_cons_of_mem _ ha, hR⟩

theorem forall₂_map_eq {γ : Type} {f : α → γ} {g : β → γ} {l : List α} {m : List β}
    (h : l.Forall₂ (fun a b => g b = f a) m) : m.map g = l.map f := by
  induction h with
  | nil => rfl
  | cons hab _ ih => rw [List.map_cons, List.map_cons, hab, ih]

theorem mapM_of_isOk {f : α → Except ε β} {l : List α} (h : ∀ a ∈ l, ∃ b, f a = .ok b) :
    ∃ r, l.mapM f = .ok r := by
  induction l with
  | nil => exact ⟨[], rfl⟩
  | cons x l ih =>
    obtain ⟨b, hb⟩ := h x (by simp)
    obtain ⟨r, hr⟩ := ih fun a ha => h a (by simp [ha])
    exact ⟨b :: r, by rw [List.mapM_cons, hb, hr]; rfl⟩

theorem mapM_congr_left {f g : α → Except ε β} {l : List α} (h : ∀ a ∈ l, f a = g a) :
    l.mapM f = l.mapM g := by
  induction l with
  | nil => rfl
  | cons a l ih =>
    rw [List.mapM_cons, List.mapM_cons, h a (by simp), ih fun b hb => h b (by simp [hb])]

theorem mapM_flatten (f : α → Except ε β) (groups : List (List α)) :
    (groups.mapM fun group : List α => group.mapM f).map List.flatten = groups.flatten.mapM f := by
  induction groups with
  | nil => rfl
  | cons group groups ih =>
    rw [List.flatten_cons, List.mapM_append, List.mapM_cons, ← ih]
    cases group.mapM f with
    | error e => rfl
    | ok first =>
      cases groups.mapM fun group : List α => group.mapM f with
      | error e => rfl
      | ok rest => rfl

theorem mapM_mapM_eq_ok {γ : Type} {f : α → Except ε β} {g : β → Except ε γ} {l : List α} {r : List γ} :
    (∃ m, l.mapM f = .ok m ∧ m.mapM g = .ok r) ↔ l.mapM (fun a => f a >>= g) = .ok r := by
  induction l generalizing r with
  | nil => simp [pure, Except.pure]
  | cons a l ih =>
    simp only [List.mapM_cons, bind_eq_ok, ← ih]
    constructor
    · rintro ⟨m, ⟨b, hb, bs, hbs, hm⟩, hg⟩
      obtain rfl := Except.ok.inj hm
      rw [List.mapM_cons, bind_eq_ok] at hg
      obtain ⟨c, hc, hg⟩ := hg
      obtain ⟨cs, hcs, hr⟩ := bind_eq_ok.mp hg
      exact ⟨c, ⟨b, hb, hc⟩, cs, ⟨bs, hbs, hcs⟩, hr⟩
    · rintro ⟨c, ⟨b, hb, hc⟩, cs, ⟨bs, hbs, hcs⟩, hr⟩
      refine ⟨b :: bs, ⟨b, hb, bs, hbs, rfl⟩, ?_⟩
      rw [List.mapM_cons, hc, hcs]
      exact hr

/-- What each turn of a loop keeps of what is done and accumulated holds at its end. -/
theorem foldlM_invariant {f : β → α → Except ε β} {I : List α → β → Prop} {l : List α} {b b' : β}
    (h : l.foldlM f b = .ok b') (start : I [] b)
    (turn : ∀ done a b b', I done b → f b a = .ok b' → I (done ++ [a]) b') : I l b' := by
  suffices haux : ∀ rest done b, I done b → rest.foldlM f b = .ok b' → I (done ++ rest) b' by
    simpa using haux l [] b start h
  intro rest
  induction rest with
  | nil =>
    intro done b hI hrest
    obtain rfl : b = b' := by simpa [pure, Except.pure] using hrest
    simpa using hI
  | cons a rest ih =>
    intro done b hI hrest
    rw [List.foldlM_cons, bind_eq_ok] at hrest
    obtain ⟨b₁, hturn, hrest⟩ := hrest
    have hdone := ih (done ++ [a]) b₁ (turn done a b b₁ hI hturn) hrest
    simpa using hdone

/-- Where a turn raises or not whatever is accumulated, the loop finishes when none of them raises. -/
theorem foldlM_isOk {f : β → α → Except ε β} {p : α → Prop} {l : List α} {b : β}
    (turn : ∀ a ∈ l, ∀ b, (∃ b', f b a = .ok b') ↔ p a) : (∃ b', l.foldlM f b = .ok b') ↔ ∀ a ∈ l, p a := by
  induction l generalizing b with
  | nil => simp [pure, Except.pure]
  | cons a l ih =>
    simp only [List.foldlM_cons, bind_eq_ok, List.forall_mem_cons]
    constructor
    · rintro ⟨b', b₁, hb₁, hrest⟩
      exact ⟨(turn a (by simp) b).mp ⟨b₁, hb₁⟩, (ih fun x hx => turn x (by simp [hx])).mp ⟨b', hrest⟩⟩
    · rintro ⟨ha, hrest⟩
      obtain ⟨b₁, hb₁⟩ := (turn a (by simp) b).mpr ha
      obtain ⟨b', hb'⟩ := (ih (b := b₁) fun x hx => turn x (by simp [hx])).mpr hrest
      exact ⟨b', b₁, hb₁, hb'⟩

theorem filterM_mem {p : α → Except ε Bool} {l kept : List α} (h : l.filterM p = .ok kept) : ∀ a ∈ kept, a ∈ l := by
  have haux : ∀ (l acc kept : List α), l.filterAuxM p acc = .ok kept → ∀ a ∈ kept, a ∈ l ∨ a ∈ acc := by
    intro l
    induction l with
    | nil =>
      intro acc kept h a ha
      obtain rfl := Except.ok.inj h
      exact Or.inr ha
    | cons b l ih =>
      intro acc kept h a ha
      rw [List.filterAuxM] at h
      obtain ⟨keep, -, h⟩ := bind_eq_ok.mp h
      rcases ih _ kept h a ha with hl | hacc
      · exact Or.inl (List.mem_cons_of_mem _ hl)
      · cases keep with
        | true =>
          rcases List.mem_cons.mp hacc with rfl | hacc
          · exact Or.inl List.mem_cons_self
          · exact Or.inr hacc
        | false => exact Or.inr hacc
  rw [List.filterM] at h
  obtain ⟨reversed, hreversed, h⟩ := bind_eq_ok.mp h
  obtain rfl := Except.ok.inj h
  intro a ha
  exact (haux l [] reversed hreversed a (List.mem_reverse.mp ha)).resolve_right List.not_mem_nil

theorem filterM_error {p : α → Except ε Bool} {a : α} {l : List α} (ha : a ∈ l)
    (h : ∃ e, p a = .error e) : ∃ e, l.filterM p = Except.error e := by
  have haux : ∀ (l acc : List α), a ∈ l → ∃ e, l.filterAuxM p acc = Except.error e := by
    intro l
    induction l with
    | nil => simp
    | cons b l ih =>
      intro acc hm
      rw [List.filterAuxM]
      cases hb : p b with
      | error e => exact ⟨e, rfl⟩
      | ok keep =>
        rcases List.mem_cons.mp hm with rfl | hm'
        · obtain ⟨e, he⟩ := h
          simp [hb] at he
        · exact ih _ hm'
  obtain ⟨e, he⟩ := haux l [] ha
  exact ⟨e, by rw [List.filterM, he]; rfl⟩

end Python
