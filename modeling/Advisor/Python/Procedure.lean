import Mathlib.Data.List.Basic
import Mathlib.Order.Defs.Unbundled

/-! Procedures that change a state and may raise: what was written before an exception stays
written, unless it was written inside a transaction. Rules for their pre- and postconditions. -/

namespace Python

/-- A run from a state ends with a result or an exception, and with a state. -/
def Procedure (ε σ α : Type) := σ → Except ε α × σ

namespace Procedure

variable {ε σ α β : Type}

instance : Monad (Procedure ε σ) where
  pure a := fun s => (.ok a, s)
  bind p f := fun s =>
    match p s with
    | (.ok a, s') => f a s'
    | (.error e, s') => (.error e, s')

def read (f : σ → α) : Procedure ε σ α := fun s => (.ok (f s), s)

def write (f : σ → σ) : Procedure ε σ Unit := fun s => (.ok (), f s)

def raise (e : ε) : Procedure ε σ α := fun s => (.error e, s)

def lift (x : Except ε α) : Procedure ε σ α := fun s => (x, s)

/-- `with transaction.atomic()`: an exception takes the writes back. -/
def atomic (p : Procedure ε σ α) : Procedure ε σ α := fun s =>
  match p s with
  | (.ok a, s') => (.ok a, s')
  | (.error e, _) => (.error e, s)

def catching (p : Procedure ε σ α) (handler : ε → Procedure ε σ α) : Procedure ε σ α := fun s =>
  match p s with
  | (.ok a, s') => (.ok a, s')
  | (.error e, s') => handler e s'

def each (l : List α) (body : α → Procedure ε σ Unit) : Procedure ε σ Unit :=
  match l with
  | [] => pure ()
  | a :: rest => do
    body a
    each rest body

theorem each_cons (a : α) (rest : List α) (body : α → Procedure ε σ Unit) :
    each (a :: rest) body = body a >>= fun _ => each rest body := rfl

@[simp] theorem pure_apply (a : α) (s : σ) : (pure a : Procedure ε σ α) s = (.ok a, s) := rfl

@[simp] theorem read_bind (f : σ → α) (g : α → Procedure ε σ β) (s : σ) : (read f >>= g) s = g (f s) s := rfl

@[simp] theorem write_bind (f : σ → σ) (g : Unit → Procedure ε σ β) (s : σ) :
    (write f >>= g) s = g () (f s) := rfl

@[simp] theorem lift_ok_bind (a : α) (g : α → Procedure ε σ β) (s : σ) : (lift (.ok a) >>= g) s = g a s := rfl

@[simp] theorem lift_error_bind (e : ε) (g : α → Procedure ε σ β) (s : σ) :
    (lift (.error e) >>= g) s = (.error e, s) := rfl

theorem bind_of_ok {p : Procedure ε σ α} {f : α → Procedure ε σ β} {a : α} {s s' : σ} (h : p s = (.ok a, s')) :
    (p >>= f) s = f a s' := by
  simp only [Bind.bind, h]

theorem bind_of_error {p : Procedure ε σ α} {f : α → Procedure ε σ β} {e : ε} {s s' : σ}
    (h : p s = (.error e, s')) : (p >>= f) s = (.error e, s') := by
  simp only [Bind.bind, h]

theorem run_bind_eq_ok {p : Procedure ε σ α} {f : α → Procedure ε σ β} {b : β} {s t : σ} :
    (p >>= f) s = (.ok b, t) ↔ ∃ a s', p s = (.ok a, s') ∧ f a s' = (.ok b, t) := by
  simp only [Bind.bind]
  rcases hp : p s with ⟨_ | a, s'⟩
  · simp
  · simp

theorem run_lift_eq_ok {x : Except ε α} {a : α} {s t : σ} :
    (lift x : Procedure ε σ α) s = (.ok a, t) ↔ x = .ok a ∧ t = s := by
  simp [lift, eq_comm]

theorem each_append (l m : List α) (body : α → Procedure ε σ Unit) (s : σ) :
    each (l ++ m) body s = (each l body >>= fun _ => each m body) s := by
  induction l generalizing s with
  | nil => rfl
  | cons a l ih =>
    rw [List.cons_append, each_cons, each_cons]
    simp only [Bind.bind]
    rcases body a s with ⟨_ | u, s'⟩
    · rfl
    · exact ih s'

/-- However it ends, the procedure leaves a state that `R` relates to the one it began in. -/
def Keeps (R : σ → σ → Prop) (p : Procedure ε σ α) : Prop := ∀ s, R s (p s).2

namespace Keeps

variable {R : σ → σ → Prop} {p : Procedure ε σ α}

theorem write {f : σ → σ} (h : ∀ s, R s (f s)) : Keeps R (Procedure.write f : Procedure ε σ Unit) := h

section

variable [Std.Refl R]

theorem pure (a : α) : Keeps R (Pure.pure a : Procedure ε σ α) := fun s => Std.Refl.refl s

theorem read (f : σ → α) : Keeps R (Procedure.read f : Procedure ε σ α) := fun s => Std.Refl.refl s

theorem lift (x : Except ε α) : Keeps R (Procedure.lift x : Procedure ε σ α) := fun s => Std.Refl.refl s

theorem lift_bind {x : Except ε α} {f : α → Procedure ε σ β} (h : ∀ a, x = .ok a → Keeps R (f a)) :
    Keeps R (Procedure.lift x >>= f) := by
  cases x with
  | error e => exact fun s => Std.Refl.refl s
  | ok a => exact h a rfl

theorem raise (e : ε) : Keeps R (Procedure.raise e : Procedure ε σ α) := fun s => Std.Refl.refl s

end

theorem bind_of {Q : σ → σ → Prop} {f : α → Procedure ε σ β} (h : Keeps R p) (hR : ∀ s t, R s t → Q s t)
    (hRQ : ∀ s t u, R s t → Q t u → Q s u) (hf : ∀ a, Keeps Q (f a)) : Keeps Q (p >>= f) := by
  intro s
  have hs := h s
  simp only [Bind.bind]
  rcases hp : p s with ⟨_ | a, s'⟩
  · rw [hp] at hs
    exact hR _ _ hs
  · rw [hp] at hs
    exact hRQ _ _ _ hs (hf a s')

theorem bind [IsTrans σ R] {f : α → Procedure ε σ β} (h : Keeps R p) (hf : ∀ a, Keeps R (f a)) : Keeps R (p >>= f) :=
  h.bind_of (fun _ _ hs => hs) (fun _ _ _ => IsTrans.trans _ _ _) hf

theorem ite {c : Prop} [Decidable c] {q : Procedure ε σ α} (hp : c → Keeps R p) (hq : ¬c → Keeps R q) :
    Keeps R (if c then p else q) := by
  by_cases hc : c
  · rw [if_pos hc]
    exact hp hc
  · rw [if_neg hc]
    exact hq hc

theorem each [Std.Refl R] [IsTrans σ R] {l : List α} {body : α → Procedure ε σ Unit} (h : ∀ a ∈ l, Keeps R (body a)) :
    Keeps R (Procedure.each l body) := by
  induction l with
  | nil => exact pure ()
  | cons a rest ih => exact bind (h a (by simp)) fun _ => ih fun b hb => h b (by simp [hb])

theorem catching [IsTrans σ R] {handler : ε → Procedure ε σ α} (h : Keeps R p) (hhandler : ∀ e, Keeps R (handler e)) :
    Keeps R (Procedure.catching p handler) := by
  intro s
  have hs := h s
  rw [Procedure.catching]
  rcases hp : p s with ⟨e | a, s'⟩
  · rw [hp] at hs
    exact IsTrans.trans _ _ _ hs (hhandler e s')
  · rwa [hp] at hs

theorem of_eq (h : Keeps R p) {s s' : σ} {r : Except ε α} (hp : p s = (r, s')) : R s s' := by
  have hs := h s
  rwa [hp] at hs

end Keeps

end Procedure

open Procedure

variable {ε σ α β : Type}

/-- From `s`, the procedure ends with a result and a state in `Q`, or raises in `E`. -/
def Triple (p : Procedure ε σ α) (s : σ) (Q : α → σ → Prop) (E : ε → σ → Prop) : Prop :=
  match p s with
  | (.ok a, s') => Q a s'
  | (.error e, s') => E e s'

namespace Triple

variable {p : Procedure ε σ α} {s : σ} {Q : α → σ → Prop} {E : ε → σ → Prop}

theorem pure {a : α} (h : Q a s) : Triple (Pure.pure a : Procedure ε σ α) s Q E := h

theorem read {f : σ → α} (h : Q (f s) s) : Triple (Procedure.read f) s Q E := h

theorem write {f : σ → σ} {Q : Unit → σ → Prop} (h : Q () (f s)) : Triple (Procedure.write f) s Q E := h

theorem raise {e : ε} (h : E e s) : Triple (Procedure.raise e) s Q E := h

theorem lift {x : Except ε α} (hok : ∀ a, x = .ok a → Q a s) (herror : ∀ e, x = .error e → E e s) :
    Triple (Procedure.lift x) s Q E := by
  cases x with
  | ok a => exact hok a rfl
  | error e => exact herror e rfl

theorem bind {f : α → Procedure ε σ β} {R : β → σ → Prop}
    (h : Triple p s (fun a s' => Triple (f a) s' R E) E) : Triple (p >>= f) s R E := by
  unfold Triple at h ⊢
  simp only [Bind.bind]
  rcases hp : p s with ⟨_ | a, s'⟩
  · simpa [hp] using h
  · simpa [hp] using h

theorem mono {Q' : α → σ → Prop} {E' : ε → σ → Prop} (h : Triple p s Q E) (hq : ∀ a s', Q a s' → Q' a s')
    (he : ∀ e s', E e s' → E' e s') : Triple p s Q' E' := by
  unfold Triple at h ⊢
  rcases hp : p s with ⟨_ | a, s'⟩
  · simp only [hp] at h
    exact he _ _ h
  · simp only [hp] at h
    exact hq _ _ h

theorem read_bind {α β : Type} {f : σ → α} {g : α → Procedure ε σ β} {R : β → σ → Prop} :
    Triple (Procedure.read f >>= g) s R E ↔ Triple (g (f s)) s R E := Iff.rfl

theorem seq {f : α → Procedure ε σ β} {R : β → σ → Prop} (h : Triple p s Q E)
    (hf : ∀ a s', Q a s' → Triple (f a) s' R E) : Triple (p >>= f) s R E :=
  bind (mono h hf fun _ _ he => he)

theorem and {Q' : α → σ → Prop} {E' : ε → σ → Prop} (h : Triple p s Q E) (h' : Triple p s Q' E') :
    Triple p s (fun a s' => Q a s' ∧ Q' a s') (fun e s' => E e s' ∧ E' e s') := by
  unfold Triple at h h' ⊢
  rcases hp : p s with ⟨_ | a, s'⟩
  · simp only [hp] at h h'
    exact ⟨h, h'⟩
  · simp only [hp] at h h'
    exact ⟨h, h'⟩

theorem atomic (h : Triple p s Q fun e _ => E e s) : Triple (Procedure.atomic p) s Q E := by
  unfold Triple at h ⊢
  rcases hp : p s with ⟨_ | a, s'⟩
  · simpa [Procedure.atomic, hp] using h
  · simpa [Procedure.atomic, hp] using h

theorem catching {handler : ε → Procedure ε σ α} {E' : ε → σ → Prop}
    (h : Triple p s Q fun e s' => Triple (handler e) s' Q E') : Triple (Procedure.catching p handler) s Q E' := by
  unfold Triple at h ⊢
  rcases hp : p s with ⟨_ | a, s'⟩
  · simpa [Procedure.catching, hp] using h
  · simpa [Procedure.catching, hp] using h

theorem each {l : List α} {body : α → Procedure ε σ Unit} {I : σ → Prop} {s : σ} (hs : I s)
    (h : ∀ a ∈ l, ∀ s', I s' → Triple (body a) s' (fun _ => I) E) :
    Triple (Procedure.each l body) s (fun _ => I) E := by
  induction l generalizing s with
  | nil => exact hs
  | cons a rest ih =>
    refine bind (mono (h a (by simp) s hs) (fun _ s' hs' => ?_) fun _ _ he => he)
    exact ih hs' fun x hx => h x (by simp [hx])

theorem of_ok {a : α} {s' : σ} (h : Triple p s Q E) (hp : p s = (.ok a, s')) : Q a s' := by
  unfold Triple at h
  simpa [hp] using h

theorem of_error {e : ε} {s' : σ} (h : Triple p s Q E) (hp : p s = (.error e, s')) : E e s' := by
  unfold Triple at h
  simpa [hp] using h

theorem of_keeps {R : σ → σ → Prop} (h : Keeps R p) (s : σ) : Triple p s (fun _ => R s) fun _ => R s := by
  have hs := h s
  unfold Triple
  rcases hp : p s with ⟨_ | a, s'⟩
  · rwa [hp] at hs
  · rwa [hp] at hs

theorem of_eq {r : Except ε α} {s' : σ} (hp : p s = (r, s')) (hq : ∀ a, r = .ok a → Q a s')
    (he : ∀ e, r = .error e → E e s') : Triple p s Q E := by
  unfold Triple
  rw [hp]
  cases r with
  | ok a => exact hq a rfl
  | error e => exact he e rfl

theorem final (h : Triple p s Q E) {P : σ → Prop} (hq : ∀ a s', Q a s' → P s') (he : ∀ e s', E e s' → P s') :
    P (p s).2 := by
  unfold Triple at h
  rcases hp : p s with ⟨_ | a, s'⟩
  · simp only [hp] at h
    exact he _ _ h
  · simp only [hp] at h
    exact hq _ _ h

end Triple

attribute [irreducible] Triple

end Python
