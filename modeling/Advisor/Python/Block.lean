import Advisor.Python.Procedure

/-! Procedures cut at their statements: between two of them others may change the state. With the state to itself a
block runs as the procedure it was cut from. -/

namespace Python

variable {ε σ α β : Type}

/-- What is left of a procedure: its result, or a statement, after which it goes on by what that one has read. -/
inductive Block (ε σ α : Type) where
  | done (result : Except ε α)
  | statement (write : σ → σ) (next : σ → Block ε σ α)

namespace Block

def execute (p : Procedure ε σ α) : Block ε σ α :=
  .statement (fun s => (p s).2) fun s => .done (p s).1

def bind : Block ε σ α → (α → Block ε σ β) → Block ε σ β
  | .done (.ok a), f => f a
  | .done (.error e), _ => .done (.error e)
  | .statement write next, f => .statement write fun s => bind (next s) f

instance : Monad (Block ε σ) where
  pure a := .done (.ok a)
  bind := bind

/-- `try: … except Exception`. -/
def catching : Block ε σ α → (ε → Block ε σ α) → Block ε σ α
  | .done (.ok a), _ => .done (.ok a)
  | .done (.error e), handler => handler e
  | .statement write next, handler => .statement write fun s => catching (next s) handler

def each (l : List α) (body : α → Block ε σ Unit) : Block ε σ Unit :=
  match l with
  | [] => pure ()
  | a :: rest => do
    body a
    each rest body

def run : Block ε σ α → Procedure ε σ α
  | .done result, s => (result, s)
  | .statement write next, s => run (next s) (write s)

@[simp] theorem run_done (result : Except ε α) : (done result : Block ε σ α).run = Procedure.lift result := rfl

@[simp] theorem run_pure (a : α) : (pure a : Block ε σ α).run = pure a := rfl

@[simp] theorem run_execute (p : Procedure ε σ α) : (execute p).run = p := rfl

@[simp] theorem run_bind (b : Block ε σ α) (f : α → Block ε σ β) :
    (b >>= f).run = b.run >>= fun a => (f a).run := by
  funext s
  induction b generalizing s with
  | done result =>
    cases result with
    | error e => rfl
    | ok a => rfl
  | statement write next ih => exact ih s (write s)

@[simp] theorem run_ite (c : Prop) [Decidable c] (b b' : Block ε σ α) :
    (if c then b else b').run = if c then b.run else b'.run := by
  by_cases h : c
  · rw [if_pos h, if_pos h]
  · rw [if_neg h, if_neg h]

@[simp] theorem run_catching (b : Block ε σ α) (handler : ε → Block ε σ α) :
    (b.catching handler).run = Procedure.catching b.run fun e => (handler e).run := by
  funext s
  induction b generalizing s with
  | done result =>
    cases result with
    | error e => rfl
    | ok a => rfl
  | statement write next ih => exact ih s (write s)

@[simp] theorem run_each (l : List α) (body : α → Block ε σ Unit) :
    (each l body).run = Procedure.each l fun a => (body a).run := by
  induction l with
  | nil => rfl
  | cons a rest ih => rw [each, run_bind, ih, Procedure.each_cons]

end Block

namespace Procedure

instance : LawfulMonad (Procedure ε σ) :=
  LawfulMonad.mk' (Procedure ε σ)
    (fun p => by
      funext s
      show (p >>= fun a => pure a) s = p s
      simp only [Bind.bind]
      rcases p s with ⟨e | a, s'⟩
      · rfl
      · rfl)
    (fun _ _ => rfl)
    (fun p f g => by
      funext s
      simp only [Bind.bind]
      rcases p s with ⟨e | a, s'⟩
      · rfl
      · rfl)

/-- The procedure does to `f s` what it does to `s`. -/
def Natural (f : σ → σ) (p : Procedure ε σ α) : Prop := ∀ s, p (f s) = ((p s).1, f (p s).2)

namespace Natural

variable {f : σ → σ} {p : Procedure ε σ α}

theorem pure (a : α) : Natural f (Pure.pure a : Procedure ε σ α) := fun _ => rfl

theorem lift (x : Except ε α) : Natural f (Procedure.lift x : Procedure ε σ α) := fun _ => rfl

theorem read {g : σ → α} (h : ∀ s, g (f s) = g s) : Natural f (Procedure.read g : Procedure ε σ α) := by
  intro s
  rw [Procedure.read, h]
  rfl

theorem write {g : σ → σ} (h : ∀ s, g (f s) = f (g s)) : Natural f (Procedure.write g : Procedure ε σ Unit) := by
  intro s
  rw [Procedure.write, h]
  rfl

theorem bind {q : α → Procedure ε σ β} (h : Natural f p) (hq : ∀ a, Natural f (q a)) : Natural f (p >>= q) := by
  intro s
  show (p >>= q) (f s) = (((p >>= q) s).1, f ((p >>= q) s).2)
  simp only [Bind.bind, h s]
  rcases p s with ⟨e | a, s'⟩
  · rfl
  · exact hq a s'

theorem ite {c : Prop} [Decidable c] {q : Procedure ε σ α} (hp : c → Natural f p) (hq : ¬c → Natural f q) :
    Natural f (if c then p else q) := by
  by_cases hc : c
  · rw [if_pos hc]
    exact hp hc
  · rw [if_neg hc]
    exact hq hc

theorem catching {handler : ε → Procedure ε σ α} (h : Natural f p) (hhandler : ∀ e, Natural f (handler e)) :
    Natural f (Procedure.catching p handler) := by
  intro s
  rw [Procedure.catching, Procedure.catching, h s]
  rcases p s with ⟨e | a, s'⟩
  · exact hhandler e s'
  · rfl

theorem each {l : List α} {body : α → Procedure ε σ Unit} (h : ∀ a ∈ l, Natural f (body a)) :
    Natural f (Procedure.each l body) := by
  induction l with
  | nil => exact pure ()
  | cons a rest ih => exact bind (h a (by simp)) fun _ => ih fun b hb => h b (by simp [hb])

end Natural

end Procedure

end Python
