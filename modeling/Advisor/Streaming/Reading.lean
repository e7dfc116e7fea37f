import Mathlib.Data.List.Pairwise
import Mathlib.Logic.Function.Basic

/-! Streams that are read piece by piece: a listing that a service hands out in pages, each asked for by the token that
stood with the last item of the one before, and entries in partitions, with the offset to continue from for each. -/

namespace Streaming

section Listing

/-- An item of a page, with the token for what follows it; `none` or an empty one where nothing does. -/
structure Item (α : Type) where
  object : α
  continuationToken : Option String

abbrev Fetch (ε α : Type) := Option String → Except ε (List (Item α))


variable {ε α : Type}

def nextToken (response : List (Item α)) : Option String :=
  match response.getLast? with
  | none => none
  | some last => last.continuationToken.filter (· ≠ "")

/-- The loop over the pages, up to a number of them; `none` when there are more. -/
def readPages (fetch : Fetch ε α) (fetchAll : Bool) : Nat → Option String → Except ε (Option (List α))
  | 0, _ => .ok none
  | pages + 1, token => do
    let response ← fetch token
    let objects := response.map (·.object)
    if !fetchAll then return some objects
    match nextToken response with
    | none => return some objects
    | some next => return (← readPages fetch fetchAll pages (some next)).map (objects ++ ·)

/-- `rest` is what the listing has from a token on. A page is a beginning of that; it is empty only where nothing is
left, and its last token is for what follows it. -/
structure Serves (fetch : Fetch ε α) (rest : Option String → List α) : Prop where
  page : ∀ token, ∃ response, fetch token = .ok response ∧
    (match nextToken response with
    | none => rest token = response.map (·.object)
    | some next => rest token = response.map (·.object) ++ rest (some next))

theorem nextToken_nonempty {response : List (Item α)} {next : String} (h : nextToken response = some next) :
    response ≠ [] := by
  rintro rfl
  cases h

/-- Enough pages give the listing, each item once and in its place. -/
theorem readPages_eq {fetch : Fetch ε α} {rest : Option String → List α} (h : Serves fetch rest)
    (pages : Nat) (token : Option String) (hpages : (rest token).length < pages) :
    readPages fetch true pages token = .ok (some (rest token)) := by
  induction pages generalizing token with
  | zero => omega
  | succ pages ih =>
    obtain ⟨response, hresponse, hrest⟩ := h.page token
    unfold readPages
    rw [hresponse]
    cases hnext : nextToken response with
    | none =>
      rw [hnext] at hrest
      simp only [bind, Except.bind, Bool.not_true, Bool.false_eq_true, if_false, hnext, hrest]
      rfl
    | some next =>
      rw [hnext] at hrest
      have hnonempty : 0 < response.length := List.length_pos_iff.mpr (nextToken_nonempty hnext)
      have hfewer : (rest (some next)).length < pages := by
        rw [hrest, List.length_append, List.length_map] at hpages
        omega
      simp only [bind, Except.bind, Bool.not_true, Bool.false_eq_true, if_false, hnext, ih (some next) hfewer, hrest]
      rfl

end Listing

section Partitions

variable {α κ : Type*} {partition : α → κ} {offset : α → Nat}

def Ordered (partition : α → κ) (offset : α → Nat) (l : List α) : Prop :=
  l.Pairwise fun a b => partition a = partition b → offset a < offset b

abbrev Positions (κ : Type*) := κ → Option Nat

def Positions.after [DecidableEq κ] (partition : α → κ) (offset : α → Nat) (p : Positions κ) (a : α) : Positions κ :=
  Function.update p (partition a) (some (offset a + 1))

/-- A consumer that continues from `p` reads the entry again. -/
def Redelivers (partition : α → κ) (offset : α → Nat) (p : Positions κ) (a : α) : Prop :=
  ∀ n, p (partition a) = some n → n ≤ offset a

def Behind (partition : α → κ) (offset : α → Nat) (P : α → Prop) (p : Positions κ) : Prop :=
  ∀ k n, p k = some n → ∃ a, P a ∧ partition a = k ∧ n = offset a + 1

theorem Behind.after [DecidableEq κ] {P : α → Prop} {p : Positions κ} (h : Behind partition offset P p) {a : α} (ha : P a) :
    Behind partition offset P (p.after partition offset a) := by
  intro k n hn
  by_cases hk : k = partition a
  · subst hk
    simp only [Positions.after, Function.update_self, Option.some.injEq] at hn
    exact ⟨a, ha, rfl, hn.symm⟩
  · rw [Positions.after, Function.update_of_ne hk] at hn
    exact h k n hn

theorem Behind.mono {P Q : α → Prop} {p : Positions κ} (h : Behind partition offset P p) (hpq : ∀ a, P a → Q a) :
    Behind partition offset Q p := by
  intro k n hn
  obtain ⟨a, ha, hk⟩ := h k n hn
  exact ⟨a, hpq a ha, hk⟩

theorem Behind.redelivers {done rest : List α} {P : α → Prop} {p : Positions κ}
    (h : Behind partition offset P p) (hdone : ∀ a, P a → a ∈ done)
    (hordered : Ordered partition offset (done ++ rest)) {a : α} (ha : a ∈ rest) :
    Redelivers partition offset p a := by
  intro n hn
  obtain ⟨b, hb, hk, rfl⟩ := h _ n hn
  have hlt := (List.pairwise_append.mp hordered).2.2 b (hdone b hb) a ha hk
  omega

end Partitions

end Streaming
