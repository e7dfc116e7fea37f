import Mathlib.Data.List.Induction
import Mathlib.Order.Bounds.Basic

/-! What is written last, where each entry of a list writes something or nothing, and the latest of a set of times. -/

namespace Relational

variable {α β : Type*} {writes : α → Option β} {start : β}

/-- What is written last, over what there is to start with. -/
def lastWritten (writes : α → Option β) (start : β) (l : List α) : β := l.foldl (fun written a => (writes a).getD written) start

@[simp] theorem lastWritten_nil : lastWritten writes start [] = start := rfl

theorem lastWritten_concat (l : List α) (a : α) :
    lastWritten writes start (l ++ [a]) = (writes a).getD (lastWritten writes start l) := by
  simp [lastWritten, List.foldl_append]

def IsLast (p : α → Prop) (l pre : List α) (a : α) : Prop :=
  ∃ post, l = pre ++ a :: post ∧ p a ∧ ∀ later ∈ post, ¬p later

variable {p : α → Prop} {l pre : List α} {a b : α}

theorem not_isLast_nil : ¬IsLast p [] pre a := by
  rintro ⟨post, hsplit, -⟩
  simp at hsplit

theorem IsLast.prop (h : IsLast p l pre a) : p a := h.choose_spec.2.1

theorem IsLast.mem (h : IsLast p l pre a) : a ∈ l := by
  obtain ⟨post, rfl, -⟩ := h
  simp

theorem IsLast.of_concat (h : IsLast p (l ++ [b]) pre a) : pre = l ∧ a = b ∨ ¬p b ∧ IsLast p l pre a := by
  obtain ⟨post, hsplit, ha, hpost⟩ := h
  induction post using List.reverseRecOn with
  | nil =>
    obtain ⟨rfl, hb⟩ := List.append_inj' hsplit rfl
    exact Or.inl ⟨rfl, (List.singleton_inj.mp hb).symm⟩
  | append_singleton post c _ =>
    rw [← List.cons_append, ← List.append_assoc] at hsplit
    obtain ⟨rfl, hb⟩ := List.append_inj' hsplit rfl
    obtain rfl := List.singleton_inj.mp hb
    exact Or.inr ⟨hpost b (by simp), post, rfl, ha, fun later hl => hpost later (by simp [hl])⟩

/-- Something that is true of a list as soon as one of its elements is met, with what comes before it. -/
theorem exists_split_concat {P : List α → α → Prop} {l : List α} {a : α} :
    (∃ pre b post, l ++ [a] = pre ++ b :: post ∧ P pre b) ↔ (∃ pre b post, l = pre ++ b :: post ∧ P pre b) ∨ P l a := by
  constructor
  · rintro ⟨pre, b, post, hsplit, hP⟩
    induction post using List.reverseRecOn with
    | nil =>
      obtain ⟨rfl, hb⟩ := List.append_inj' hsplit rfl
      obtain rfl := List.singleton_inj.mp hb
      exact Or.inr hP
    | append_singleton post c _ =>
      rw [← List.cons_append, ← List.append_assoc] at hsplit
      exact Or.inl ⟨pre, b, post, (List.append_inj' hsplit rfl).1, hP⟩
  · rintro (⟨pre, b, post, rfl, hP⟩ | hP)
    · exact ⟨pre, b, post ++ [a], by simp, hP⟩
    · exact ⟨l, a, [], rfl, hP⟩

variable {τ : Type*} [LinearOrder τ] {times : Set τ}

def Latest (times : Set τ) : Option τ → Prop
  | none => times = ∅
  | some time => IsGreatest times time

theorem Latest.insert_max {time : Option τ} (h : Latest times time) (other : τ) :
    Latest (insert other times) (some ((time.map (max other)).getD other)) := by
  cases time with
  | none =>
    obtain rfl : times = ∅ := h
    simp [Latest]
  | some time => exact IsGreatest.insert other h

theorem Latest.unique {time time' : Option τ} (h : Latest times time) (h' : Latest times time') : time = time' := by
  cases time with
  | none =>
    obtain rfl : times = ∅ := h
    cases time' with
    | none => rfl
    | some time' => exact absurd h'.1 (Set.notMem_empty _)
  | some time =>
    cases time' with
    | none =>
      obtain rfl : times = ∅ := h'
      exact absurd h.1 (Set.notMem_empty _)
    | some time' => exact congrArg some (IsGreatest.unique h h')

/-- One more time makes no difference exactly if one that is no earlier was there. -/
theorem latest_insert_iff {time : Option τ} {other : τ} (h : Latest (insert other times) time) :
    Latest times time ↔ ∃ earlier ∈ times, other ≤ earlier := by
  cases time with
  | none => exact absurd (Set.mem_insert other times) (by rw [show insert other times = ∅ from h]; exact Set.notMem_empty _)
  | some time =>
    constructor
    · intro hlatest
      exact ⟨time, hlatest.1, h.2 (Set.mem_insert other times)⟩
    · rintro ⟨earlier, hearlier, hle⟩
      refine ⟨?_, fun t ht => h.2 (Set.mem_insert_of_mem other ht)⟩
      rcases Set.mem_insert_iff.mp h.1 with rfl | hmem
      · rwa [le_antisymm hle (h.2 (Set.mem_insert_of_mem _ hearlier))]
      · exact hmem

end Relational
