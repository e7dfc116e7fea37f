import Mathlib.Data.List.Basic
import Mathlib.Logic.Function.Basic

/-! Threads that keep values of their own, also from one call to the next. A call that does not depend on what it finds
there puts out what it puts out alone, however the threads take turns. -/

namespace Python

variable {σ α ο κ : Type}

def emitted (act : σ → α → σ × Option ο) : σ → List α → List ο
  | _, [] => []
  | s, a :: rest => (act s a).2.toList ++ emitted act (act s a).1 rest

/-- A thread, and the call it is at: the ticket of the call and the actions that are left of it. -/
structure Thread (σ α : Type) where
  values : σ
  running : Option (Nat × List α) := none

/-- The calls in the order they were begun, and what was put out for them. -/
structure Threads (σ α ο κ : Type) where
  thread : Nat → Thread σ α
  started : List κ := []
  output : List (Nat × ο) := []

inductive Turn (κ : Type) where
  | take (i : Nat) (call : κ)
  | advance (i : Nat)

namespace Threads

variable (act : σ → α → σ × Option ο) (program : κ → List α) (w : Threads σ α ο κ)

def setThread (i : Nat) (thread : Thread σ α) : Threads σ α ο κ := { w with thread := Function.update w.thread i thread }

/-- The ticket of a call is the number of calls begun before it. -/
def start (call : κ) : Threads σ α ο κ := { w with started := w.started ++ [call] }

def put (ticket : Nat) (out : Option ο) : Threads σ α ο κ :=
  { w with output := w.output ++ out.toList.map fun o => (ticket, o) }

def take (i : Nat) (call : κ) : Threads σ α ο κ :=
  match (w.thread i).running with
  | some _ => w
  | none => (w.setThread i ⟨(w.thread i).values, some (w.started.length, program call)⟩).start call

def advance (i : Nat) : Threads σ α ο κ :=
  match (w.thread i).running with
  | none => w
  | some (_, []) => w.setThread i ⟨(w.thread i).values, none⟩
  | some (ticket, a :: rest) =>
    (w.setThread i ⟨(act (w.thread i).values a).1, some (ticket, rest)⟩).put ticket (act (w.thread i).values a).2

def step : Turn κ → Threads σ α ο κ
  | .take i call => w.take program i call
  | .advance i => w.advance act i

def run (turns : List (Turn κ)) : Threads σ α ο κ := turns.foldl (step act program) w

def outputOf (ticket : Nat) : List ο := (w.output.filter fun entry => entry.1 = ticket).map Prod.snd

/-- What was put out for a call, and what is left to put out, is what the call puts out alone. -/
structure Sound (alone : κ → List ο) : Prop where
  running : ∀ i ticket rest, (w.thread i).running = some (ticket, rest) →
    ∃ call, w.started[ticket]? = some call ∧ w.outputOf ticket ++ emitted act (w.thread i).values rest = alone call
  apart : ∀ i j ticket rest rest', (w.thread i).running = some (ticket, rest) →
    (w.thread j).running = some (ticket, rest') → i = j
  finished : ∀ ticket call, w.started[ticket]? = some call →
    (∀ i rest, (w.thread i).running ≠ some (ticket, rest)) → w.outputOf ticket = alone call
  known : ∀ entry ∈ w.output, entry.1 < w.started.length

section Proofs

variable {act : σ → α → σ × Option ο} {program : κ → List α} {w : Threads σ α ο κ} {alone : κ → List ο}

theorem setThread_self (i : Nat) (thread : Thread σ α) : (w.setThread i thread).thread i = thread :=
  Function.update_self ..

theorem setThread_of_ne {i j : Nat} (h : j ≠ i) (thread : Thread σ α) : (w.setThread i thread).thread j = w.thread j :=
  Function.update_of_ne h ..

theorem start_thread (call : κ) : (w.start call).thread = w.thread := rfl

theorem put_thread (ticket : Nat) (out : Option ο) : (w.put ticket out).thread = w.thread := rfl

theorem outputOf_setThread (i ticket : Nat) (thread : Thread σ α) :
    (w.setThread i thread).outputOf ticket = w.outputOf ticket := rfl

theorem outputOf_start (ticket : Nat) (call : κ) : (w.start call).outputOf ticket = w.outputOf ticket := rfl

theorem outputOf_put (w : Threads σ α ο κ) (ticket n : Nat) (out : Option ο) :
    (w.put n out).outputOf ticket = w.outputOf ticket ++ if n = ticket then out.toList else [] := by
  unfold outputOf put
  rw [List.filter_append, List.map_append]
  congr 1
  by_cases hn : n = ticket
  · rw [if_pos hn, List.filter_eq_self.mpr (by simp [hn]), List.map_map]
    exact List.map_id _
  · rw [if_neg hn, List.filter_eq_nil_iff.mpr (by simp [hn]), List.map_nil]

theorem Sound.ticket_lt (h : w.Sound act alone) {i ticket : Nat} {rest : List α}
    (hrunning : (w.thread i).running = some (ticket, rest)) : ticket < w.started.length := by
  obtain ⟨call, hcall, -⟩ := h.running i ticket rest hrunning
  exact (List.getElem?_eq_some_iff.mp hcall).1

theorem Sound.unused (h : w.Sound act alone) : w.outputOf w.started.length = [] := by
  rw [outputOf, List.map_eq_nil_iff, List.filter_eq_nil_iff]
  intro entry hentry
  have hlt := h.known entry hentry
  simp only [decide_eq_true_eq]
  omega

theorem Sound.take (h : w.Sound act alone) (hprogram : ∀ values call, emitted act values (program call) = alone call)
    (i : Nat) (call : κ) : (w.take program i call).Sound act alone := by
  unfold Threads.take
  cases hfree : (w.thread i).running with
  | some busy => exact h
  | none =>
    generalize hthread : (⟨(w.thread i).values, some (w.started.length, program call)⟩ : Thread σ α) = thread
    have hrunning : thread.running = some (w.started.length, program call) := by rw [← hthread]
    have hown : ∀ ticket rest, thread.running = some (ticket, rest) → ticket = w.started.length ∧ rest = program call := by
      intro ticket rest htaken
      have hpair := Option.some.inj (hrunning.symm.trans htaken)
      exact ⟨(congrArg Prod.fst hpair).symm, (congrArg Prod.snd hpair).symm⟩
    refine ⟨?_, ?_, ?_, ?_⟩
    · intro j ticket rest hj
      rw [outputOf_start, outputOf_setThread]
      rw [start_thread] at hj ⊢
      by_cases hji : j = i
      · rw [hji, setThread_self] at hj ⊢
        obtain ⟨rfl, rfl⟩ := hown ticket rest hj
        refine ⟨call, List.getElem?_concat_length, ?_⟩
        rw [h.unused]
        exact hprogram thread.values call
      · rw [setThread_of_ne hji] at hj ⊢
        obtain ⟨c, hc, hout⟩ := h.running j ticket rest hj
        exact ⟨c, (List.getElem?_append_left (h.ticket_lt hj)).trans hc, hout⟩
    · intro j k ticket rest rest' hj hk
      rw [start_thread] at hj hk
      by_cases hji : j = i
      · by_cases hki : k = i
        · rw [hji, hki]
        · rw [hji, setThread_self] at hj
          rw [setThread_of_ne hki] at hk
          have hlt := h.ticket_lt hk
          have heq := (hown ticket rest hj).1
          omega
      · by_cases hki : k = i
        · rw [setThread_of_ne hji] at hj
          rw [hki, setThread_self] at hk
          have hlt := h.ticket_lt hj
          have heq := (hown ticket rest' hk).1
          omega
        · rw [setThread_of_ne hji] at hj
          rw [setThread_of_ne hki] at hk
          exact h.apart j k ticket rest rest' hj hk
    · intro ticket c hc hnone
      rw [outputOf_start, outputOf_setThread]
      rw [start_thread] at hnone
      have hle : ticket < w.started.length + 1 := by
        have hin := (List.getElem?_eq_some_iff.mp hc).1
        rwa [start, List.length_append] at hin
      have hne : ticket ≠ w.started.length := by
        intro heq
        apply hnone i (program call)
        rw [setThread_self, hrunning, heq]
      have hlt : ticket < w.started.length := by omega
      apply h.finished ticket c ((List.getElem?_append_left hlt).symm.trans hc)
      intro j rest hj
      have hji : j ≠ i := by
        intro hji
        rw [hji, hfree] at hj
        cases hj
      apply hnone j rest
      rwa [setThread_of_ne hji]
    · intro entry hentry
      have hlt := h.known entry hentry
      have hlength : ((w.setThread i thread).start call).started.length = w.started.length + 1 := List.length_append
      exact lt_of_lt_of_eq (Nat.lt_succ_of_lt hlt) hlength.symm

theorem Sound.free (h : w.Sound act alone) {i ticket : Nat} (hrunning : (w.thread i).running = some (ticket, [])) :
    (w.setThread i ⟨(w.thread i).values, none⟩).Sound act alone := by
  obtain ⟨call, hcall, hout⟩ := h.running i ticket [] hrunning
  have hold : ∀ j t rest, ((w.setThread i ⟨(w.thread i).values, none⟩).thread j).running = some (t, rest) →
      j ≠ i ∧ (w.thread j).running = some (t, rest) := by
    intro j t rest hj
    by_cases hji : j = i
    · rw [hji, setThread_self] at hj
      cases hj
    · rw [setThread_of_ne hji] at hj
      exact ⟨hji, hj⟩
  refine ⟨?_, ?_, ?_, h.known⟩
  · intro j t rest hj
    obtain ⟨hji, hbefore⟩ := hold j t rest hj
    rw [setThread_of_ne hji]
    exact h.running j t rest hbefore
  · intro j k t rest rest' hj hk
    exact h.apart j k t rest rest' (hold j t rest hj).2 (hold k t rest' hk).2
  · intro t c hc hnone
    by_cases ht : t = ticket
    · subst ht
      obtain rfl : call = c := Option.some.inj (hcall.symm.trans hc)
      rw [emitted, List.append_nil] at hout
      exact hout
    · apply h.finished t c hc
      intro j rest hj
      have hji : j ≠ i := by
        intro hji
        rw [hji, hrunning] at hj
        exact ht (congrArg Prod.fst (Option.some.inj hj)).symm
      apply hnone j rest
      rwa [setThread_of_ne hji]

theorem Sound.next (h : w.Sound act alone) {i ticket : Nat} {a : α} {rest : List α}
    (hrunning : (w.thread i).running = some (ticket, a :: rest)) :
    ((w.setThread i ⟨(act (w.thread i).values a).1, some (ticket, rest)⟩).put ticket
      (act (w.thread i).values a).2).Sound act alone := by
  obtain ⟨call, hcall, hout⟩ := h.running i ticket (a :: rest) hrunning
  rw [emitted] at hout
  generalize act (w.thread i).values a = result at hout ⊢
  generalize hthread : (⟨result.1, some (ticket, rest)⟩ : Thread σ α) = thread
  have hnow : thread.running = some (ticket, rest) := by rw [← hthread]
  have hown : ∀ t l, thread.running = some (t, l) → t = ticket ∧ l = rest := by
    intro t l hi
    have hpair := Option.some.inj (hnow.symm.trans hi)
    exact ⟨(congrArg Prod.fst hpair).symm, (congrArg Prod.snd hpair).symm⟩
  refine ⟨?_, ?_, ?_, ?_⟩
  · intro j t l hj
    rw [outputOf_put, outputOf_setThread]
    rw [put_thread] at hj ⊢
    by_cases hji : j = i
    · rw [hji, setThread_self] at hj ⊢
      obtain ⟨rfl, rfl⟩ := hown t l hj
      refine ⟨call, hcall, ?_⟩
      rw [if_pos rfl, List.append_assoc, ← hthread]
      exact hout
    · rw [setThread_of_ne hji] at hj ⊢
      have hne : ticket ≠ t := by
        intro heq
        exact hji (h.apart j i t l (a :: rest) hj (heq ▸ hrunning))
      rw [if_neg hne, List.append_nil]
      exact h.running j t l hj
  · intro j k t l l' hj hk
    rw [put_thread] at hj hk
    by_cases hji : j = i
    · by_cases hki : k = i
      · rw [hji, hki]
      · rw [hji, setThread_self] at hj
        rw [setThread_of_ne hki] at hk
        have ht := (hown t l hj).1
        exact hji.trans (h.apart i k t (a :: rest) l' (ht ▸ hrunning) hk)
    · by_cases hki : k = i
      · rw [setThread_of_ne hji] at hj
        rw [hki, setThread_self] at hk
        have ht := (hown t l' hk).1
        exact (h.apart j i t l (a :: rest) hj (ht ▸ hrunning)).trans hki.symm
      · rw [setThread_of_ne hji] at hj
        rw [setThread_of_ne hki] at hk
        exact h.apart j k t l l' hj hk
  · intro t c hc hnone
    rw [put_thread] at hnone
    have hne : ticket ≠ t := by
      intro heq
      apply hnone i rest
      rw [setThread_self, hnow, heq]
    rw [outputOf_put, outputOf_setThread, if_neg hne, List.append_nil]
    apply h.finished t c hc
    intro j l hj
    by_cases hji : j = i
    · rw [hji, hrunning] at hj
      exact hne (congrArg Prod.fst (Option.some.inj hj))
    · apply hnone j l
      rwa [setThread_of_ne hji]
  · intro entry hentry
    rcases List.mem_append.mp hentry with hentry | hentry
    · exact h.known entry hentry
    · obtain ⟨o, -, rfl⟩ := List.mem_map.mp hentry
      exact h.ticket_lt hrunning

theorem Sound.advance (h : w.Sound act alone) (i : Nat) : (w.advance act i).Sound act alone := by
  unfold Threads.advance
  match hrunning : (w.thread i).running with
  | none => exact h
  | some (ticket, []) => exact h.free hrunning
  | some (ticket, a :: rest) => exact h.next hrunning

/-- So far a prefix of what the call puts out alone, and all of it once no thread is at the call. -/
theorem Sound.output (h : w.Sound act alone) {ticket : Nat} {call : κ} (hcall : w.started[ticket]? = some call) :
    w.outputOf ticket <+: alone call ∧
      ((∀ i rest, (w.thread i).running ≠ some (ticket, rest)) → w.outputOf ticket = alone call) := by
  refine ⟨?_, h.finished ticket call hcall⟩
  by_cases hrunning : ∃ i rest, (w.thread i).running = some (ticket, rest)
  · obtain ⟨i, rest, hi⟩ := hrunning
    obtain ⟨c, hc, hout⟩ := h.running i ticket rest hi
    obtain rfl : c = call := Option.some.inj (hc.symm.trans hcall)
    exact ⟨_, hout⟩
  · have hfree : ∀ i rest, (w.thread i).running ≠ some (ticket, rest) := by
      intro i rest hi
      exact hrunning ⟨i, rest, hi⟩
    have hall := h.finished ticket call hcall hfree
    exact hall ▸ List.prefix_refl (w.outputOf ticket)

end Proofs

end Threads

end Python
