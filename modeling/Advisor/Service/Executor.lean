import Mathlib.Algebra.BigOperators.Group.List.Basic
import Mathlib.Algebra.GroupWithZero.Nat
import Mathlib.Data.List.Count

/-! The thread pool of the service: a semaphore that is acquired before a call is handed to the pool, and released by
a callback of its future. -/

namespace Advisor.Service

inductive Status where
  | queued
  | running
  | done
  deriving DecidableEq

/-- What the pool keeps of a call; `attached` says whether it has its callback. -/
structure Future (α : Type) where
  call : α
  status : Status := .queued
  attached : Bool := false

/-- `acquired` threads are in `submit` and have their permit, but no future yet. -/
structure BoundedExecutor (α : Type) where
  bound : Nat
  maxWorkers : Nat
  permits : Nat
  acquired : Nat := 0
  futures : List (Future α) := []
  down : Bool := false

inductive ReleaseError where
  | valueError
  deriving DecidableEq

variable {α : Type}

namespace Future

def holds (f : Future α) : Bool := !(f.status = .done && f.attached)

def isRunning (f : Future α) : Bool := f.status = .running

def left (f : Future α) : Nat :=
  (match f.status with
    | .queued => 2
    | .running => 1
    | .done => 0) + if f.attached then 0 else 1

end Future

namespace BoundedExecutor

def new (bound maxWorkers : Nat) : BoundedExecutor α where
  bound
  maxWorkers
  permits := bound + maxWorkers

/-- A `BoundedSemaphore` does not take more than it was made with. -/
def release (e : BoundedExecutor α) : Except ReleaseError (BoundedExecutor α) :=
  if e.permits < e.bound + e.maxWorkers then .ok { e with permits := e.permits + 1 } else .error .valueError

/-- The pool takes its work in the order it was given. -/
def startFirst : List (Future α) → Option (List (Future α))
  | [] => none
  | f :: rest =>
    if f.status = .queued then some ({ f with status := .running } :: rest) else (startFirst rest).map (f :: ·)

/-- What a thread that submits does, or a worker. -/
inductive Action (α : Type) where
  | acquire
  | submit (call : α)
  | addDoneCallback (i : Nat)
  | start
  | finish (i : Nat)
  | shutdown

/-- A callback that is added to a future that is done is called at once. A pool that is shut down takes no more calls,
and `submit` releases the semaphore before it raises. -/
def step (e : BoundedExecutor α) : Action α → Option (Except ReleaseError (BoundedExecutor α))
  | .acquire => if e.permits = 0 then none else some (.ok { e with permits := e.permits - 1, acquired := e.acquired + 1 })
  | .submit call =>
    if e.acquired = 0 then none
    else if e.down then some ({ e with acquired := e.acquired - 1 } : BoundedExecutor α).release
    else some (.ok { e with acquired := e.acquired - 1, futures := e.futures ++ [{ call }] })
  | .addDoneCallback i =>
    match e.futures[i]? with
    | none => none
    | some f =>
      if f.attached then none
      else
        let e' : BoundedExecutor α := { e with futures := e.futures.set i { f with attached := true } }
        if f.status = .done then some e'.release else some (.ok e')
  | .start =>
    if e.futures.countP Future.isRunning < e.maxWorkers then
      (startFirst e.futures).map fun futures => .ok { e with futures }
    else none
  | .finish i =>
    match e.futures[i]? with
    | none => none
    | some f =>
      if f.status = .running then
        let e' : BoundedExecutor α := { e with futures := e.futures.set i { f with status := .done } }
        if f.attached then some e'.release else some (.ok e')
      else none
  | .shutdown => if e.down then none else some (.ok { e with down := true })

/-- The states that threads and workers can get a pool to. -/
inductive Reached (bound maxWorkers : Nat) : BoundedExecutor α → Prop
  | new : Reached bound maxWorkers (.new bound maxWorkers)
  | step {e e' : BoundedExecutor α} (action : Action α) :
      Reached bound maxWorkers e → e.step action = some (.ok e') → Reached bound maxWorkers e'

/-- Each permit is free, or with a thread, or with a future. -/
def Accounted (e : BoundedExecutor α) : Prop :=
  e.permits + e.acquired + e.futures.countP Future.holds = e.bound + e.maxWorkers

def InOrder (e : BoundedExecutor α) : Prop :=
  e.futures.Pairwise fun f g => g.status ≠ .queued → f.status ≠ .queued

structure Sound (e : BoundedExecutor α) : Prop where
  accounted : e.Accounted
  workers : e.futures.countP Future.isRunning ≤ e.maxWorkers
  inOrder : e.InOrder

/-- The steps the pool has before it when no thread comes to `submit` any more. -/
def left (e : BoundedExecutor α) : Nat :=
  4 * e.acquired + (e.futures.map Future.left).sum + if e.down then 0 else 1

def Action.isAcquire : Action α → Bool
  | .acquire => true
  | _ => false

/-- Nothing is left of any call, and all permits are free. -/
structure Drained (e : BoundedExecutor α) : Prop where
  noThread : e.acquired = 0
  returned : ∀ f ∈ e.futures, f.status = .done ∧ f.attached
  free : e.permits = e.bound + e.maxWorkers

def run (e : BoundedExecutor α) : List (Action α) → Option (BoundedExecutor α)
  | [] => some e
  | action :: actions =>
    match e.step action with
    | some (.ok e') => e'.run actions
    | _ => none

end BoundedExecutor

theorem split_of_getElem? {β : Type} {l : List β} {i : Nat} {b : β} (h : l[i]? = some b) :
    ∃ before after, l = before ++ b :: after ∧ ∀ c, l.set i c = before ++ c :: after := by
  obtain ⟨hi, hb⟩ := List.getElem?_eq_some_iff.mp h
  refine ⟨l.take i, l.drop (i + 1), ?_, fun c => ?_⟩
  · rw [← hb, List.getElem_cons_drop, List.take_append_drop]
  · rw [List.set_eq_take_append_cons_drop, if_pos hi]

theorem countP_split {β : Type} (p : β → Bool) (before after : List β) (b : β) :
    (before ++ b :: after).countP p = before.countP p + after.countP p + if p b then 1 else 0 := by
  rw [List.countP_append, List.countP_cons]
  omega

namespace BoundedExecutor

theorem startFirst_split {futures futures' : List (Future α)} (h : startFirst futures = some futures') :
    ∃ before f after, futures = before ++ f :: after ∧ f.status = .queued ∧
      (∀ g ∈ before, g.status ≠ .queued) ∧ futures' = before ++ { f with status := .running } :: after := by
  induction futures generalizing futures' with
  | nil => cases h
  | cons f rest ih =>
    unfold startFirst at h
    split_ifs at h with hqueued
    · cases h
      exact ⟨[], f, rest, rfl, hqueued, by simp, rfl⟩
    · obtain ⟨rest', hrest, rfl⟩ := Option.map_eq_some_iff.mp h
      obtain ⟨before, g, after, rfl, hg, hbefore, rfl⟩ := ih hrest
      refine ⟨f :: before, g, after, rfl, hg, ?_, rfl⟩
      intro other hother
      rcases List.mem_cons.mp hother with rfl | hother
      · exact hqueued
      · exact hbefore other hother

theorem startFirst_eq_none {futures : List (Future α)} :
    startFirst futures = none ↔ ∀ f ∈ futures, f.status ≠ .queued := by
  induction futures with
  | nil => simp [startFirst]
  | cons f rest ih =>
    unfold startFirst
    split_ifs with hqueued
    · simp [hqueued]
    · simp [hqueued, ih]

theorem inOrder_replace {before after : List (Future α)} {f f' : Future α}
    (h : (before ++ f :: after).Pairwise fun f g => g.status ≠ .queued → f.status ≠ .queued)
    (hstarted : f.status ≠ .queued → f'.status ≠ .queued)
    (hbefore : f'.status ≠ .queued → ∀ g ∈ before, g.status ≠ .queued) :
    (before ++ f' :: after).Pairwise fun f g => g.status ≠ .queued → f.status ≠ .queued := by
  rw [List.pairwise_append, List.pairwise_cons] at h ⊢
  obtain ⟨hb, ⟨hf, ha⟩, hcross⟩ := h
  refine ⟨hb, ⟨fun g hg hstart => hstarted (hf g hg hstart), ha⟩, ?_⟩
  intro g hg other hother hstart
  rcases List.mem_cons.mp hother with rfl | hother
  · exact hbefore hstart g hg
  · exact hcross g hg other (List.mem_cons_of_mem _ hother) hstart

theorem sum_split (measure : Future α → Nat) (before after : List (Future α)) (f : Future α) :
    ((before ++ f :: after).map measure).sum = (before.map measure).sum + (after.map measure).sum + measure f := by
  rw [List.map_append, List.sum_append, List.map_cons, List.sum_cons]
  omega

theorem release_of_missing {e : BoundedExecutor α}
    (h : e.permits + e.acquired + e.futures.countP Future.holds + 1 = e.bound + e.maxWorkers) :
    e.release = .ok { e with permits := e.permits + 1 } := by
  unfold release
  rw [if_pos (by omega)]

structure Next (e : BoundedExecutor α) (action : Action α) (e' : BoundedExecutor α) : Prop where
  sound : e'.Sound
  bound : e'.bound = e.bound
  maxWorkers : e'.maxWorkers = e.maxWorkers
  left : action.isAcquire = false → e'.left < e.left
  calls : (e.futures.map Future.call) <+: (e'.futures.map Future.call)

theorem next_acquire {e : BoundedExecutor α} (h : e.Sound) (hfree : e.permits ≠ 0) :
    Next e .acquire { e with permits := e.permits - 1, acquired := e.acquired + 1 } where
  sound := by
    refine ⟨?_, h.workers, h.inOrder⟩
    have haccounted := h.accounted
    unfold Accounted at haccounted ⊢
    show e.permits - 1 + (e.acquired + 1) + e.futures.countP Future.holds = e.bound + e.maxWorkers
    omega
  bound := rfl
  maxWorkers := rfl
  left hacquire := by cases hacquire
  calls := List.prefix_rfl

theorem next_refused {e : BoundedExecutor α} (h : e.Sound) (hthread : e.acquired ≠ 0) (call : α) :
    Next e (.submit call) { e with acquired := e.acquired - 1, permits := e.permits + 1 } where
  sound := by
    refine ⟨?_, h.workers, h.inOrder⟩
    have haccounted := h.accounted
    unfold Accounted at haccounted ⊢
    show e.permits + 1 + (e.acquired - 1) + e.futures.countP Future.holds = e.bound + e.maxWorkers
    omega
  bound := rfl
  maxWorkers := rfl
  left _ := by
    show 4 * (e.acquired - 1) + (e.futures.map Future.left).sum + (if e.down then 0 else 1) < e.left
    unfold left
    omega
  calls := List.prefix_rfl

theorem next_submit {e : BoundedExecutor α} (h : e.Sound) (hthread : e.acquired ≠ 0) (call : α) :
    Next e (.submit call) { e with acquired := e.acquired - 1, futures := e.futures ++ [{ call }] } where
  sound := by
    refine ⟨?_, ?_, ?_⟩
    · have haccounted := h.accounted
      unfold Accounted at haccounted ⊢
      show e.permits + (e.acquired - 1) + (e.futures ++ [({ call := call } : Future α)]).countP Future.holds = e.bound + e.maxWorkers
      rw [countP_split]
      simp only [List.countP_nil, Future.holds, reduceCtorEq, decide_false, Bool.false_and, Bool.not_false, if_true]
      omega
    · show (e.futures ++ [({ call := call } : Future α)]).countP Future.isRunning ≤ e.maxWorkers
      rw [countP_split]
      simp only [List.countP_nil, Future.isRunning, reduceCtorEq, decide_false, Bool.false_eq_true, if_false]
      exact h.workers
    · show (e.futures ++ [({ call := call } : Future α)]).Pairwise _
      refine List.pairwise_append.mpr ⟨h.inOrder, List.pairwise_singleton _ _, ?_⟩
      intro f _ g hg hstart
      rw [List.mem_singleton.mp hg] at hstart
      exact absurd rfl hstart
  bound := rfl
  maxWorkers := rfl
  left _ := by
    show 4 * (e.acquired - 1) + ((e.futures ++ [({ call := call } : Future α)]).map Future.left).sum + (if e.down then 0 else 1) < e.left
    rw [sum_split]
    simp only [left, List.map_nil, List.sum_nil, Future.left, Bool.false_eq_true, if_false]
    omega
  calls := by
    show e.futures.map Future.call <+: (e.futures ++ [({ call := call } : Future α)]).map Future.call
    rw [List.map_append]
    exact List.prefix_append _ _

theorem next_replace {e : BoundedExecutor α} (h : e.Sound) {before after : List (Future α)} {f f' : Future α}
    (freed : Nat) {action : Action α} (hsplit : e.futures = before ++ f :: after) (hcall : f'.call = f.call)
    (hstarted : f.status ≠ .queued → f'.status ≠ .queued)
    (hbefore : f'.status ≠ .queued → ∀ g ∈ before, g.status ≠ .queued) (hleft : f'.left < f.left)
    (hholds : (if f'.holds then 1 else 0) + freed = (if f.holds then 1 else 0))
    (hworkers : f'.isRunning = true → f.isRunning = true ∨ e.futures.countP Future.isRunning < e.maxWorkers) :
    Next e action { e with permits := e.permits + freed, futures := before ++ f' :: after } where
  sound := by
    refine ⟨?_, ?_, ?_⟩
    · have haccounted := h.accounted
      unfold Accounted at haccounted ⊢
      rw [hsplit, countP_split] at haccounted
      show e.permits + freed + e.acquired + (before ++ f' :: after).countP Future.holds = e.bound + e.maxWorkers
      rw [countP_split]
      omega
    · show (before ++ f' :: after).countP Future.isRunning ≤ e.maxWorkers
      have hold := h.workers
      rw [hsplit, countP_split] at hold hworkers
      rw [countP_split]
      by_cases hrunning : f'.isRunning = true
      · rcases hworkers hrunning with hwas | hroom
        · rw [if_pos hwas] at hold
          rw [if_pos hrunning]
          exact hold
        · rw [if_pos hrunning]
          omega
      · rw [if_neg hrunning]
        omega
    · have horder := h.inOrder
      unfold InOrder at horder ⊢
      rw [hsplit] at horder
      exact inOrder_replace horder hstarted hbefore
  bound := rfl
  maxWorkers := rfl
  left _ := by
    show 4 * e.acquired + ((before ++ f' :: after).map Future.left).sum + (if e.down then 0 else 1) < e.left
    unfold left
    rw [hsplit, sum_split, sum_split]
    omega
  calls := by
    have hcalls : e.futures.map Future.call = (before ++ f' :: after).map Future.call := by
      rw [hsplit, List.map_append, List.map_append, List.map_cons, List.map_cons, hcall]
    show e.futures.map Future.call <+: (before ++ f' :: after).map Future.call
    exact ⟨[], by rw [List.append_nil, hcalls]⟩

theorem release_replace {e : BoundedExecutor α} (h : e.Sound) {before after : List (Future α)} {f f' : Future α}
    (hsplit : e.futures = before ++ f :: after) (hholds : f.holds = true) (hfree : f'.holds = false) :
    ({ e with futures := before ++ f' :: after } : BoundedExecutor α).release =
      .ok { e with permits := e.permits + 1, futures := before ++ f' :: after } := by
  apply release_of_missing
  have haccounted := h.accounted
  unfold Accounted at haccounted
  rw [hsplit, countP_split, if_pos hholds] at haccounted
  show e.permits + e.acquired + (before ++ f' :: after).countP Future.holds + 1 = e.bound + e.maxWorkers
  rw [countP_split, if_neg (by simp [hfree])]
  omega

theorem started_before {e : BoundedExecutor α} (h : e.Sound) {before after : List (Future α)} {f : Future α}
    (hsplit : e.futures = before ++ f :: after) (hstart : f.status ≠ .queued) : ∀ g ∈ before, g.status ≠ .queued := by
  have horder := h.inOrder
  unfold InOrder at horder
  rw [hsplit, List.pairwise_append] at horder
  exact fun g hg => horder.2.2 g hg f List.mem_cons_self hstart

theorem next_shutdown {e : BoundedExecutor α} (h : e.Sound) (hup : e.down = false) :
    Next e .shutdown { e with down := true } where
  sound := ⟨h.accounted, h.workers, h.inOrder⟩
  bound := rfl
  maxWorkers := rfl
  left _ := by
    show 4 * e.acquired + (e.futures.map Future.left).sum + (if true then 0 else 1) < e.left
    simp only [left, hup, if_true, Bool.false_eq_true, if_false]
    omega
  calls := List.prefix_rfl

/-- Every step that a sound pool takes is one of these, and `release` never raises. -/
theorem step_next {e : BoundedExecutor α} {action : Action α} {result : Except ReleaseError (BoundedExecutor α)}
    (h : e.Sound) (hstep : e.step action = some result) : ∃ e', result = .ok e' ∧ Next e action e' := by
  cases action with
  | acquire =>
    simp only [step] at hstep
    split_ifs at hstep with hfree
    cases hstep
    exact ⟨_, rfl, next_acquire h hfree⟩
  | submit call =>
    simp only [step] at hstep
    split_ifs at hstep with hthread hdown
    · have haccounted := h.accounted
      unfold Accounted at haccounted
      rw [release_of_missing (show e.permits + (e.acquired - 1) + e.futures.countP Future.holds + 1 =
        e.bound + e.maxWorkers by omega)] at hstep
      cases hstep
      exact ⟨_, rfl, next_refused h hthread call⟩
    · cases hstep
      exact ⟨_, rfl, next_submit h hthread call⟩
  | addDoneCallback i =>
    simp only [step] at hstep
    split at hstep
    · cases hstep
    · rename_i f hf
      obtain ⟨before, after, hsplit, hset⟩ := split_of_getElem? hf
      rw [hset] at hstep
      split_ifs at hstep with hattached hdone
      · -- the call has returned before its callback was there
        have hholds : f.holds = true := by simp [Future.holds, hattached]
        rw [release_replace h hsplit hholds (by simp [Future.holds, hdone])] at hstep
        cases hstep
        refine ⟨_, rfl, next_replace h 1 hsplit rfl (fun hstart => hstart)
          (fun hstart => started_before h hsplit hstart) ?_ ?_ ?_⟩
        · simp [Future.left, hattached]
        · simp [Future.holds, hattached, hdone]
        · simp [Future.isRunning, hdone]
      · cases hstep
        refine ⟨_, rfl, next_replace h 0 hsplit rfl (fun hstart => hstart)
          (fun hstart => started_before h hsplit hstart) ?_ ?_ ?_⟩
        · simp [Future.left, hattached]
        · simp [Future.holds, hdone]
        · exact fun hrunning => .inl hrunning
  | start =>
    simp only [step] at hstep
    split_ifs at hstep with hroom
    obtain ⟨futures, hfutures, rfl⟩ := Option.map_eq_some_iff.mp hstep
    obtain ⟨before, f, after, hsplit, hqueued, hbefore, rfl⟩ := startFirst_split hfutures
    refine ⟨_, rfl, next_replace h 0 hsplit rfl ?_ (fun _ => hbefore) ?_ ?_ (fun _ => .inr hroom)⟩
    · exact fun hstart => absurd hqueued hstart
    · simp [Future.left, hqueued]
    · simp [Future.holds, hqueued]
  | finish i =>
    simp only [step] at hstep
    split at hstep
    · cases hstep
    · rename_i f hf
      obtain ⟨before, after, hsplit, hset⟩ := split_of_getElem? hf
      rw [hset] at hstep
      split_ifs at hstep with hrunning hattached
      all_goals
        have hstarted := started_before h hsplit (by rw [hrunning]; decide)
        have hholds : f.holds = true := by simp [Future.holds, hrunning]
      · rw [release_replace h hsplit hholds (by simp [Future.holds, hattached])] at hstep
        cases hstep
        refine ⟨_, rfl, next_replace h 1 hsplit rfl (fun _ => nofun) (fun _ => hstarted) ?_ ?_ ?_⟩
        · simp [Future.left, hrunning]
        · simp [Future.holds, hrunning, hattached]
        · simp [Future.isRunning]
      · cases hstep
        refine ⟨_, rfl, next_replace h 0 hsplit rfl (fun _ => nofun) (fun _ => hstarted) ?_ ?_ ?_⟩
        · simp [Future.left, hrunning]
        · simp [Future.holds, hattached]
        · simp [Future.isRunning]
  | shutdown =>
    simp only [step] at hstep
    split_ifs at hstep with hdown
    cases hstep
    exact ⟨_, rfl, next_shutdown h (by simpa using hdown)⟩

theorem sound_new (bound maxWorkers : Nat) : (new bound maxWorkers : BoundedExecutor α).Sound where
  accounted := rfl
  workers := Nat.zero_le _
  inOrder := List.Pairwise.nil

theorem Reached.spec {bound maxWorkers : Nat} {e : BoundedExecutor α} (h : Reached bound maxWorkers e) :
    e.Sound ∧ e.bound = bound ∧ e.maxWorkers = maxWorkers := by
  induction h with
  | new => exact ⟨sound_new bound maxWorkers, rfl, rfl⟩
  | step action _ hstep ih =>
    obtain ⟨hsound, hbound, hworkers⟩ := ih
    obtain ⟨e', he', hnext⟩ := step_next hsound hstep
    cases he'
    exact ⟨hnext.sound, hnext.bound.trans hbound, hnext.maxWorkers.trans hworkers⟩

/-- The calls that have not returned, and the threads that are about to hand one over, are never more than the permits;
a thread waits for one only while they all are out; workers take the calls in their order; and no `release` raises. -/
theorem bounded_of_reached {bound maxWorkers : Nat} {e : BoundedExecutor α} (h : Reached bound maxWorkers e) :
    e.futures.countP (fun f => f.status ≠ .done) + e.acquired ≤ bound + maxWorkers ∧
      e.futures.countP Future.isRunning ≤ maxWorkers ∧ e.InOrder ∧
      (e.step .acquire = none ↔ e.futures.countP Future.holds + e.acquired = bound + maxWorkers) ∧
      ∀ action, e.step action ≠ some (.error .valueError) := by
  obtain ⟨hsound, rfl, rfl⟩ := h.spec
  have haccounted := hsound.accounted
  unfold Accounted at haccounted
  have hholds : e.futures.countP (fun f => f.status ≠ .done) ≤ e.futures.countP Future.holds := by
    apply List.countP_mono_left
    intro f _ hf
    have hdone : f.status ≠ .done := by simpa using hf
    simp [Future.holds, hdone]
  refine ⟨by omega, hsound.workers, hsound.inOrder, ?_, ?_⟩
  · simp only [step]
    split_ifs with hfree
    · simp only [true_iff]
      omega
    · simp only [false_iff]
      omega
  · intro action hstep
    obtain ⟨e', he', -⟩ := step_next hsound hstep
    cases he'

theorem bounded_of_full :
    let e : BoundedExecutor Nat :=
      { bound := 0, maxWorkers := 1, permits := 0, futures := [{ call := 5, status := .running, attached := true }] }
    e.futures.countP Future.isRunning ≤ 1 ∧ (e.step .acquire = none ↔ e.futures.countP Future.holds + e.acquired = 0 + 1) := by
  have h : Reached 0 1
      { bound := 0, maxWorkers := 1, permits := 0, futures := [{ call := 5, status := .running, attached := true }] } :=
    .step .start (.step (.addDoneCallback 0) (.step (.submit 5) (.step .acquire .new rfl) rfl) rfl) rfl
  exact ⟨(bounded_of_reached h).2.1, (bounded_of_reached h).2.2.2.1⟩

theorem Sound.drained [Nonempty α] {e : BoundedExecutor α} (h : e.Sound) (hworkers : 0 < e.maxWorkers)
    (hstuck : ∀ action, action.isAcquire = false → e.step action = none) : e.Drained := by
  have hthread : e.acquired = 0 := by
    obtain ⟨call⟩ := (inferInstance : Nonempty α)
    by_contra hthread
    have hsubmit := hstuck (.submit call) rfl
    simp only [step, if_neg hthread] at hsubmit
    split_ifs at hsubmit
  have hattached : ∀ f ∈ e.futures, f.attached = true := by
    intro f hf
    obtain ⟨i, hi⟩ := List.mem_iff_getElem?.mp hf
    by_contra hattached
    have hcallback := hstuck (.addDoneCallback i) rfl
    simp only [step, hi, if_neg hattached] at hcallback
    split_ifs at hcallback
  have hrunning : ∀ f ∈ e.futures, f.status ≠ .running := by
    intro f hf hrunning
    obtain ⟨i, hi⟩ := List.mem_iff_getElem?.mp hf
    have hfinish := hstuck (.finish i) rfl
    simp only [step, hi, if_pos hrunning] at hfinish
    split_ifs at hfinish
  have hidle : e.futures.countP Future.isRunning = 0 := by
    rw [List.countP_eq_zero]
    intro f hf
    simp [Future.isRunning, hrunning f hf]
  have hqueued : ∀ f ∈ e.futures, f.status ≠ .queued := by
    have hstart := hstuck .start rfl
    simp only [step, hidle, if_pos hworkers, Option.map_eq_none_iff] at hstart
    exact startFirst_eq_none.mp hstart
  have hreturned : ∀ f ∈ e.futures, f.status = .done ∧ f.attached := by
    intro f hf
    refine ⟨?_, hattached f hf⟩
    cases hstatus : f.status with
    | queued => exact absurd hstatus (hqueued f hf)
    | running => exact absurd hstatus (hrunning f hf)
    | done => rfl
  refine ⟨hthread, hreturned, ?_⟩
  have haccounted := h.accounted
  have hfree : e.futures.countP Future.holds = 0 := by
    rw [List.countP_eq_zero]
    intro f hf
    simp [Future.holds, hreturned f hf]
  unfold Accounted at haccounted
  omega

theorem Sound.run {actions : List (Action α)} {e e' : BoundedExecutor α} (h : e.Sound)
    (hactions : ∀ action ∈ actions, action.isAcquire = false) (hrun : e.run actions = some e') :
    e'.Sound ∧ e'.bound = e.bound ∧ e'.maxWorkers = e.maxWorkers ∧ actions.length + e'.left ≤ e.left ∧
      (e.futures.map Future.call) <+: (e'.futures.map Future.call) := by
  induction actions generalizing e with
  | nil =>
    cases hrun
    exact ⟨h, rfl, rfl, by simp, List.prefix_rfl⟩
  | cons action actions ih =>
    unfold BoundedExecutor.run at hrun
    split at hrun
    · rename_i next hstep
      obtain ⟨_, he, hnext⟩ := step_next h hstep
      cases he
      obtain ⟨hsound, hbound, hworkers, hleft, hcalls⟩ :=
        ih hnext.sound (fun other hother => hactions other (List.mem_cons_of_mem _ hother)) hrun
      refine ⟨hsound, hbound.trans hnext.bound, hworkers.trans hnext.maxWorkers, ?_, hnext.calls.trans hcalls⟩
      have hless := hnext.left (hactions action List.mem_cons_self)
      rw [List.length_cons]
      omega
    · cases hrun

/-- Once no more threads come, threads and workers have at most `left` steps, whichever they take; and where they have
none, every call that was handed over has been run and all permits are free: nothing waits for a permit that does not
come. -/
theorem drained_of_run [Nonempty α] {bound maxWorkers : Nat} {e e' : BoundedExecutor α} {actions : List (Action α)}
    (h : Reached bound maxWorkers e) (hworkers : 0 < maxWorkers)
    (hactions : ∀ action ∈ actions, action.isAcquire = false) (hrun : e.run actions = some e') :
    actions.length ≤ e.left ∧ (e.futures.map Future.call) <+: (e'.futures.map Future.call) ∧
      ((∀ action, action.isAcquire = false → e'.step action = none) → e'.Drained) := by
  obtain ⟨hsound, rfl, rfl⟩ := h.spec
  obtain ⟨hsound', hbound', hworkers', hleft, hcalls⟩ := hsound.run hactions hrun
  refine ⟨by omega, hcalls, fun hstuck => hsound'.drained ?_ hstuck⟩
  rw [hworkers']
  exact hworkers

theorem drained_of_late_callback :
    ({ bound := 0, maxWorkers := 1, permits := 1, futures := [{ call := 5, status := .done, attached := true }],
       down := true } : BoundedExecutor Nat).Drained := by
  have h : Reached 0 1 ({ bound := 0, maxWorkers := 1, permits := 0, acquired := 1 } : BoundedExecutor Nat) :=
    .step .acquire .new rfl
  have hactions : ∀ action ∈ ([.submit 5, .shutdown, .start, .finish 0, .addDoneCallback 0] : List (Action Nat)),
      action.isAcquire = false := by
    simp [Action.isAcquire]
  refine (drained_of_run h Nat.one_pos hactions rfl).2.2 fun action haction => ?_
  cases action with
  | acquire => cases haction
  | submit call => rfl
  | addDoneCallback i => cases i <;> rfl
  | start => rfl
  | finish i => cases i <;> rfl
  | shutdown => rfl

end BoundedExecutor

end Advisor.Service
