import Advisor.Service.Serial

/-! When uploads and deletes of a host that come in between each other leave what some order of them leaves. -/

namespace Advisor.Service

open Python Procedure Django Relational

variable {settings : Settings} {start s : State} {host : Uuid}

def Stage.knows : Stage → Bool
  | .hostSave _ => true
  | .lock => true
  | _ => false

theorem insertMany?_autoackRules (s : State) (call : UploadCall) :
    (s.acks.insertMany? (s.autoackRules.map call.autoack)).isSome :=
  insertMany?_newAcks { s with uploads := .empty } call

/-- A statement before the lock is refused, or goes through and writes to the acks or the hosts at most. -/
theorem Stage.next_cases {call : UploadCall} {others : List Session} {stage : Stage} (hcall : call.inventoryId = host)
    (horderly : (Session.starting call stage).Orderly start s others) (hnot : stage ≠ .lock)
    (hknows : stage.knows → (s.hosts.get? host).isSome) :
    (call.identified = false ∧ ∃ e, stage.next call s = (.error e, s)) ∨
      ∃ stage' hosts acks, stage.next call s = (.ok stage', { s with hosts, acks }) ∧
        ((s.hosts.get? host).isSome → (hosts.get? host).isSome ∧ acks = s.acks) ∧
        (stage'.knows → (hosts.get? host).isSome) ∧ (call.identified = false → acks = s.acks) ∧
        (({ s with hosts, acks } : State) = s ∨ stage.waits = true ∨ s.hosts.get? host = none) := by
  subst hcall
  cases stage with
  | hostLookup =>
    refine Or.inr ⟨_, s.hosts, s.acks, rfl, fun h => ⟨h, rfl⟩, fun hready => ?_, fun _ => rfl, Or.inl rfl⟩
    cases hfound : s.hosts.get? call.inventoryId with
    | none =>
      simp only [hfound] at hready
      cases hready
    | some found => rfl
  | orgUploads =>
    rcases selecting_cases call (read fun s : State =>
      if s.uploads.rows.any fun upload => upload.orgId = call.orgId && upload.current then Stage.hostUpdate
      else .autoackRules) s with hselects | ⟨hrefused, herror⟩
    · refine Or.inr ⟨_, s.hosts, s.acks, congrFun hselects s, fun h => ⟨h, rfl⟩, fun hready => ?_, fun _ => rfl,
        Or.inl rfl⟩
      dsimp only at hready
      split at hready
      · cases hready
      · cases hready
    · exact Or.inl ⟨hrefused, herror⟩
  | autoackRules =>
    refine Or.inr ⟨_, s.hosts, s.acks, rfl, fun h => ⟨h, rfl⟩, fun hready => ?_, fun _ => rfl, Or.inl rfl⟩
    dsimp only at hready
    split at hready
    · cases hready
    · cases hready
  | ackInsert rules =>
    obtain ⟨hnone, rfl⟩ := horderly
    rcases identifying_cases call (insertAcks (s.autoackRules.map call.autoack)) s with
      ⟨hidentified, hsame⟩ | ⟨hrefused, e, herror⟩
    · obtain ⟨acks, hacks⟩ := Option.isSome_iff_exists.mp (insertMany?_autoackRules s call)
      have hinsert : insertAcks (s.autoackRules.map call.autoack) s = (.ok (), { s with acks }) := by
        rw [insertAcks, hacks]
      refine Or.inr ⟨.hostUpdate, s.hosts, acks, ?_, fun h => ?_, fun hready => ?_, fun hrefused => ?_,
        Or.inr (Or.inr hnone)⟩
      · rw [Stage.next, hsame, bind_of_ok hinsert]
        rfl
      · rw [hnone] at h
        cases h
      · cases hready
      · rw [hidentified] at hrefused
        cases hrefused
    · exact Or.inl ⟨hrefused, e, by rw [Stage.next, bind_of_error herror]⟩
  | hostUpdate =>
    rcases identifying_cases call (updateHostRow (call.updateHost call.newHost)) s with
      ⟨-, hsame⟩ | ⟨hrefused, e, herror⟩
    · refine Or.inr ⟨_, _, s.acks, by rw [Stage.next, hsame]; rfl, fun h => ⟨?_, rfl⟩, fun hready => ?_, fun _ => rfl,
        Or.inr (Or.inl rfl)⟩
      · rw [Table.get?_updateWhere, Option.isSome_map]
        exact h
      · rw [Table.get?_updateWhere, Option.isSome_map]
        split at hready
        · assumption
        · cases hready
    · exact Or.inl ⟨hrefused, e, by rw [Stage.next, bind_of_error herror]⟩
  | hostInsert =>
    have hnone : s.hosts.get? call.inventoryId = none := horderly
    rcases identifying_cases call (insertHostRow (call.updateHost call.newHost)) s with
      ⟨-, hsame⟩ | ⟨hrefused, e, herror⟩
    · obtain ⟨hosts, -, hhost, hinsert⟩ := insertHostRow_new hnone
      refine Or.inr ⟨.lock, hosts, s.acks, ?_, fun _ => ⟨hhost, rfl⟩, fun _ => hhost, fun _ => rfl,
        Or.inr (Or.inr hnone)⟩
      rw [Stage.next, hsame, bind_of_ok hinsert]
      rfl
    · exact Or.inl ⟨hrefused, e, by rw [Stage.next, bind_of_error herror]⟩
  | hostSave saved =>
    have hhost : ((s.hosts.updateWhere (fun row => row.inventoryId = (call.updateHost saved).inventoryId)
        (overwriteHost (call.updateHost saved))).get? call.inventoryId).isSome := by
      rw [Table.get?_updateWhere, Option.isSome_map]
      exact hknows rfl
    exact Or.inr ⟨.lock, _, s.acks, rfl, fun _ => ⟨hhost, rfl⟩, fun _ => hhost, fun _ => rfl, Or.inr (Or.inl rfl)⟩
  | lock => exact absurd rfl hnot

inductive Move (settings : Settings) (host : Uuid) (start s : State) (others : List Session) :
    Session → Session → State → Prop
  | early {call : UploadCall} {session : Session} {stage : Stage} {hosts : Table Host.inventoryId}
      {acks : Table Ack.key} (before : session = .waiting (.upload call) ∨ ∃ stage, session = .starting call stage)
      (known : (s.hosts.get? host).isSome → (hosts.get? host).isSome ∧ acks = s.acks)
      (knows : stage.knows → (hosts.get? host).isSome) (same : call.identified = false → acks = s.acks) :
      Move settings host start s others session (.starting call stage) { s with hosts, acks }
  | refused {call : UploadCall} {session : Session}
      (before : session = .waiting (.upload call) ∨ ∃ stage, session = .starting call stage)
      (refused : call.identified = false) :
      Move settings host start s others session (.returned (.upload call) false) s
  | lock {call : UploadCall} (free : ∀ other ∈ others, other.locks host = false)
      (still : ∀ other ∈ others, other.midway = false)
      (acks : (start.hosts.get? host).isSome ∨ (∃ other ∈ others, other.uploaded = true) ∨
        s.acks.rows = start.acks.rows ++ start.newAcks call) :
      Move settings host start s others (.starting call .lock) (.locked call (underLock settings call) s) s
  | statement {call : UploadCall} {write : State → State} {next : State → Block Exception State Bool} {own : State} :
      Move settings host start s others (.locked call (.statement write next) own)
        (.locked call (next own) (write own)) s
  | finish {call : UploadCall} {result : Except Exception Bool} {own : State} :
      Move settings host start s others (.locked call (.done result) own) (Session.finish s call result own).1
        (Session.finish s call result own).2
  | first {f : HostFilter} (free : ∀ other ∈ others, other.locks host = false) :
      Move settings host start s others (.waiting (.delete f)) (.deleting f [.reports, .hostAcks]) (f.remove s .uploads)
  | remove {f : HostFilter} {deletion : Deletion} {left : List Deletion}
      (free : ∀ other ∈ others, other.locks host = false) :
      Move settings host start s others (.deleting f (deletion :: left)) (.deleting f left) (f.remove s deletion)
  | deleted {f : HostFilter} :
      Move settings host start s others (.deleting f []) (.returned (.delete f) true) s

variable {others : List Session} {session session' : Session} {s' : State}

theorem not_locks_of_not_isLocked (host : Uuid) (h : session.isLocked = false) : session.locks host = false := by
  cases session with
  | locked call rest own => cases h
  | _ => rfl

theorem Session.remove_eq_some {f : HostFilter} {deletion : Deletion} {left : List Deletion}
    (h : Session.remove s others f deletion left = some (session', s')) :
    session' = .deleting f left ∧ s' = f.remove s deletion := by
  unfold Session.remove at h
  split_ifs at h
  cases h
  exact ⟨rfl, rfl⟩

theorem Move.of_start {call : UploadCall} {stage : Stage} (hcall : call.inventoryId = host)
    (hbefore : session = .waiting (.upload call) ∧ stage = .hostLookup ∨ session = .starting call stage)
    (horderly : (Session.starting call stage).Orderly start s others)
    (hknows : stage.knows → (s.hosts.get? host).isSome)
    (hheld : (∃ other ∈ others, other.locks host = true) → (s.hosts.get? host).isSome)
    (h : Session.start settings s others call stage = some (session', s')) :
    Move settings host start s others session session' s' ∧
      (s' = s ∨ ∀ other ∈ others, other.locks host = false) := by
  subst hcall
  unfold Session.start at h
  split_ifs at h with hwaits
  rw [Bool.and_eq_true, not_and, List.any_eq_true] at hwaits
  by_cases hlock : stage = .lock
  · subst hlock
    obtain ⟨hstill, hacks⟩ := horderly
    rcases hbefore with ⟨-, hstage⟩ | rfl
    · cases hstage
    have hpresent : lockHost call s = (.ok (), s) := if_pos (hknows rfl)
    simp only [hpresent, Option.some.injEq, Prod.mk.injEq] at h
    obtain ⟨rfl, rfl⟩ := h
    refine ⟨.lock (fun other hother => ?_) hstill hacks, Or.inl rfl⟩
    by_contra hlocks
    exact hwaits rfl ⟨other, hother, by simpa using hlocks⟩
  · rcases Stage.next_cases rfl horderly hlock hknows with
      ⟨hrefused, e, hnext⟩ | ⟨stage', hosts, acks, hnext, hknown, hready, hsame, hwrites⟩
    · have hmove : session' = .returned (.upload call) false ∧ s' = s := by
        cases stage with
        | lock => exact absurd rfl hlock
        | _ =>
          simp only [hnext, Option.some.injEq, Prod.mk.injEq] at h
          exact ⟨h.1.symm, h.2.symm⟩
      obtain ⟨rfl, rfl⟩ := hmove
      exact ⟨.refused (hbefore.imp And.left fun h => ⟨stage, h⟩) hrefused, Or.inl rfl⟩
    · have hmove : session' = .starting call stage' ∧ s' = { s with hosts, acks } := by
        cases stage with
        | lock => exact absurd rfl hlock
        | _ =>
          simp only [hnext, Option.some.injEq, Prod.mk.injEq] at h
          exact ⟨h.1.symm, h.2.symm⟩
      obtain ⟨rfl, rfl⟩ := hmove
      refine ⟨.early (hbefore.imp And.left fun h => ⟨stage, h⟩) hknown hready hsame, ?_⟩
      refine hwrites.imp_right fun hwrites other hother => ?_
      by_contra hlocks
      rcases hwrites with hstage | hnone
      · exact hwaits hstage ⟨other, hother, by simpa using hlocks⟩
      · have hpresent := hheld ⟨other, hother, by simpa using hlocks⟩
        rw [hnone] at hpresent
        cases hpresent

theorem Move.of_next (hon : session.call.On host) (horderly : session.Orderly start s others)
    (hknows : ∀ call stage, session = .starting call stage → stage.knows → (s.hosts.get? host).isSome)
    (hheld : (∃ other ∈ others, other.locks host = true) → (s.hosts.get? host).isSome)
    (halone : session.locks host = true → ∀ other ∈ others, other.locks host = false)
    (h : session.next settings s others = some (session', s')) :
    Move settings host start s others session session' s' ∧
      (s' = s ∨ ∀ other ∈ others, other.locks host = false) := by
  cases session with
  | waiting call =>
    cases call with
    | upload call =>
      exact Move.of_start hon (Or.inl ⟨rfl, rfl⟩) trivial (fun hnever => nomatch hnever) hheld h
    | delete f =>
      obtain ⟨rfl, rfl⟩ := Session.remove_eq_some h
      have hfree := fun other hother => not_locks_of_not_isLocked host (horderly other hother)
      exact ⟨.first hfree, Or.inr hfree⟩
  | starting call stage => exact Move.of_start hon (Or.inr rfl) horderly (hknows call stage rfl) hheld h
  | locked call rest own =>
    cases rest with
    | statement write next =>
      cases h
      exact ⟨.statement, Or.inl rfl⟩
    | done result =>
      cases h
      exact ⟨.finish, Or.inr (halone (decide_eq_true hon))⟩
  | deleting f left =>
    cases left with
    | nil =>
      cases h
      exact ⟨.deleted, Or.inl rfl⟩
    | cons deletion left =>
      obtain ⟨rfl, rfl⟩ := Session.remove_eq_some h
      have hfree := fun other hother => not_locks_of_not_isLocked host (horderly other hother)
      exact ⟨.remove hfree, Or.inr hfree⟩
  | returned call success => cases h

namespace Session

def pending : Session → List (HostFilter × Deletion)
  | .deleting f left => left.map fun deletion => (f, deletion)
  | _ => []

/-- The call, once it stands in the order: a delete from its first statement, an upload from its last. -/
def entry : Session → Option (Call × Bool)
  | .deleting f _ => some (.delete f, true)
  | .returned call success => some (call, success)
  | _ => none

def busy : Session → Bool
  | .starting call _ => call.identified
  | .locked call _ _ => call.identified
  | _ => false

end Session

def removeAll (s : State) (pending : List (HostFilter × Deletion)) : State :=
  pending.foldl (fun s removal => removal.1.remove s removal.2) s

theorem removeAll_perm {pending pending' : List (HostFilter × Deletion)} (h : pending.Perm pending') (s : State) :
    removeAll s pending = removeAll s pending' := by
  have hcomm : RightCommutative fun (s : State) (removal : HostFilter × Deletion) => removal.1.remove s removal.2 :=
    ⟨fun s a b => HostFilter.remove_comm b.1 a.1 s b.2 a.2⟩
  exact h.foldl_eq s

theorem removeAll_aside (s : State) (hosts : Table Host.inventoryId) (acks : Table Ack.key)
    (pending : List (HostFilter × Deletion)) :
    removeAll { s with hosts, acks } pending = { removeAll s pending with hosts, acks } := by
  induction pending generalizing s with
  | nil => rfl
  | cons removal rest ih =>
    show removeAll (removal.1.remove { s with hosts, acks } removal.2) rest = _
    rw [HostFilter.remove_aside]
    exact ih _

theorem removeAll_append (s : State) (pending pending' : List (HostFilter × Deletion)) :
    removeAll s (pending ++ pending') = removeAll (removeAll s pending) pending' := List.foldl_append

def served (settings : Settings) (start : State) (order : List (Call × Bool)) : State :=
  (serveAll settings (order.map Prod.fst) start).2

theorem served_append (order : List (Call × Bool)) (call : Call) (success : Bool) :
    served settings start (order ++ [(call, success)]) = (call.serve settings (served settings start order)).2 := by
  rw [served, List.map_append, List.map_singleton, serveAll_append]
  rfl

/-- The tables are those of the order, once what has been begun to be removed is removed. -/
structure Inv (settings : Settings) (host : Uuid) (start s : State) (sessions : List Session)
    (order : List (Call × Bool)) : Prop where
  on : ∀ session ∈ sessions, session.call.On host
  counted : order.Perm (sessions.filterMap Session.entry)
  results : (serveAll settings (order.map Prod.fst) start).1 = order.map Prod.snd
  agrees : removeAll s (sessions.flatMap Session.pending) =
    { served settings start order with hosts := s.hosts, acks := s.acks }
  known : ((served settings start order).hosts.get? host).isSome →
    (s.hosts.get? host).isSome ∧ s.acks = (served settings start order).acks
  knows : ∀ call stage, .starting call stage ∈ sessions → stage.knows → (s.hosts.get? host).isSome
  alone : sessions.countP (Session.locks host) ≤ 1
  held : ∀ call rest own, .locked call rest own ∈ sessions →
    rest.run own = (underLock settings call).run s ∧ (s.hosts.get? host).isSome ∧
      sessions.flatMap Session.pending = [] ∧
      ((served settings start order).hosts.get? host = none → s.acks.rows = start.acks.rows ++ start.newAcks call)
  fresh : (served settings start order).hosts.get? host = none →
    s.acks = start.acks ∨ ∃ session ∈ sessions, session.busy = true

section Split

variable {l r : List Session}

theorem mem_split {other : Session} : other ∈ l ++ session :: r ↔ other = session ∨ other ∈ l ++ r := by
  simp only [List.mem_append, List.mem_cons]
  tauto

theorem on_split (h : ∀ other ∈ l ++ session :: r, other.call.On host) (hcall : session'.call = session.call) :
    ∀ other ∈ l ++ session' :: r, other.call.On host := by
  intro other hother
  rcases mem_split.mp hother with rfl | hother
  · rw [hcall]
    exact h session (mem_split.mpr (Or.inl rfl))
  · exact h other (mem_split.mpr (Or.inr hother))

theorem starting_split {P : Prop} (h : ∀ call stage, .starting call stage ∈ l ++ session :: r → stage.knows → P)
    (hnew : ∀ call stage, session' ≠ .starting call stage) :
    ∀ call stage, .starting call stage ∈ l ++ session' :: r → stage.knows → P := by
  intro call stage hother hknows
  rcases mem_split.mp hother with heq | hother
  · exact absurd heq.symm (hnew call stage)
  · exact h call stage (mem_split.mpr (Or.inr hother)) hknows

theorem not_locked_of_free {call : UploadCall} {rest : Block Exception State Bool} {own : State}
    (hon : ∀ other ∈ l ++ session :: r, other.call.On host) (hfree : ∀ other ∈ l ++ r, other.locks host = false) :
    .locked call rest own ∉ l ++ r := by
  intro hother
  have hlocks := hfree _ hother
  rw [Session.locks, decide_eq_false_iff_not] at hlocks
  exact hlocks (hon _ (mem_split.mpr (Or.inr hother)))

theorem entries_split (h : session.entry = session'.entry) :
    (l ++ session :: r).filterMap Session.entry = (l ++ session' :: r).filterMap Session.entry := by
  simp only [List.filterMap_append, List.filterMap_cons, h]

theorem pending_split (h : session.pending = session'.pending) :
    (l ++ session :: r).flatMap Session.pending = (l ++ session' :: r).flatMap Session.pending := by
  simp only [List.flatMap_append, List.flatMap_cons, h]

theorem counted_split {order : List (Call × Bool)} {entry : Call × Bool}
    (h : order.Perm ((l ++ session :: r).filterMap Session.entry)) (hnone : session.entry = none)
    (hsome : session'.entry = some entry) :
    (order ++ [entry]).Perm ((l ++ session' :: r).filterMap Session.entry) := by
  simp only [List.filterMap_append, List.filterMap_cons, hnone] at h
  simp only [List.filterMap_append, List.filterMap_cons, hsome]
  refine (h.append_right [entry]).trans ?_
  exact (List.perm_append_singleton entry _).trans List.perm_middle.symm

theorem busy_split (hkept : session.busy = true → session'.busy = true)
    (h : ∃ other ∈ l ++ session :: r, other.busy = true) : ∃ other ∈ l ++ session' :: r, other.busy = true := by
  obtain ⟨other, hother, hbusy⟩ := h
  rcases mem_split.mp hother with rfl | hother
  · exact ⟨session', mem_split.mpr (Or.inl rfl), hkept hbusy⟩
  · exact ⟨other, mem_split.mpr (Or.inr hother), hbusy⟩

theorem locks_split (session : Session) :
    (l ++ session :: r).countP (Session.locks host) =
      (l ++ r).countP (Session.locks host) + if session.locks host then 1 else 0 := by
  rw [List.countP_append, List.countP_cons, List.countP_append]
  omega

theorem not_locks_of_alone (h : (l ++ session :: r).countP (Session.locks host) ≤ 1)
    (hlocks : session.locks host = true) : ∀ other ∈ l ++ r, other.locks host = false := by
  rw [locks_split, if_pos hlocks] at h
  have hnone : (l ++ r).countP (Session.locks host) = 0 := by omega
  intro other hother
  simpa using List.countP_eq_zero.mp hnone other hother

theorem countP_eq_zero_of_free (h : ∀ other ∈ l ++ r, other.locks host = false) :
    (l ++ r).countP (Session.locks host) = 0 := by
  rw [List.countP_eq_zero]
  intro other hother
  simp [h other hother]

end Split

section Steps

variable {l r : List Session} {order : List (Call × Bool)}

theorem Inv.on_order {sessions : List Session} (hinv : Inv settings host start s sessions order) :
    ∀ call ∈ order.map Prod.fst, call.On host := by
  intro call hcall
  obtain ⟨entry, hentry, rfl⟩ := List.mem_map.mp hcall
  obtain ⟨session, hsession, hcounted⟩ := List.mem_filterMap.mp (hinv.counted.subset hentry)
  have hon := hinv.on session hsession
  cases session <;> cases hcounted <;> exact hon

theorem Inv.absent {sessions : List Session} (hinv : Inv settings host start s sessions order)
    (hs : start.database.Referential) (habsent : (served settings start order).hosts.get? host = none) :
    served settings start order = start ∧ ∀ session ∈ sessions, session.uploaded = false := by
  obtain ⟨hsame, hrefused⟩ := serveAll_absent hs hinv.on_order habsent
  refine ⟨hsame, fun session hsession => ?_⟩
  cases session with
  | returned call success =>
    cases call with
    | upload call =>
      have hentry : (Call.upload call, success) ∈ order :=
        hinv.counted.symm.subset (List.mem_filterMap.mpr ⟨_, hsession, rfl⟩)
      exact hrefused call (List.mem_map.mpr ⟨_, hentry, rfl⟩)
    | delete f => rfl
  | _ => rfl

theorem Inv.early {call : UploadCall} {stage : Stage} {hosts : Table Host.inventoryId} {acks : Table Ack.key}
    (hinv : Inv settings host start s (l ++ session :: r) order)
    (hbefore : session = .waiting (.upload call) ∨ ∃ stage, session = .starting call stage)
    (hknown : (s.hosts.get? host).isSome → (hosts.get? host).isSome ∧ acks = s.acks)
    (hknows : stage.knows → (hosts.get? host).isSome) (hsame : call.identified = false → acks = s.acks)
    (hapart : ({ s with hosts, acks } : State) = s ∨ ∀ other ∈ l ++ r, other.locks host = false) :
    Inv settings host start { s with hosts, acks } (l ++ .starting call stage :: r) order := by
  have hentry : session.entry = (Session.starting call stage).entry := by
    rcases hbefore with rfl | ⟨before, rfl⟩ <;> rfl
  have hpending : session.pending = (Session.starting call stage).pending := by
    rcases hbefore with rfl | ⟨before, rfl⟩ <;> rfl
  have hcall : (Session.starting call stage).call = session.call := by
    rcases hbefore with rfl | ⟨before, rfl⟩ <;> rfl
  have hunlocked : session.locks host = false := by
    rcases hbefore with rfl | ⟨before, rfl⟩ <;> rfl
  constructor
  · exact on_split hinv.on hcall
  · rw [← entries_split hentry]
    exact hinv.counted
  · exact hinv.results
  · rw [← pending_split hpending, removeAll_aside, hinv.agrees]
  · intro hserved
    obtain ⟨hhost, hacks⟩ := hinv.known hserved
    obtain ⟨hhost', hacks'⟩ := hknown hhost
    exact ⟨hhost', hacks'.trans hacks⟩
  · intro other before hother hbefore
    rcases mem_split.mp hother with heq | hother
    · cases heq
      exact hknows hbefore
    · exact (hknown (hinv.knows other before (mem_split.mpr (Or.inr hother)) hbefore)).1
  · have halone := hinv.alone
    rw [locks_split] at halone ⊢
    show _ + 0 ≤ 1
    omega
  · intro other rest own hother
    rcases mem_split.mp hother with heq | hother
    · cases heq
    · rw [← pending_split hpending]
      rcases hapart with hsame | hfree
      · rw [hsame]
        exact hinv.held other rest own (mem_split.mpr (Or.inr hother))
      · exact absurd hother (not_locked_of_free hinv.on hfree)
  · intro habsent
    cases hidentified : call.identified with
    | true => exact Or.inr ⟨_, mem_split.mpr (Or.inl rfl), hidentified⟩
    | false =>
      have hidle : session.busy = true → (Session.starting call stage).busy = true := by
        rcases hbefore with rfl | ⟨before, rfl⟩
        · exact fun hnever => nomatch hnever
        · exact fun hbusy => hbusy
      exact (hinv.fresh habsent).imp (fun hacks => (hsame hidentified).trans hacks) (busy_split hidle)

theorem Inv.refuse {call : UploadCall} (hinv : Inv settings host start s (l ++ session :: r) order)
    (hcall : session.call = .upload call) (hentry : session.entry = none) (hpending : session.pending = [])
    (hidle : session.busy = false) (hrefused : call.identified = false) :
    Inv settings host start s (l ++ .returned (.upload call) false :: r) (order ++ [(.upload call, false)]) := by
  have hserved : served settings start (order ++ [(.upload call, false)]) =
      (served settings start order).over ((served settings start order).withHost call).hosts := by
    rw [served_append, serve_refused hrefused]
    exact withHost_over_refused hrefused _
  have hhosts : ((served settings start (order ++ [(.upload call, false)])).hosts.get? host).isSome =
      ((served settings start order).hosts.get? host).isSome := by
    rw [hserved]
    exact withHost_hosts_refused hrefused _ host
  have hacks : (served settings start (order ++ [(.upload call, false)])).acks = (served settings start order).acks := by
    rw [hserved]
    rfl
  have habsent : (served settings start (order ++ [(.upload call, false)])).hosts.get? host = none →
      (served settings start order).hosts.get? host = none := by
    intro hnone
    rw [hnone] at hhosts
    exact Option.not_isSome_iff_eq_none.mp (by rw [← hhosts]; exact Bool.false_ne_true)
  have hpending' : session.pending = (Session.returned (.upload call) false).pending := hpending
  constructor
  · exact on_split hinv.on hcall.symm
  · exact counted_split hinv.counted hentry rfl
  · rw [List.map_append, List.map_append, List.map_singleton, List.map_singleton, serveAll_append, hinv.results]
    show _ ++ [(Call.serve settings (.upload call) (served settings start order)).1] = _
    rw [serve_refused hrefused]
  · rw [← pending_split hpending', hinv.agrees, hserved]
    rfl
  · rw [hhosts, hacks]
    exact hinv.known
  · exact starting_split hinv.knows (by simp)
  · have halone := hinv.alone
    rw [locks_split] at halone ⊢
    show _ + 0 ≤ 1
    omega
  · intro other rest own hother
    rcases mem_split.mp hother with heq | hother
    · cases heq
    · obtain ⟨hrun, hhost, hnil, hfirst⟩ := hinv.held other rest own (mem_split.mpr (Or.inr hother))
      rw [← pending_split hpending']
      exact ⟨hrun, hhost, hnil, fun hnone => hfirst (habsent hnone)⟩
  · exact fun hnone => (hinv.fresh (habsent hnone)).imp_right (busy_split fun hbusy => by
      rw [hidle] at hbusy
      cases hbusy)

theorem Inv.lock {call : UploadCall} (hs : start.database.Referential)
    (hinv : Inv settings host start s (l ++ .starting call .lock :: r) order)
    (hfree : ∀ other ∈ l ++ r, other.locks host = false) (hstill : ∀ other ∈ l ++ r, other.midway = false)
    (hacks : (start.hosts.get? host).isSome ∨ (∃ other ∈ l ++ r, other.uploaded = true) ∨
      s.acks.rows = start.acks.rows ++ start.newAcks call) :
    Inv settings host start s (l ++ .locked call (underLock settings call) s :: r) order := by
  have hentry : (Session.starting call .lock).entry = (Session.locked call (underLock settings call) s).entry := rfl
  have hpending : (Session.starting call .lock).pending =
    (Session.locked call (underLock settings call) s).pending := rfl
  have hbusy : (Session.starting call .lock).busy = true → (Session.locked call (underLock settings call) s).busy = true :=
    fun h => h
  constructor
  · exact on_split hinv.on rfl
  · rw [← entries_split hentry]
    exact hinv.counted
  · exact hinv.results
  · rw [← pending_split hpending]
    exact hinv.agrees
  · exact hinv.known
  · exact starting_split hinv.knows (by simp)
  · rw [locks_split, countP_eq_zero_of_free hfree]
    split_ifs <;> omega
  · intro other rest own hother
    rcases mem_split.mp hother with heq | hother
    · obtain ⟨rfl, rfl, rfl⟩ : other = call ∧ rest = underLock settings call ∧ own = s := by
        simpa using heq
      refine ⟨rfl, hinv.knows other .lock (mem_split.mpr (Or.inl rfl)) rfl, ?_, ?_⟩
      · rw [List.flatMap_eq_nil_iff]
        intro session hsession
        rcases mem_split.mp hsession with rfl | hsession
        · rfl
        · have hnot := hstill session hsession
          cases session with
          | deleting f left =>
            cases left with
            | nil => rfl
            | cons deletion left => cases hnot
          | _ => rfl
      · intro habsent
        obtain ⟨hsame, hnone⟩ := hinv.absent hs habsent
        rcases hacks with hhost | ⟨session, hsession, huploaded⟩ | hrows
        · rw [hsame] at habsent
          rw [habsent] at hhost
          cases hhost
        · rw [hnone session (mem_split.mpr (Or.inr hsession))] at huploaded
          cases huploaded
        · exact hrows
    · exact absurd hother (not_locked_of_free hinv.on hfree)
  · exact fun habsent => (hinv.fresh habsent).imp_right (busy_split hbusy)

theorem Inv.statement {call : UploadCall} {write : State → State} {next : State → Block Exception State Bool}
    {own : State} (hinv : Inv settings host start s (l ++ .locked call (.statement write next) own :: r) order) :
    Inv settings host start s (l ++ .locked call (next own) (write own) :: r) order := by
  have hentry : (Session.locked call (.statement write next) own).entry =
    (Session.locked call (next own) (write own)).entry := rfl
  have hpending : (Session.locked call (.statement write next) own).pending =
    (Session.locked call (next own) (write own)).pending := rfl
  have hbusy : (Session.locked call (.statement write next) own).busy = true →
    (Session.locked call (next own) (write own)).busy = true := fun h => h
  constructor
  · exact on_split hinv.on rfl
  · rw [← entries_split hentry]
    exact hinv.counted
  · exact hinv.results
  · rw [← pending_split hpending]
    exact hinv.agrees
  · exact hinv.known
  · exact starting_split hinv.knows (by simp)
  · have halone := hinv.alone
    rw [locks_split] at halone ⊢
    exact halone
  · intro other rest own' hother
    rw [← pending_split hpending]
    rcases mem_split.mp hother with heq | hother
    · obtain ⟨rfl, rfl, rfl⟩ : other = call ∧ rest = next own ∧ own' = write own := by
        simpa using heq
      exact hinv.held other _ own (mem_split.mpr (Or.inl rfl))
    · exact hinv.held other rest own' (mem_split.mpr (Or.inr hother))
  · exact fun habsent => (hinv.fresh habsent).imp_right (busy_split hbusy)

/-- The state an upload starts its transaction from is the one it has when its turn comes in the order. -/
theorem Inv.withHost {call : UploadCall} {rest : Block Exception State Bool} {own : State}
    (hinv : Inv settings host start s (l ++ .locked call rest own :: r) order) (hs : start.database.Referential)
    (hidentified : call.identified = true) :
    (served settings start order).withHost call = s.over ((served settings start order).withHost call).hosts := by
  obtain ⟨-, hhost, hpending, hacks⟩ := hinv.held call rest own (mem_split.mpr (Or.inl rfl))
  have hon : call.inventoryId = host := hinv.on _ (mem_split.mpr (Or.inl rfl))
  have hagrees := hinv.agrees
  rw [hpending] at hagrees
  change s = _ at hagrees
  have hacks' : s.acks = ((served settings start order).withHost call).acks := by
    cases hfound : (served settings start order).hosts.get? host with
    | some found =>
      rw [(hinv.known (by rw [hfound]; rfl)).2, State.withHost, hon, hfound]
      dsimp only
      split_ifs <;> rfl
    | none =>
      have hrows := hacks hfound
      obtain ⟨hsame, -⟩ := hinv.absent hs hfound
      rw [hsame, ← hon] at hfound
      obtain ⟨acks, hinserted⟩ := Option.isSome_iff_exists.mp (insertMany?_newAcks start call)
      have hafter : (start.withHost call).acks = acks := by
        rw [State.withHost, hfound]
        dsimp only
        rw [if_pos hidentified]
        cases start.hosts.insert? (call.updateHost call.newHost) <;> simp only [State.withAcks, hinserted]
      rw [hsame, hafter]
      exact Table.eq_of_rows (hrows.trans (Table.rows_insertMany? hinserted).symm)
  rw [withHost_frame, ← hacks', hagrees]
  rfl

theorem Inv.finish {call : UploadCall} {result : Except Exception Bool} {own : State}
    (hinv : Inv settings host start s (l ++ .locked call (.done result) own :: r) order)
    (hs : start.database.Referential) :
    ∃ order', Inv settings host start (Session.finish s call result own).2
      (l ++ (Session.finish s call result own).1 :: r) order' := by
  obtain ⟨hrun, hhost, hpending, -⟩ := hinv.held call (.done result) own (mem_split.mpr (Or.inl rfl))
  have hon : call.inventoryId = host := hinv.on _ (mem_split.mpr (Or.inl rfl))
  cases hidentified : call.identified with
  | false =>
    obtain ⟨e, herror⟩ := underLock_refused settings call hidentified s
    obtain ⟨rfl, rfl⟩ : result = .error e ∧ own = s := Prod.mk.inj (hrun.trans herror)
    exact ⟨_, hinv.refuse rfl rfl rfl hidentified hidentified⟩
  | true => ?_
  have hwith := hinv.withHost hs hidentified
  generalize hhosts : ((served settings start order).withHost call).hosts = hosts at hwith
  have hpresent : (hosts.get? host).isSome := by
    rw [← hhosts, ← hon]
    exact withHost_host _ call fun _ => hidentified
  -- the transaction does the same in the order as here, over other hosts
  have hserve : Call.serve settings (.upload call) (served settings start order) =
      ((transaction noFaults (fun _ => (result, own)) s).1.isOk,
        (transaction noFaults (fun _ => (result, own)) s).2.over hosts) := by
    have hover : (underLock settings call).run (s.over hosts) = (result, own.over hosts) := by
      rw [natural_underLock, ← hrun]
      rfl
    have htransaction : transaction noFaults (underLock settings call).run (s.over hosts) =
        transaction noFaults (fun _ => (result, own.over hosts)) (s.over hosts) := by
      rw [transaction, hover]
      rfl
    rw [serve_upload, hwith, htransaction, transaction_over]
  have hkept : (transaction noFaults (fun _ => (result, own)) s).2.hosts = s.hosts := by
    have hsame := transaction_hosts settings call s
    rwa [transaction, ← hrun] at hsame
  unfold Session.finish
  dsimp only
  generalize hok : (transaction noFaults (fun _ => (result, own)) s).1.isOk = success at hserve
  generalize (transaction noFaults (fun _ => (result, own)) s).2 = s' at hserve hkept
  have hfree := not_locks_of_alone hinv.alone (decide_eq_true hon)
  have hserved : served settings start (order ++ [(.upload call, success)]) = s'.over hosts := by
    rw [served_append, hserve]
  refine ⟨order ++ [(.upload call, success)], ?_⟩
  constructor
  · exact on_split hinv.on rfl
  · exact counted_split hinv.counted rfl rfl
  · rw [List.map_append, List.map_append, List.map_singleton, List.map_singleton, serveAll_append, hinv.results]
    show _ ++ [(Call.serve settings (.upload call) (served settings start order)).1] = _
    rw [hserve]
  · have hnil : (l ++ Session.returned (.upload call) success :: r).flatMap Session.pending = [] := by
      have hsame : (Session.locked call (.done result) own).pending =
        (Session.returned (.upload call) success).pending := rfl
      rw [← pending_split hsame]
      exact hpending
    rw [hnil, hserved]
    rfl
  · intro _
    rw [hserved, hkept]
    exact ⟨hhost, rfl⟩
  · intro other before _ _
    rw [hkept]
    exact hhost
  · rw [locks_split, countP_eq_zero_of_free hfree]
    exact Nat.zero_le 1
  · intro other rest own' hother
    rcases mem_split.mp hother with heq | hother
    · cases heq
    · exact absurd hother (not_locked_of_free hinv.on hfree)
  · intro habsent
    rw [hserved] at habsent
    rw [show (s'.over hosts).hosts.get? host = hosts.get? host from rfl] at habsent
    rw [habsent] at hpresent
    cases hpresent

theorem Inv.first {f : HostFilter} (hinv : Inv settings host start s (l ++ .waiting (.delete f) :: r) order)
    (hfree : ∀ other ∈ l ++ r, other.locks host = false) :
    Inv settings host start (f.remove s .uploads) (l ++ .deleting f [.reports, .hostAcks] :: r)
      (order ++ [(.delete f, true)]) := by
  have hserved : served settings start (order ++ [(.delete f, true)]) =
      removeAll (served settings start order) [(f, .uploads), (f, .reports), (f, .hostAcks)] := by
    rw [served_append]
    rfl
  have hserved' : (served settings start (order ++ [(.delete f, true)])).hosts = (served settings start order).hosts :=
    by rw [hserved]; rfl
  have hacks : (served settings start (order ++ [(.delete f, true)])).acks = (served settings start order).acks := by
    rw [hserved]
    rfl
  constructor
  · exact on_split hinv.on rfl
  · exact counted_split hinv.counted rfl rfl
  · rw [List.map_append, List.map_append, List.map_singleton, List.map_singleton, serveAll_append, hinv.results]
    rfl
  · have hperm : ((f, Deletion.uploads) :: (l ++ .deleting f [.reports, .hostAcks] :: r).flatMap Session.pending).Perm
        ((l ++ .waiting (.delete f) :: r).flatMap Session.pending ++
          [(f, .uploads), (f, .reports), (f, .hostAcks)]) := by
      simp only [List.flatMap_append, List.flatMap_cons, List.append_assoc]
      refine List.perm_middle.symm.trans (List.Perm.append_left _ ?_)
      have hcomm : ([(f, Deletion.uploads), (f, .reports), (f, .hostAcks)] ++ r.flatMap Session.pending).Perm
          (r.flatMap Session.pending ++ [(f, .uploads), (f, .reports), (f, .hostAcks)]) := List.perm_append_comm
      exact hcomm
    have hsettled : removeAll (f.remove s .uploads)
        ((l ++ .deleting f [.reports, .hostAcks] :: r).flatMap Session.pending) =
          removeAll s ((f, .uploads) :: (l ++ .deleting f [.reports, .hostAcks] :: r).flatMap Session.pending) := rfl
    rw [hsettled, removeAll_perm hperm, removeAll_append, hinv.agrees, removeAll_aside, hserved]
    rfl
  · rw [hserved', hacks]
    exact hinv.known
  · exact starting_split hinv.knows (by simp)
  · rw [locks_split, countP_eq_zero_of_free hfree]
    exact Nat.zero_le 1
  · intro other rest own hother
    rcases mem_split.mp hother with heq | hother
    · cases heq
    · exact absurd hother (not_locked_of_free hinv.on hfree)
  · rw [hserved']
    intro habsent
    exact (hinv.fresh habsent).imp_right (busy_split fun hnever => by cases hnever)

theorem Inv.remove {f : HostFilter} {deletion : Deletion} {left : List Deletion}
    (hinv : Inv settings host start s (l ++ .deleting f (deletion :: left) :: r) order)
    (hfree : ∀ other ∈ l ++ r, other.locks host = false) :
    Inv settings host start (f.remove s deletion) (l ++ .deleting f left :: r) order := by
  have hentry : (Session.deleting f (deletion :: left)).entry = (Session.deleting f left).entry := rfl
  constructor
  · exact on_split hinv.on rfl
  · rw [← entries_split hentry]
    exact hinv.counted
  · exact hinv.results
  · have hperm : ((f, deletion) :: (l ++ .deleting f left :: r).flatMap Session.pending).Perm
        ((l ++ .deleting f (deletion :: left) :: r).flatMap Session.pending) := by
      simp only [List.flatMap_append, List.flatMap_cons]
      exact List.perm_middle.symm
    have hsettled : removeAll (f.remove s deletion) ((l ++ .deleting f left :: r).flatMap Session.pending) =
        removeAll s ((f, deletion) :: (l ++ .deleting f left :: r).flatMap Session.pending) := rfl
    rw [hsettled, removeAll_perm hperm, hinv.agrees, HostFilter.remove_hosts, HostFilter.remove_acks]
  · rw [HostFilter.remove_hosts, HostFilter.remove_acks]
    exact hinv.known
  · rw [HostFilter.remove_hosts]
    exact starting_split hinv.knows (by simp)
  · rw [locks_split, countP_eq_zero_of_free hfree]
    exact Nat.zero_le 1
  · intro other rest own hother
    rcases mem_split.mp hother with heq | hother
    · cases heq
    · exact absurd hother (not_locked_of_free hinv.on hfree)
  · rw [HostFilter.remove_acks]
    intro habsent
    exact (hinv.fresh habsent).imp_right (busy_split fun hnever => by cases hnever)

theorem Inv.deleted {f : HostFilter} (hinv : Inv settings host start s (l ++ .deleting f [] :: r) order) :
    Inv settings host start s (l ++ .returned (.delete f) true :: r) order := by
  have hentry : (Session.deleting f []).entry = (Session.returned (.delete f) true).entry := rfl
  have hpending : (Session.deleting f []).pending = (Session.returned (.delete f) true).pending := rfl
  constructor
  · exact on_split hinv.on rfl
  · rw [← entries_split hentry]
    exact hinv.counted
  · exact hinv.results
  · rw [← pending_split hpending]
    exact hinv.agrees
  · exact hinv.known
  · exact starting_split hinv.knows (by simp)
  · have halone := hinv.alone
    rw [locks_split] at halone ⊢
    exact halone
  · intro other rest own hother
    rw [← pending_split hpending]
    rcases mem_split.mp hother with heq | hother
    · cases heq
    · exact hinv.held other rest own (mem_split.mpr (Or.inr hother))
  · intro habsent
    exact (hinv.fresh habsent).imp_right (busy_split fun hnever => by cases hnever)

theorem Inv.move (hinv : Inv settings host start s (l ++ session :: r) order) (hs : start.database.Referential)
    (hmove : Move settings host start s (l ++ r) session session' s')
    (hapart : s' = s ∨ ∀ other ∈ l ++ r, other.locks host = false) :
    ∃ order', Inv settings host start s' (l ++ session' :: r) order' := by
  cases hmove with
  | early before known knows same => exact ⟨order, hinv.early before known knows same hapart⟩
  | refused before refused =>
    rcases before with rfl | ⟨before, rfl⟩
    · exact ⟨_, hinv.refuse rfl rfl rfl rfl refused⟩
    · exact ⟨_, hinv.refuse rfl rfl rfl refused refused⟩
  | lock free still acks => exact ⟨order, hinv.lock hs free still acks⟩
  | statement => exact ⟨order, hinv.statement⟩
  | finish => exact hinv.finish hs
  | first free => exact ⟨_, hinv.first free⟩
  | remove free => exact ⟨order, hinv.remove free⟩
  | deleted => exact ⟨order, hinv.deleted⟩

end Steps

theorem observe_self (s : State) (session : Session) : Session.observe s s session = session := by
  cases session with
  | locked call rest own => rw [Session.observe, State.rebase_self]
  | _ => rfl

theorem observe_of_free {old new : State} (hon : session.call.On host) (hfree : session.locks host = false) :
    Session.observe old new session = session := by
  cases session with
  | locked call rest own =>
    rw [Session.locks, decide_eq_false_iff_not] at hfree
    exact absurd hon hfree
  | _ => rfl

theorem step_split {t t' : System} {i : Nat} (h : t.step settings i = some t') :
    ∃ l session r session' db, t.sessions = l ++ session :: r ∧ t.sessions[i]? = some session ∧
      t.sessions.eraseIdx i = l ++ r ∧ session.next settings t.db (l ++ r) = some (session', db) ∧
      t' = ⟨db, l.map (Session.observe t.db db) ++ session' :: r.map (Session.observe t.db db)⟩ := by
  unfold System.step at h
  cases hget : t.sessions[i]? with
  | none =>
    rw [hget] at h
    cases h
  | some session =>
    rw [hget] at h
    obtain ⟨hi, hsession⟩ := List.getElem?_eq_some_iff.mp hget
    have hsplit : t.sessions = t.sessions.take i ++ session :: t.sessions.drop (i + 1) := by
      rw [← hsession, List.getElem_cons_drop, List.take_append_drop]
    have herase : t.sessions.eraseIdx i = t.sessions.take i ++ t.sessions.drop (i + 1) :=
      List.eraseIdx_eq_take_drop_succ ..
    cases hnext : session.next settings t.db (t.sessions.eraseIdx i) with
    | none =>
      simp only [hnext] at h
      cases h
    | some moved =>
      obtain ⟨session', db⟩ := moved
      simp only [hnext, Option.some.injEq] at h
      refine ⟨_, session, _, session', db, hsplit, rfl, herase, by rw [← herase, hnext], ?_⟩
      rw [← h, List.set_eq_take_append_cons_drop]
      simp only [List.length_map, if_pos hi, List.map_take, List.map_drop]

theorem Inv.step {t t' : System} {i : Nat} {order : List (Call × Bool)}
    (hinv : Inv settings host start t.db t.sessions order) (hs : start.database.Referential)
    (horderly : t.Orderly start i) (h : t.step settings i = some t') :
    ∃ order', Inv settings host start t'.db t'.sessions order' := by
  obtain ⟨l, session, r, session', db, hsplit, hget, herase, hnext, rfl⟩ := step_split h
  have hturn : session.Orderly start t.db (l ++ r) := by
    rw [System.Orderly, hget, herase] at horderly
    exact horderly
  rw [hsplit] at hinv
  have hon := hinv.on session (mem_split.mpr (Or.inl rfl))
  have hheld : (∃ other ∈ l ++ r, other.locks host = true) → (t.db.hosts.get? host).isSome := by
    rintro ⟨other, hother, hlocks⟩
    cases other with
    | locked call rest own => exact (hinv.held call rest own (mem_split.mpr (Or.inr hother))).2.1
    | _ => cases hlocks
  obtain ⟨hmove, hapart⟩ := Move.of_next hon hturn (fun call stage hstage =>
    hinv.knows call stage (mem_split.mpr (Or.inl hstage.symm))) hheld (not_locks_of_alone hinv.alone) hnext
  have hobserve : ∀ other ∈ l ++ r, Session.observe t.db db other = other := by
    intro other hother
    rcases hapart with rfl | hfree
    · exact observe_self _ other
    · exact observe_of_free (hinv.on other (mem_split.mpr (Or.inr hother))) (hfree other hother)
  have hl : l.map (Session.observe t.db db) = l :=
    (List.map_congr_left fun other hother => hobserve other (by simp [hother])).trans (List.map_id l)
  have hr : r.map (Session.observe t.db db) = r :=
    (List.map_congr_left fun other hother => hobserve other (by simp [hother])).trans (List.map_id r)
  rw [hl, hr]
  exact hinv.move hs hmove hapart

theorem inv_start {calls : List Call} (hon : ∀ call ∈ calls, call.On host) :
    Inv settings host start start (calls.map .waiting) [] := by
  have hwaiting : ∀ session ∈ calls.map Session.waiting, ∃ call ∈ calls, session = .waiting call := by
    intro session hsession
    obtain ⟨call, hcall, rfl⟩ := List.mem_map.mp hsession
    exact ⟨call, hcall, rfl⟩
  constructor
  · intro session hsession
    obtain ⟨call, hcall, rfl⟩ := hwaiting session hsession
    exact hon call hcall
  · have hnone : (calls.map Session.waiting).filterMap Session.entry = [] := by
      rw [List.filterMap_eq_nil_iff]
      intro session hsession
      obtain ⟨call, -, rfl⟩ := hwaiting session hsession
      rfl
    rw [hnone]
  · rfl
  · have hnone : (calls.map Session.waiting).flatMap Session.pending = [] := by
      rw [List.flatMap_eq_nil_iff]
      intro session hsession
      obtain ⟨call, -, rfl⟩ := hwaiting session hsession
      rfl
    rw [hnone]
    rfl
  · exact fun h => ⟨h, rfl⟩
  · intro call stage hsession
    obtain ⟨call, -, hsession⟩ := hwaiting _ hsession
    cases hsession
  · have hnone : (calls.map Session.waiting).countP (Session.locks host) = 0 := by
      rw [List.countP_eq_zero]
      intro session hsession
      obtain ⟨call, -, rfl⟩ := hwaiting session hsession
      exact Bool.false_ne_true
    rw [hnone]
    exact Nat.zero_le 1
  · intro call rest own hsession
    obtain ⟨call, -, hsession⟩ := hwaiting _ hsession
    cases hsession
  · exact fun _ => Or.inl rfl

theorem inv_of_reached {calls : List Call} (hs : start.database.Referential) (hon : ∀ call ∈ calls, call.On host)
    {t : System} (h : Reached settings (System.Orderly start) (System.start start calls) t) :
    ∃ order, Inv settings host start t.db t.sessions order := by
  induction h with
  | start => exact ⟨[], inv_start hon⟩
  | step _ horderly hstep ih =>
    obtain ⟨order, hinv⟩ := ih
    exact hinv.step hs horderly hstep

/-- Uploads and deletes of a host leave what they leave one after the other, when they come in each other's way
nowhere. -/
theorem serialised_of_orderly {calls : List Call} (hs : start.database.Referential)
    (hon : ∀ call ∈ calls, call.On host) {t : System}
    (h : Reached settings (System.Orderly start) (System.start start calls) t) : Serialised settings start t := by
  obtain ⟨order, hinv⟩ := inv_of_reached hs hon h
  intro hrest
  have hpending : t.sessions.flatMap Session.pending = [] := by
    rw [List.flatMap_eq_nil_iff]
    intro session hsession
    obtain ⟨call, rfl | ⟨success, rfl⟩⟩ := hrest session hsession <;> rfl
  have hreturned : t.sessions.filterMap Session.entry = t.returned := by
    refine List.filterMap_congr fun session hsession => ?_
    obtain ⟨call, rfl | ⟨success, rfl⟩⟩ := hrest session hsession <;> rfl
  have hagrees := hinv.agrees
  rw [hpending] at hagrees
  change t.db = _ at hagrees
  have hacks : t.db.acks = (served settings start order).acks := by
    cases hfound : (served settings start order).hosts.get? host with
    | some found => exact (hinv.known (by rw [hfound]; rfl)).2
    | none =>
      obtain ⟨hsame, -⟩ := hinv.absent hs hfound
      rcases hinv.fresh hfound with hacks | ⟨session, hsession, hbusy⟩
      · rw [hacks, hsame]
      · obtain ⟨call, rfl | ⟨success, rfl⟩⟩ := hrest session hsession <;> cases hbusy
  refine ⟨order, hreturned ▸ hinv.counted, hinv.results, ?_, ?_, hacks, ?_⟩
  · exact (congrArg State.uploads hagrees).trans rfl
  · exact (congrArg State.reports hagrees).trans rfl
  · exact (congrArg State.hostAcks hagrees).trans rfl

def System.busy : System :=
  .start State.uploaded [.upload (clientUpload [weakKeys]), .delete ⟨some 7, some "1234"⟩, .upload (clientUpload [])]

def busySchedule : List Nat := [0, 1, 2, 1, 1, 1] ++ List.replicate 13 2 ++ List.replicate 15 0

theorem busySchedule_runs : (System.busy.run notifying State.uploaded busySchedule).isSome = true := by
  decide +kernel

theorem State.uploaded_referential : State.uploaded.database.Referential := by
  constructor
  · intro row hrow
    obtain rfl := Table.mem_single.mp hrow
    decide
  · intro row hrow
    cases hrow
  · intro row hrow
    cases hrow
  · intro row hrow
    cases hrow

theorem serialised_busy :
    ((System.busy.run notifying State.uploaded busySchedule).get busySchedule_runs).returned.map Prod.snd =
        [true, true, true] ∧
      Serialised notifying State.uploaded
        ((System.busy.run notifying State.uploaded busySchedule).get busySchedule_runs) := by
  have hon : ∀ call ∈ [.upload (clientUpload [weakKeys]), .delete ⟨some 7, some "1234"⟩, .upload (clientUpload [])],
      Call.On 7 call := by decide
  refine ⟨by decide +kernel, ?_⟩
  exact serialised_of_orderly State.uploaded_referential hon (reached_of_run .start (Option.some_get _).symm)

end Advisor.Service
