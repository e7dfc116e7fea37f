import Advisor.Python.Json
import Advisor.WeeklyReports.Subscriptions

/-! Sending the weekly report to the users of an org, each tried a few times. -/

namespace Advisor.WeeklyReports

open Python Django Relational

/-- A user to email: the account details, with the subscription and the address among them. -/
structure EmailUser where
  account : List (String × Json)
  subscription : WeeklyReportSubscription
  address : Json
  deriving DecidableEq

/-- A mail that is rendered and handed to the client, which fails or not. -/
structure Attempt where
  recipient : Json
  contextUser : Option EmailUser
  sent : Bool
  deriving DecidableEq

/-- What the loops change. The list of users left is the one that is given; the context is shared. -/
structure Sending where
  usersToEmail : List EmailUser
  usersSuccess : List EmailUser := []
  contextUser : Option EmailUser := none
  attempts : List Attempt := []
  subscriptions : Subscriptions

def stamp (time : Instant) : Update WeeklyReportSubscription.username :=
  ⟨fun row => { row with lastEmailAt := some time }, fun _ => rfl⟩

def saveEmailed (user : EmailUser) (time : Instant) (t : Subscriptions) : Subscriptions :=
  t.updateWhere (fun row => row.username = user.subscription.username) (stamp time)

section Send

variable (fails : Nat → Bool) (clock : Nat → Instant)

def Sending.attempt (s : Sending) (user : EmailUser) : Attempt :=
  ⟨user.address, s.contextUser, !fails s.attempts.length⟩

def Sending.tried (s : Sending) (attempt : Attempt) : Sending := { s with attempts := s.attempts ++ [attempt] }

/-- The user is taken out of the list by equality. -/
def Sending.succeeded (s : Sending) (user : EmailUser) : Sending :=
  { s with
    usersToEmail := s.usersToEmail.erase user
    subscriptions := saveEmailed user (clock s.attempts.length) s.subscriptions
    usersSuccess := s.usersSuccess ++ [user] }

def sendUser (user : EmailUser) : Nat → Sending → Sending
  | 0, s => s
  | left + 1, s =>
    let attempt := s.attempt fails user
    if attempt.sent then (s.tried attempt).succeeded clock user
    else sendUser user left (s.tried attempt)

def sendTurn (mailRetryAttempts : Nat) (s : Sending) (user : EmailUser) : Sending :=
  sendUser fails clock user mailRetryAttempts { s with contextUser := some user }

/-- `send_emails`: the loop goes over a copy of the list. -/
def sendEmails (mailRetryAttempts : Nat) (usersToEmail : List EmailUser) (subscriptions : Subscriptions) : Sending :=
  usersToEmail.foldl (sendTurn fails clock mailRetryAttempts) { usersToEmail, subscriptions }

end Send

/-- What becomes of one user: the outcomes of the attempts, and the time of the last. -/
structure Turn where
  user : EmailUser
  outcomes : List Bool
  time : Instant

namespace Turn

def success (turn : Turn) : Bool := turn.outcomes.contains true

def attempts (turn : Turn) : List Attempt :=
  turn.outcomes.map fun sent => ⟨turn.user.address, some turn.user, sent⟩

/-- All attempts fail, or the last of them is the one that does not. -/
def Complete (mailRetryAttempts : Nat) (turn : Turn) : Prop :=
  turn.outcomes = List.replicate mailRetryAttempts false ∨
    ∃ failed < mailRetryAttempts, turn.outcomes = List.replicate failed false ++ [true]

def save (t : Subscriptions) (turn : Turn) : Subscriptions :=
  if turn.success then saveEmailed turn.user turn.time t else t

end Turn

def Timed (clock : Nat → Instant) (start : Nat) (turns : List Turn) : Prop :=
  ∀ before turn after, turns = before ++ turn :: after → turn.success = true →
    turn.time = clock (start + ((before ++ [turn]).flatMap Turn.attempts).length)

/-- A mail has been sent exactly if it was not to fail. -/
def Sending.Obeys (fails : Nat → Bool) (s : Sending) : Prop :=
  ∀ k attempt, s.attempts[k]? = some attempt → attempt.sent = !fails k

/-- Every user has one turn, in the order of the list, and is a success or a failure as it ends. -/
structure Accounts (fails : Nat → Bool) (clock : Nat → Instant) (mailRetryAttempts : Nat) (users : List EmailUser)
    (t : Subscriptions) (s : Sending) (turns : List Turn) : Prop where
  obeys : s.Obeys fails
  users : turns.map Turn.user = users
  complete : ∀ turn ∈ turns, turn.Complete mailRetryAttempts
  attempts : s.attempts = turns.flatMap Turn.attempts
  successes : s.usersSuccess = (turns.filter Turn.success).map Turn.user
  failures : s.usersToEmail.Perm ((turns.filter fun turn => !turn.success).map Turn.user)
  timed : Timed clock 0 turns
  saved : s.subscriptions = turns.foldl Turn.save t

section Turns

variable {fails : Nat → Bool} {clock : Nat → Instant} {user : EmailUser} {s s' : Sending} {turn : Turn}

structure Ends (clock : Nat → Instant) (s s' : Sending) (turn : Turn) : Prop where
  attempts : s'.attempts = s.attempts ++ turn.attempts
  successes : s'.usersSuccess = s.usersSuccess ++ if turn.success then [turn.user] else []
  left : s'.usersToEmail = if turn.success then s.usersToEmail.erase turn.user else s.usersToEmail
  timed : turn.success = true → turn.time = clock s'.attempts.length
  saved : s'.subscriptions = turn.save s.subscriptions

theorem Sending.Obeys.tried (h : s.Obeys fails) (user : EmailUser) : (s.tried (s.attempt fails user)).Obeys fails := by
  intro k attempt hk
  simp only [Sending.tried, List.getElem?_append] at hk
  split_ifs at hk with hlt
  · exact h k attempt hk
  · obtain ⟨hzero, hattempt⟩ := List.getElem?_eq_some_iff.mp hk
    have hlast : k = s.attempts.length := by
      simp only [List.length_singleton] at hzero
      omega
    subst hlast
    simp only [Nat.sub_self, List.getElem_cons_zero] at hattempt
    rw [← hattempt]
    rfl

theorem sendUser_obeys (clock : Nat → Instant) (user : EmailUser) (left : Nat) (h : s.Obeys fails) :
    (sendUser fails clock user left s).Obeys fails := by
  induction left generalizing s with
  | zero => exact h
  | succ left ih =>
    rw [sendUser]
    split_ifs
    · exact h.tried user
    · exact ih (h.tried user)

theorem sendTurns_obeys (clock : Nat → Instant) (n : Nat) (users : List EmailUser) (h : s.Obeys fails) :
    (users.foldl (sendTurn fails clock n) s).Obeys fails := by
  induction users generalizing s with
  | nil => exact h
  | cons user users ih => exact ih (sendUser_obeys clock user n h)

theorem Ends.failed {time : Instant} {outcomes : List Bool}
    (h : Ends clock (s.tried ⟨user.address, some user, false⟩) s' ⟨user, outcomes, time⟩) :
    Ends clock s s' ⟨user, false :: outcomes, time⟩ := by
  have hsuccess : (⟨user, false :: outcomes, time⟩ : Turn).success = (⟨user, outcomes, time⟩ : Turn).success := by
    simp [Turn.success]
  refine ⟨?_, ?_, ?_, fun hs => h.timed (hsuccess ▸ hs), ?_⟩
  · rw [h.attempts]
    simp [Sending.tried, Turn.attempts]
  · rw [h.successes, hsuccess]
    rfl
  · rw [h.left, hsuccess]
    rfl
  · rw [h.saved, Turn.save, Turn.save, hsuccess]
    rfl

theorem sendUser_ends (fails : Nat → Bool) (clock : Nat → Instant) (left : Nat) (h : s.contextUser = some user) :
    ∃ turn : Turn, turn.user = user ∧ turn.Complete left ∧ Ends clock s (sendUser fails clock user left s) turn := by
  induction left generalizing s with
  | zero =>
    refine ⟨⟨user, [], clock 0⟩, rfl, Or.inl rfl, ⟨?_, ?_, rfl, nofun, rfl⟩⟩
    · simp [sendUser, Turn.attempts]
    · simp [sendUser, Turn.success]
  | succ left ih =>
    have hattempt : s.attempt fails user = ⟨user.address, some user, !fails s.attempts.length⟩ := by
      rw [Sending.attempt, h]
    rw [sendUser, hattempt]
    dsimp only
    cases hfails : fails s.attempts.length with
    | false =>
      refine ⟨⟨user, [true], clock (s.attempts.length + 1)⟩, rfl, Or.inr ⟨0, by omega, rfl⟩,
        ⟨rfl, rfl, rfl, fun _ => ?_, ?_⟩⟩
      · simp [Sending.succeeded, Sending.tried]
      · simp [Sending.succeeded, Sending.tried, Turn.save, Turn.success]
    | true =>
      obtain ⟨⟨_, outcomes, time⟩, rfl, hcomplete, hends⟩ := @ih (s.tried ⟨user.address, some user, false⟩) h
      refine ⟨⟨_, false :: outcomes, time⟩, rfl, ?_, hends.failed⟩
      rcases hcomplete with hall | ⟨failed, hlt, hlast⟩
      · refine Or.inl ?_
        show false :: outcomes = List.replicate (left + 1) false
        rw [List.replicate_succ, ← hall]
      · refine Or.inr ⟨failed + 1, by omega, ?_⟩
        show false :: outcomes = List.replicate (failed + 1) false ++ [true]
        rw [List.replicate_succ, List.cons_append, ← hlast]

theorem Ends.left_perm {failed users : List EmailUser} (h : Ends clock s s' turn)
    (hperm : s.usersToEmail.Perm (failed ++ turn.user :: users)) :
    s'.usersToEmail.Perm (failed ++ (if turn.success then [] else [turn.user]) ++ users) := by
  rw [h.left]
  cases turn.success with
  | true =>
    have herase := (hperm.trans List.perm_middle).erase turn.user
    simpa using herase
  | false => simpa using hperm

theorem Timed.cons {start : Nat} {turns : List Turn}
    (h : turn.success = true → turn.time = clock (start + turn.attempts.length))
    (hrest : Timed clock (start + turn.attempts.length) turns) : Timed clock start (turn :: turns) := by
  intro before other after hsplit hs
  cases before with
  | nil =>
    obtain ⟨rfl, -⟩ := List.cons.inj hsplit
    simpa using h hs
  | cons first before =>
    obtain ⟨rfl, hrest'⟩ := List.cons.inj hsplit
    rw [hrest before other after hrest' hs]
    simp [Nat.add_assoc]

theorem sendTurns_accounts (n : Nat) (users failed : List EmailUser) (h : s.usersToEmail.Perm (failed ++ users)) :
    ∃ turns : List Turn, turns.map Turn.user = users ∧ (∀ turn ∈ turns, turn.Complete n) ∧
      (users.foldl (sendTurn fails clock n) s).attempts = s.attempts ++ turns.flatMap Turn.attempts ∧
      (users.foldl (sendTurn fails clock n) s).usersSuccess =
        s.usersSuccess ++ (turns.filter Turn.success).map Turn.user ∧
      (users.foldl (sendTurn fails clock n) s).usersToEmail.Perm
        (failed ++ (turns.filter fun turn => !turn.success).map Turn.user) ∧
      Timed clock s.attempts.length turns ∧
      (users.foldl (sendTurn fails clock n) s).subscriptions = turns.foldl Turn.save s.subscriptions := by
  induction users generalizing s failed with
  | nil => exact ⟨[], rfl, by simp, by simp, by simp, by simpa using h, by simp [Timed], rfl⟩
  | cons user users ih =>
    obtain ⟨turn, rfl, hcomplete, hends⟩ :=
      @sendUser_ends user { s with contextUser := some user } fails clock n rfl
    have hperm := hends.left_perm h
    obtain ⟨turns, husers, hall, hattempts, hsuccesses, hfailures, htimed, hsaved⟩ := ih _ hperm
    have hlength := congrArg List.length hends.attempts
    rw [List.length_append] at hlength
    refine ⟨turn :: turns, by rw [List.map_cons, husers], List.forall_mem_cons.mpr ⟨hcomplete, hall⟩, ?_, ?_, ?_,
      Timed.cons (fun hs => hlength ▸ hends.timed hs) (hlength ▸ htimed), ?_⟩
    · rw [List.foldl_cons, sendTurn, hattempts, hends.attempts]
      simp
    · rw [List.foldl_cons, sendTurn, hsuccesses, hends.successes]
      cases hs : turn.success <;> simp [hs]
    · rw [List.foldl_cons, sendTurn]
      cases hs : turn.success <;> simpa [hs] using hfailures
    · rw [List.foldl_cons, sendTurn, hsaved, hends.saved]
      rfl

theorem Turn.get?_save (t : Subscriptions) (username : String) :
    (turn.save t).get? username =
      if turn.success = true ∧ turn.user.subscription.username = username then
        (t.get? username).map fun row => { row with lastEmailAt := some turn.time }
      else t.get? username := by
  rw [Turn.save]
  cases turn.success with
  | false => simp
  | true =>
    rw [if_pos rfl, saveEmailed, Table.get?_updateWhere]
    cases hrow : t.get? username with
    | none => simp
    | some row =>
      have hkey : row.username = username := Table.get?_key hrow
      by_cases hname : turn.user.subscription.username = username
      · simp [hkey, hname, stamp]
      · simp [hkey, hname, Ne.symm hname]

theorem stored_saves (turns : List Turn) {t : Subscriptions} {username : String} {old : WeeklyReportSubscription}
    (h : t.get? username = some old) :
    ∃ time, (turns.foldl Turn.save t).get? username = some { old with lastEmailAt := time } := by
  induction turns using List.reverseRecOn with
  | nil => exact ⟨old.lastEmailAt, h⟩
  | append_singleton turns turn ih =>
    obtain ⟨time, htime⟩ := ih
    rw [List.foldl_append, List.foldl_cons, List.foldl_nil, Turn.get?_save, htime]
    split_ifs
    · exact ⟨_, rfl⟩
    · exact ⟨_, rfl⟩

theorem get?_saves {turns : List Turn} (hturn : turn ∈ turns) (hs : turn.success = true) {t : Subscriptions}
    {old : WeeklyReportSubscription} (h : t.get? turn.user.subscription.username = some old) :
    ∃ last ∈ turns, last.success = true ∧ last.user.subscription.username = turn.user.subscription.username ∧
      (turns.foldl Turn.save t).get? turn.user.subscription.username =
        some { old with lastEmailAt := some last.time } := by
  induction turns using List.reverseRecOn with
  | nil => cases hturn
  | append_singleton turns last ih =>
    rw [List.foldl_append, List.foldl_cons, List.foldl_nil, Turn.get?_save]
    by_cases hlast : last.success = true ∧ last.user.subscription.username = turn.user.subscription.username
    · refine ⟨last, by simp, hlast.1, hlast.2, ?_⟩
      obtain ⟨time, htime⟩ := stored_saves turns h
      rw [if_pos hlast, htime]
      rfl
    · have hin : turn ∈ turns := by
        rcases List.mem_append.mp hturn with hin | heq
        · exact hin
        · rw [List.mem_singleton] at heq
          exact absurd ⟨heq ▸ hs, heq ▸ rfl⟩ hlast
      obtain ⟨found, hfound, hsuccess, hname, hget⟩ := ih hin
      exact ⟨found, by simp [hfound], hsuccess, hname, by rw [if_neg hlast, hget]⟩

theorem Accounts.stamped {n : Nat} {users : List EmailUser} {t : Subscriptions} {turns : List Turn}
    (h : Accounts fails clock n users t s turns) (huser : user ∈ s.usersSuccess) {old : WeeklyReportSubscription}
    (hold : t.get? user.subscription.username = some old) :
    ∃ turn ∈ turns, turn.success = true ∧ turn.user.subscription.username = user.subscription.username ∧
      s.subscriptions.get? user.subscription.username = some { old with lastEmailAt := some turn.time } := by
  rw [h.successes] at huser
  obtain ⟨turn, hturn, rfl⟩ := List.mem_map.mp huser
  obtain ⟨hmem, hs⟩ := List.mem_filter.mp hturn
  rw [h.saved]
  exact get?_saves hmem hs hold

theorem Accounts.partition {n : Nat} {users : List EmailUser} {t : Subscriptions} {turns : List Turn}
    (h : Accounts fails clock n users t s turns) : (s.usersSuccess ++ s.usersToEmail).Perm users := by
  have hboth : (turns.filter Turn.success ++ turns.filter fun turn => !turn.success).Perm turns :=
    List.filter_append_perm Turn.success turns
  rw [← h.users, h.successes]
  refine (h.failures.append_left _).trans ?_
  rw [← List.map_append]
  exact hboth.map Turn.user

end Turns

/-- Every user of the list is sent one mail or is tried as often as that may be, as the mails that fail have it, and
of different users none is both a success and a failure. -/
theorem sendEmails_accounts (fails : Nat → Bool) (clock : Nat → Instant) (mailRetryAttempts : Nat)
    (users : List EmailUser) (t : Subscriptions) :
    ((sendEmails fails clock mailRetryAttempts users t).usersSuccess ++
        (sendEmails fails clock mailRetryAttempts users t).usersToEmail).Perm users ∧
      (users.Nodup → (sendEmails fails clock mailRetryAttempts users t).usersSuccess.Disjoint
        (sendEmails fails clock mailRetryAttempts users t).usersToEmail) ∧
      ∃ turns, Accounts fails clock mailRetryAttempts users t (sendEmails fails clock mailRetryAttempts users t) turns ∧
        ∀ user ∈ (sendEmails fails clock mailRetryAttempts users t).usersSuccess, ∀ old,
          t.get? user.subscription.username = some old →
            ∃ turn ∈ turns, turn.success = true ∧ turn.user.subscription.username = user.subscription.username ∧
              (sendEmails fails clock mailRetryAttempts users t).subscriptions.get? user.subscription.username =
                some { old with lastEmailAt := some turn.time } := by
  obtain ⟨turns, husers, hcomplete, hattempts, hsuccesses, hfailures, htimed, hsaved⟩ :=
    @sendTurns_accounts fails clock { usersToEmail := users, subscriptions := t } mailRetryAttempts users []
      (List.Perm.refl users)
  have hobeys : (sendEmails fails clock mailRetryAttempts users t).Obeys fails :=
    sendTurns_obeys clock mailRetryAttempts users fun _ _ h => nomatch h
  have haccounts : Accounts fails clock mailRetryAttempts users t (sendEmails fails clock mailRetryAttempts users t) turns :=
    ⟨hobeys, husers, hcomplete, by rw [sendEmails, hattempts]; rfl, by rw [sendEmails, hsuccesses]; rfl,
      by rw [sendEmails]; exact hfailures, htimed, hsaved⟩
  refine ⟨haccounts.partition, fun hnodup => ?_, turns, haccounts, fun user huser old hold =>
    haccounts.stamped huser hold⟩
  exact (List.nodup_append'.mp (haccounts.partition.nodup_iff.mpr hnodup)).2.2

end Advisor.WeeklyReports
