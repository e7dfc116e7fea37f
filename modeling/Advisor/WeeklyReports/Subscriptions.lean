import Advisor.Models
import Advisor.Python.Raise

/-! Subscriptions to the weekly report. A row stands for a user of an org, but there can be only one row with a
username; it may have come from the user or from the page that subscribes everyone who visits it. -/

namespace Advisor.WeeklyReports

open Python Django Relational

structure WeeklyReportSubscription where
  username : String
  account : Option String
  orgId : String
  lastEmailAt : Option Instant := none
  autosub : Bool := false
  deriving DecidableEq

/-- The rows, with `unique=True` on the username. -/
abbrev Subscriptions := Table WeeklyReportSubscription.username

/-- A text with a NUL cannot be part of a statement. -/
def parameter (text : String) : Except Exception Unit :=
  if text.toList.contains '\x00' then .error .valueError else .ok ()

def status (t : Subscriptions) (username orgId : String) : Option WeeklyReportSubscription :=
  (t.get? username).filter fun row => row.orgId = orgId

def subscription (t : Subscriptions) (username orgId : String) : Except Exception (Option WeeklyReportSubscription) := do
  parameter username
  parameter orgId
  return status t username orgId

def WeeklyReportSubscription.fits (row : WeeklyReportSubscription) : Bool :=
  row.username.length ≤ 255 && row.orgId.length ≤ 50 && row.account.all (·.length ≤ 10)

def insertRow (t : Subscriptions) (row : WeeklyReportSubscription) : Except Exception Subscriptions :=
  if row.account.any (·.toList.contains '\x00') then .error .valueError
  else if row.fits then
    match t.insert? row with
    | some t' => .ok t'
    | none => .error .integrityError
  else .error .dataError

/-- `update_or_create` without defaults: a row with just these columns stays as it is. -/
def updateOrCreate (t : Subscriptions) (row : WeeklyReportSubscription) : Except Exception Subscriptions :=
  if row ∈ t.rows then .ok t else insertRow t row

def updateWrs (t : Subscriptions) (username : String) (account : Option String) (subDesired : Bool) (orgId : String)
    (autoSubscribed : Bool) : Except Exception Subscriptions := do
  let sub ← subscription t username orgId
  if sub.isSome && !subDesired then
    return t.deleteWhere fun row => row.username = username && row.orgId = orgId
  else if sub.isNone && (subDesired || autoSubscribed) then
    updateOrCreate t { username, account, orgId, autosub := autoSubscribed }
  else return t

/-- The views: the user's own, with the one for the preferences, and the one that subscribes visitors. -/
inductive View where
  | subscription
  | autoSubscribe
  deriving DecidableEq

structure Request where
  view : View
  username : String
  account : Option String
  orgId : String
  desired : Bool

structure Settings where
  enableAutosub : Bool
  excludedOrgs : List String

inductive Refusal where
  | methodNotAllowed (message : String)
  | raised (e : Exception)

variable (settings : Settings)

def create (request : Request) (t : Subscriptions) : Except Refusal (Bool × Subscriptions) :=
  match request.view with
  | .subscription =>
    match updateWrs t request.username request.account request.desired request.orgId false with
    | .ok t' => .ok (request.desired, t')
    | .error e => .error (.raised e)
  | .autoSubscribe =>
    if !settings.enableAutosub then
      .error (.methodNotAllowed "Auto-subscription is not enabled on this enviroment")
    else if request.orgId ∈ settings.excludedOrgs then
      .error (.methodNotAllowed "Auto-subscription is excluded for this Org Id")
    else
      match updateWrs t request.username request.account request.desired request.orgId request.desired with
      | .ok t' => .ok (request.desired, t')
      | .error e => .error (.raised e)

def list (view : View) (t : Subscriptions) (username orgId : String) : Except Exception Bool := do
  let sub ← subscription t username orgId
  match view with
  | .subscription => return sub.isSome
  | .autoSubscribe => return sub.any (·.autosub)

def serve (t : Subscriptions) (request : Request) : Subscriptions :=
  match create settings request t with
  | .ok (_, t') => t'
  | .error _ => t

def run (t : Subscriptions) (requests : List Request) : Subscriptions := requests.foldl (serve settings) t

section Steps

variable {settings : Settings} {t t' : Subscriptions} {request : Request}

def Request.Readable (request : Request) : Prop :=
  request.username.toList.contains '\x00' = false ∧ request.orgId.toList.contains '\x00' = false

def Request.row (request : Request) : WeeklyReportSubscription where
  username := request.username
  account := request.account
  orgId := request.orgId
  autosub := request.view = .autoSubscribe

theorem subscription_eq (t : Subscriptions) (request : Request) :
    subscription t request.username request.orgId = .ok (status t request.username request.orgId) ∧ request.Readable ∨
      subscription t request.username request.orgId = .error .valueError ∧ ¬request.Readable := by
  unfold subscription parameter Request.Readable
  cases hname : request.username.toList.contains '\x00' with
  | true => exact Or.inr ⟨rfl, by simp⟩
  | false =>
    cases horg : request.orgId.toList.contains '\x00' with
    | true => exact Or.inr ⟨rfl, by simp⟩
    | false => exact Or.inl ⟨rfl, rfl, rfl⟩

theorem list_eq (view : View) (h : request.Readable) (t : Subscriptions) :
    list view t request.username request.orgId =
      .ok (match view with
        | .subscription => (status t request.username request.orgId).isSome
        | .autoSubscribe => (status t request.username request.orgId).any (·.autosub)) := by
  rcases subscription_eq t request with ⟨hok, -⟩ | ⟨-, hno⟩
  · rw [list, hok]
    cases view <;> rfl
  · exact absurd h hno

def WeeklyReportSubscription.Storable (row : WeeklyReportSubscription) : Prop :=
  row.fits = true ∧ row.account.any (·.toList.contains '\x00') = false

theorem insertRow_eq_ok {row : WeeklyReportSubscription} :
    insertRow t row = .ok t' ↔ row.Storable ∧ t.insert? row = some t' := by
  unfold insertRow WeeklyReportSubscription.Storable
  cases row.account.any (·.toList.contains '\x00') with
  | true => simp
  | false =>
    cases row.fits with
    | false => simp
    | true => cases t.insert? row <;> simp

theorem insertRow_isOk {row : WeeklyReportSubscription} :
    (∃ t', insertRow t row = .ok t') ↔ row.Storable ∧ t.get? row.username = none := by
  simp only [insertRow_eq_ok, exists_and_left]
  refine and_congr_right fun _ => ?_
  have hinsert : t.insert? row = none ↔ (t.get? row.username).isSome = true := Table.insert?_eq_none
  rw [← not_iff_not, not_exists, ← ne_eq (t.get? row.username), ← Option.isSome_iff_ne_none, ← hinsert]
  exact Option.eq_none_iff_forall_ne_some.symm

def Request.Enabled (settings : Settings) (request : Request) : Prop :=
  request.view = .autoSubscribe → settings.enableAutosub = true ∧ request.orgId ∉ settings.excludedOrgs

def Request.update (request : Request) (t : Subscriptions) : Except Exception Subscriptions :=
  updateWrs t request.username request.account request.desired request.orgId
    (request.view = .autoSubscribe && request.desired)

theorem create_eq_ok {reported : Bool} :
    create settings request t = .ok (reported, t') ↔
      request.Enabled settings ∧ request.desired = reported ∧ request.update t = .ok t' := by
  unfold create Request.Enabled Request.update
  cases hview : request.view with
  | subscription =>
    cases hupdate : updateWrs t request.username request.account request.desired request.orgId false <;> simp [hupdate]
  | autoSubscribe =>
    cases henable : settings.enableAutosub with
    | false => simp
    | true =>
      by_cases hexcluded : request.orgId ∈ settings.excludedOrgs
      · simp [hexcluded]
      · cases hupdate : updateWrs t request.username request.account request.desired request.orgId request.desired <;>
          simp [hexcluded, hupdate]

theorem update_eq_ok :
    request.update t = .ok t' ↔ request.Readable ∧
      match status t request.username request.orgId, request.desired with
      | some _, false => t' = t.deleteWhere fun row => row.username = request.username && row.orgId = request.orgId
      | some _, true => t' = t
      | none, false => t' = t
      | none, true => insertRow t request.row = .ok t' := by
  unfold Request.update updateWrs
  rcases subscription_eq t request with ⟨hok, hreadable⟩ | ⟨herror, hno⟩
  · rw [hok]
    simp only [hreadable, true_and]
    cases hstatus : status t request.username request.orgId with
    | some row => cases request.desired <;> simp [bind, Except.bind, pure, Except.pure, eq_comm]
    | none =>
      cases hdesired : request.desired with
      | false => simp [bind, Except.bind, pure, Except.pure, eq_comm]
      | true =>
        have hnot : request.row ∉ t.rows := by
          intro hmem
          have hget : t.get? request.username = some request.row := Table.mem_iff_get?.mp hmem
          rw [status, hget, Option.filter_some_pos (by simp [Request.row])] at hstatus
          cases hstatus
        have hrow : WeeklyReportSubscription.mk request.username request.account request.orgId none
            (decide (request.view = .autoSubscribe) && true) = request.row := by
          rw [Bool.and_true]
          rfl
        simp only [bind, Except.bind, Option.isSome_none, Bool.not_true, Bool.and_self, Bool.false_eq_true, if_false,
          Option.isNone_none, Bool.true_or, if_true]
        rw [hrow, updateOrCreate, if_neg hnot]
  · rw [herror]
    simp [hno, bind, Except.bind]

theorem status_deleteWhere (t : Subscriptions) (u o username orgId : String) :
    status (t.deleteWhere fun row => row.username = u && row.orgId = o) username orgId =
      if (username, orgId) = (u, o) then none else status t username orgId := by
  unfold status
  rw [Table.get?_deleteWhere]
  cases hget : t.get? username with
  | none => simp
  | some row =>
    have hname := Table.get?_key hget
    simp only [Option.filter_some, hname, Prod.mk.injEq]
    by_cases horg : row.orgId = orgId
    · subst horg
      by_cases hu : username = u <;> by_cases ho : row.orgId = o <;> simp [hu, ho]
    · rw [decide_eq_false horg]
      split
      · simp [horg]
      · simp

theorem status_insertRow {row : WeeklyReportSubscription} (h : insertRow t row = .ok t') (username orgId : String) :
    status t' username orgId =
      if (username, orgId) = (row.username, row.orgId) then some row else status t username orgId := by
  obtain ⟨-, hinsert⟩ := insertRow_eq_ok.mp h
  have hnone : t.get? row.username = none := (insertRow_isOk.mp ⟨t', h⟩).2
  unfold status
  rw [Table.get?_insert? hinsert]
  by_cases hu : row.username = username
  · subst hu
    rw [if_pos rfl, hnone]
    by_cases ho : row.orgId = orgId
    · simp [ho, Option.filter]
    · simp [ho, Ne.symm ho, Option.filter]
  · rw [if_neg hu]
    simp [Ne.symm hu]

/-- The request can be served: its view is open, its user's name is not in use in another org if a row has to be made,
the texts of the row fit, and the page for visitors does not meet a subscription of the user's own. -/
structure Clear (settings : Settings) (t : Subscriptions) (request : Request) : Prop where
  enabled : request.Enabled settings
  readable : request.Readable
  room : request.desired = true → status t request.username request.orgId = none →
    request.row.Storable ∧ t.get? request.username = none
  same : request.view = .autoSubscribe → request.desired = true → ∀ row,
    status t request.username request.orgId = some row → row.autosub = true

/-- The request succeeds, reports what a following read returns, stores what it asks for, and changes nothing else. -/
structure Served (settings : Settings) (t : Subscriptions) (request : Request) : Prop where
  reported : ∃ reported, create settings request t = .ok (reported, serve settings t request) ∧
    list request.view (serve settings t request) request.username request.orgId = .ok reported
  stored : (status (serve settings t request) request.username request.orgId).isSome = request.desired
  kept : ∀ username orgId, (username, orgId) ≠ (request.username, request.orgId) →
    status (serve settings t request) username orgId = status t username orgId

theorem serve_of_ok (henabled : request.Enabled settings) (h : request.update t = .ok t') :
    create settings request t = .ok (request.desired, serve settings t request) ∧ serve settings t request = t' := by
  have hcreate := create_eq_ok.mpr ⟨henabled, rfl, h⟩
  have hserve : serve settings t request = t' := by rw [serve, hcreate]
  exact ⟨hserve ▸ hcreate, hserve⟩

theorem status_update (h : request.update t = .ok t') (username orgId : String) :
    status t' username orgId =
      if (username, orgId) = (request.username, request.orgId) then
        if request.desired then some ((status t request.username request.orgId).getD request.row) else none
      else status t username orgId := by
  obtain ⟨-, h⟩ := update_eq_ok.mp h
  by_cases hsame : (username, orgId) = (request.username, request.orgId)
  · obtain ⟨rfl, rfl⟩ := Prod.mk.inj hsame
    rw [if_pos rfl]
    cases hstatus : status t request.username request.orgId with
    | some row =>
      cases hdesired : request.desired with
      | false =>
        simp only [hstatus, hdesired] at h
        rw [h, status_deleteWhere, if_pos rfl]
        rfl
      | true =>
        simp only [hstatus, hdesired] at h
        rw [h, hstatus]
        rfl
    | none =>
      cases hdesired : request.desired with
      | false =>
        simp only [hstatus, hdesired] at h
        rw [h, hstatus]
        rfl
      | true =>
        simp only [hstatus, hdesired] at h
        rw [status_insertRow h]
        exact if_pos rfl
  · rw [if_neg hsame]
    cases hstatus : status t request.username request.orgId with
    | some row =>
      cases hdesired : request.desired with
      | false =>
        simp only [hstatus, hdesired] at h
        rw [h, status_deleteWhere, if_neg hsame]
      | true =>
        simp only [hstatus, hdesired] at h
        rw [h]
    | none =>
      cases hdesired : request.desired with
      | false =>
        simp only [hstatus, hdesired] at h
        rw [h]
      | true =>
        simp only [hstatus, hdesired] at h
        rw [status_insertRow h]
        exact if_neg hsame

theorem update_isOk :
    (∃ t', request.update t = .ok t') ↔ request.Readable ∧
      (request.desired = true → status t request.username request.orgId = none →
        request.row.Storable ∧ t.get? request.username = none) := by
  simp only [update_eq_ok, exists_and_left]
  refine and_congr_right fun _ => ?_
  cases status t request.username request.orgId with
  | some row => cases request.desired <;> simp
  | none =>
    cases request.desired with
    | false => simp
    | true =>
      simp only [forall_const]
      exact insertRow_isOk

theorem served_iff : Served settings t request ↔ Clear settings t request := by
  constructor
  · rintro ⟨⟨reported, hcreate, hlist⟩, -, -⟩
    obtain ⟨henabled, rfl, hupdate⟩ := create_eq_ok.mp hcreate
    obtain ⟨hreadable, hroom⟩ := update_isOk.mp ⟨_, hupdate⟩
    refine ⟨henabled, hreadable, hroom, fun hview hdesired row hrow => ?_⟩
    rw [list_eq request.view hreadable, status_update hupdate, if_pos rfl, hview, hdesired, hrow] at hlist
    exact Except.ok.inj hlist
  · rintro ⟨henabled, hreadable, hroom, hsame⟩
    obtain ⟨t', hupdate⟩ := update_isOk.mpr ⟨hreadable, hroom⟩
    obtain ⟨hcreate, hserve⟩ := serve_of_ok henabled hupdate
    have hstatus := status_update hupdate
    refine ⟨⟨request.desired, hcreate, ?_⟩, ?_, fun username orgId hne => ?_⟩
    · rw [hserve, list_eq request.view hreadable, hstatus, if_pos rfl]
      cases hdesired : request.desired with
      | false => cases request.view <;> rfl
      | true =>
        cases hview : request.view with
        | subscription => rfl
        | autoSubscribe =>
          cases hrow : status t request.username request.orgId with
          | none => simp [Request.row, hview]
          | some row => simp [hsame hview hdesired row hrow]
    · rw [hserve, hstatus, if_pos rfl]
      cases request.desired <;> rfl
    · rw [hserve, hstatus, if_neg hne]

end Steps

section Runs

variable {settings : Settings} {t : Subscriptions} {requests : List Request}

def lastDesired (requests : List Request) (username orgId : String) : Option Bool :=
  ((requests.filter fun request => request.username = username && request.orgId = orgId).getLast?).map (·.desired)

theorem run_concat (t : Subscriptions) (requests : List Request) (request : Request) :
    run settings t (requests ++ [request]) = serve settings (run settings t requests) request := by
  rw [run, List.foldl_append]
  rfl

theorem lastDesired_concat (requests : List Request) (request : Request) (username orgId : String) :
    lastDesired (requests ++ [request]) username orgId =
      if (username, orgId) = (request.username, request.orgId) then some request.desired
      else lastDesired requests username orgId := by
  unfold lastDesired
  rw [List.filter_append]
  by_cases hsame : (username, orgId) = (request.username, request.orgId)
  · obtain ⟨rfl, rfl⟩ := Prod.mk.inj hsame
    simp
  · rw [if_neg hsame]
    have hnot : (request.username = username && request.orgId = orgId) = false := by
      rw [Bool.and_eq_false_iff, decide_eq_false_iff_not, decide_eq_false_iff_not, ← not_and_or]
      rintro ⟨rfl, rfl⟩
      exact hsame rfl
    rw [List.filter_singleton, hnot]
    simp

/-- Every request is served, and at any time a user is subscribed in an org as the last request of theirs asks, or as
in the beginning. -/
structure Faithful (settings : Settings) (t : Subscriptions) (requests : List Request) : Prop where
  served : ∀ before request after, requests = before ++ request :: after →
    Served settings (run settings t before) request
  last : ∀ before after, requests = before ++ after → ∀ username orgId,
    (status (run settings t before) username orgId).isSome =
      (lastDesired before username orgId).getD (status t username orgId).isSome

theorem last_of_served
    (h : ∀ before request after, requests = before ++ request :: after → Served settings (run settings t before) request)
    {before after : List Request} (heq : requests = before ++ after) (username orgId : String) :
    (status (run settings t before) username orgId).isSome =
      (lastDesired before username orgId).getD (status t username orgId).isSome := by
  induction before using List.reverseRecOn generalizing after with
  | nil => rfl
  | append_singleton before request ih =>
    have hsplit : requests = before ++ request :: after := by simpa using heq
    have hserved := h before request after hsplit
    rw [run_concat, lastDesired_concat]
    by_cases hsame : (username, orgId) = (request.username, request.orgId)
    · rw [if_pos hsame]
      obtain ⟨rfl, rfl⟩ := Prod.mk.inj hsame
      exact hserved.stored
    · rw [if_neg hsame, hserved.kept username orgId hsame]
      exact ih hsplit

/-- A history of requests is faithful exactly if each request is clear when it comes. -/
theorem faithful_iff :
    Faithful settings t requests ↔
      ∀ before request after, requests = before ++ request :: after → Clear settings (run settings t before) request := by
  constructor
  · intro h before request after heq
    exact served_iff.mp (h.served before request after heq)
  · intro h
    have hserved : ∀ before request after, requests = before ++ request :: after →
        Served settings (run settings t before) request :=
      fun before request after heq => served_iff.mpr (h before request after heq)
    exact ⟨hserved, fun before after heq => last_of_served hserved heq⟩

end Runs

def sampleSubscribe (view : View) (orgId : String) : Request where
  view
  username := "admin"
  account := none
  orgId
  desired := true

/-- There are two users called admin. The second one cannot subscribe. -/
theorem secondAdmin_refused :
    let settings : Settings := ⟨true, []⟩
    let requests := [sampleSubscribe .subscription "1234", sampleSubscribe .subscription "5678"]
    create settings (sampleSubscribe .subscription "5678") (run settings .empty [sampleSubscribe .subscription "1234"]) =
        .error (.raised .integrityError) ∧
      (run settings .empty requests).rows.map (·.orgId) = ["1234"] ∧ ¬Faithful settings .empty requests := by
  intro settings requests
  refine ⟨rfl, by decide +kernel, fun h => ?_⟩
  have hlast := h.last requests [] (by simp) "admin" "5678"
  have hnone : (status (run settings .empty requests) "admin" "5678").isSome = false := by decide +kernel
  have hdesired : (lastDesired requests "admin" "5678").getD (status .empty "admin" "5678").isSome = true := by
    decide +kernel
  rw [hnone, hdesired] at hlast
  cases hlast

end Advisor.WeeklyReports
