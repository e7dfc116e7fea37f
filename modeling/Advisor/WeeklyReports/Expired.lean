import Mathlib.Data.List.Dedup
import Mathlib.Data.List.Sort
import Mathlib.Data.String.Basic
import Advisor.Access.Grants
import Advisor.Python.Procedure
import Advisor.WeeklyReports.Emails

/-! The weekly report for one organisation after the other: who is emailed, and whose subscription is deleted. -/

namespace Advisor.WeeklyReports

open Python Procedure Django Relational Access

/-- What the user service answers about the users of an org: their details, that there are none, or nothing of use. -/
inductive UserAnswer where
  | accounts (details : Json)
  | notFound
  | failed

inductive MailFailure where
  | validationError
  | rbac (failure : RbacFailure)
  | raised (e : Exception)

/-- The services that are asked, by org and by user; the ids are those of Kessel, `none` where it is not to be asked or
has no answer. -/
structure Services where
  users : String → UserAnswer
  permittedUserIds : String → Option (List String)
  access : String → String → Option Response × Nat
  mailFails : String → Nat → Bool
  clock : String → Nat → Instant

structure MailSettings where
  rbac : RbacSettings
  weeklyReportRbacPermission : String := "advisor:*:*"
  mailRetryAttempts : Nat := 3

structure Systems where
  inventory : Table AdvisorInventoryHost.key
  hosts : Table Host.inventoryId

def Systems.total (systems : Systems) (orgId : String) : Nat :=
  (systems.inventory.rows.filter fun row => row.orgId = orgId && (systems.hosts.get? row.inventoryId).isSome).length

def WeeklyReportSubscription.due (latestEmailTime : Instant) (row : WeeklyReportSubscription) : Bool :=
  match row.lastEmailAt with
  | none => true
  | some time => decide (time < latestEmailTime)

section Users

variable (loads : Loads) (render : Json → String) (settings : MailSettings) (services : Services)

/-- `user_account_details`; not one of its errors is the `Http404` that the caller goes on after. -/
def userAccountDetails : UserAnswer → Except MailFailure Json
  | .accounts details => .ok details
  | .notFound | .failed => .error .validationError

def accountDetailsFor (details : Json) : Except Exception (List (Json × List (String × Json))) := do
  (← iterate details).mapM fun data => do
    let username ← data.item "username"
    if !username.hashable then throw .typeError
    match data with
    | .dict items => return (username, items)
    | _ => throw .typeError

/-- Of several entries with one name the last counts. -/
def accountOf (details : List (Json × List (String × Json))) (username : String) : Option (List (String × Json)) :=
  ((details.filter fun entry => entry.1.eq (.str username)).getLast?).map Prod.snd

def str : Json → String
  | .str text => text
  | value => render value

def userHasPermission (row : WeeklyReportSubscription) (account : List (String × Json)) : Except MailFailure Bool :=
  match services.permittedUserIds row.orgId with
  | some permitted =>
    match account.lookup "id" with
    | some id => .ok (permitted.contains (str render id))
    | none => .ok false
  | none =>
    ((hasRbacPermission loads settings.rbac (services.access row.orgId row.username)
      settings.weeklyReportRbacPermission).map (·.granted)).mapError .rbac

def isActive (account : List (String × Json)) : Bool := (account.lookup "is_active").any Json.truthy

def addressOf (account : List (String × Json)) : Json :=
  Json.or ((account.lookup "address_string").getD .null) ((account.lookup "email").getD .null)

/-- The loop over the subscriptions: a user to email, or one whose subscription has expired. -/
def considerUser (details : List (Json × List (String × Json))) (row : WeeklyReportSubscription) :
    Except MailFailure (Option EmailUser) :=
  match accountOf details row.username with
  | none => .ok none
  | some account =>
    if !isActive account then .ok none
    else do
      if !(← userHasPermission loads render settings services row account) then return none
      if (addressOf account).truthy then return some { account, subscription := row, address := addressOf account }
      else return none

def dueRows (latestEmailTime : Instant) (orgId : String) (t : Subscriptions) : List WeeklyReportSubscription :=
  t.rows.filter fun row => row.orgId = orgId && row.due latestEmailTime

def getUsersToEmail (latestEmailTime : Instant) (orgId : String) (t : Subscriptions) :
    Except MailFailure (List EmailUser × List String) := do
  let answer ← userAccountDetails (services.users orgId)
  let details ← (accountDetailsFor answer).mapError .raised
  let considered ← (dueRows latestEmailTime orgId t).mapM fun row => do
    return (row.username, ← considerUser loads render settings services details row)
  return (considered.filterMap Prod.snd, (considered.filter fun entry => entry.2.isNone).map Prod.fst)

end Users

section Orgs

variable (loads : Loads) (render : Json → String) (settings : MailSettings) (services : Services) (systems : Systems)
  (latestEmailTime : Instant) (deleteExpiredUsers : Bool)

abbrev Mailing (α : Type) := Procedure MailFailure Subscriptions α

def deleteExpired (orgId : String) (expired : List String) : Mailing Unit :=
  if !expired.isEmpty && deleteExpiredUsers then
    write fun t => t.deleteWhere fun row => row.orgId = orgId && expired.contains row.username
  else pure ()

/-- One turn of the loop of `handle_emails`: the users that are sent the report, and those that are not. -/
def handleOrg (orgId : String) : Mailing (Nat × Nat) := fun t =>
  match getUsersToEmail loads render settings services latestEmailTime orgId t with
  | .error e => (.error e, t)
  | .ok (usersToEmail, expiredUsers) =>
    if usersToEmail.isEmpty then (.ok (0, 0), t)
    else if systems.total orgId = 0 then (.ok (0, 0), t)
    else
      let sending := sendEmails (services.mailFails orgId) (services.clock orgId) settings.mailRetryAttempts usersToEmail t
      (do
        deleteExpired deleteExpiredUsers orgId expiredUsers
        return (sending.usersSuccess.length, sending.usersToEmail.length)) sending.subscriptions

def handleOrgs : List String → Mailing (Nat × Nat)
  | [] => pure (0, 0)
  | orgId :: rest => do
    let (success, failed) ← handleOrg loads render settings services systems latestEmailTime deleteExpiredUsers orgId
    let (totalSuccess, totalFailed) ← handleOrgs rest
    return (success + totalSuccess, failed + totalFailed)

def getAccountOrgs (orgFilter : String → Bool) (t : Subscriptions) : List String :=
  (((t.rows.filter fun row => orgFilter row.orgId && row.due latestEmailTime).map (·.orgId)).dedup).insertionSort (· ≤ ·)

def handleEmails (orgFilter : String → Bool) : Mailing (Nat × Nat) := do
  let orgs ← Procedure.read (getAccountOrgs latestEmailTime orgFilter)
  handleOrgs loads render settings services systems latestEmailTime deleteExpiredUsers orgs

end Orgs

section Rejected

variable (loads : Loads) (render : Json → String) (settings : MailSettings) (services : Services) (systems : Systems)
  (latestEmailTime : Instant)

def unanswered : Option Response → Bool
  | none => true
  | some response => decide (500 ≤ response.statusCode)

/-- The permissions are those of the access service, and that cannot be reached. -/
def Unreached (row : WeeklyReportSubscription) : Prop :=
  services.permittedUserIds row.orgId = none ∧ unanswered (services.access row.orgId row.username).1 = true

def detailsOf (orgId : String) : Option (List (Json × List (String × Json))) :=
  ((userAccountDetails (services.users orgId)).toOption).bind fun answer => (accountDetailsFor answer).toOption

def HasAccount (row : WeeklyReportSubscription) (account : List (String × Json)) : Prop :=
  ∃ details, detailsOf services row.orgId = some details ∧ accountOf details row.username = some account

def Gone (row : WeeklyReportSubscription) : Prop :=
  services.users row.orgId = .notFound ∨
    ∃ details, detailsOf services row.orgId = some details ∧ accountOf details row.username = none

/-- The user is gone, inactive, without permission or without address. -/
inductive Rejected (row : WeeklyReportSubscription) : Prop where
  | gone : Gone services row → Rejected row
  | inactive (account) : HasAccount services row account → isActive account = false → Rejected row
  | denied (account) : HasAccount services row account →
      userHasPermission loads render settings services row account = .ok false → ¬ Unreached services row → Rejected row
  | addressless (account) : HasAccount services row account → (addressOf account).truthy = false → Rejected row

/-- Only for want of an answer the user has no permission. -/
def RefusedUnreached (row : WeeklyReportSubscription) : Prop :=
  ∃ account, HasAccount services row account ∧ isActive account = true ∧ (addressOf account).truthy = true ∧
    userHasPermission loads render settings services row account = .ok false ∧ Unreached services row

def Mailable (row : WeeklyReportSubscription) : Prop :=
  ∃ account, HasAccount services row account ∧ isActive account = true ∧
    userHasPermission loads render settings services row account = .ok true ∧ (addressOf account).truthy = true

/-- There are no details of the users of the org, or the permission of one of them is not decided. -/
def Breaks (t : Subscriptions) (orgId : String) : Prop :=
  detailsOf services orgId = none ∨ ∃ row ∈ dueRows latestEmailTime orgId t, ∃ account, HasAccount services row account ∧
    isActive account = true ∧ ∃ e, userHasPermission loads render settings services row account = .error e

def Emailed (t : Subscriptions) (orgId : String) : Prop :=
  (∃ row ∈ dueRows latestEmailTime orgId t, Mailable loads render settings services row) ∧ systems.total orgId ≠ 0

def considered (orgFilter : String → Bool) (row : WeeklyReportSubscription) : Bool :=
  orgFilter row.orgId && row.due latestEmailTime

def Cleared (orgFilter : String → Bool) (t : Subscriptions) (orgId : String) : Prop :=
  (∀ row ∈ t, considered latestEmailTime orgFilter row = true → row.orgId ≤ orgId →
    ¬ Breaks loads render settings services latestEmailTime t row.orgId) ∧
      Emailed loads render settings services systems latestEmailTime t orgId

/-- The subscriptions that are considered are deleted where the user is rejected, and no others are. -/
def Unsubscribes (orgFilter : String → Bool) (t : Subscriptions) : Prop :=
  ∀ row ∈ t, ((handleEmails loads render settings services systems latestEmailTime true orgFilter t).2.get?
      row.username).isNone = true ↔
    considered latestEmailTime orgFilter row = true ∧ Rejected loads render settings services row

end Rejected

section Users

variable {loads : Loads} {render : Json → String} {settings : MailSettings} {services : Services}
  {latestEmailTime : Instant} {t : Subscriptions} {orgId : String} {row : WeeklyReportSubscription}
  {account account' : List (String × Json)} {details : List (Json × List (String × Json))}

theorem detailsOf_eq_some : detailsOf services orgId = some details ↔
    ∃ answer, userAccountDetails (services.users orgId) = .ok answer ∧ accountDetailsFor answer = .ok details := by
  rw [detailsOf]
  cases userAccountDetails (services.users orgId) with
  | error e => simp [Except.toOption]
  | ok answer =>
    cases hanswer : accountDetailsFor answer with
    | error e => simp [Except.toOption, hanswer]
    | ok found => simp [Except.toOption, hanswer]

theorem HasAccount.unique (h : HasAccount services row account) (h' : HasAccount services row account') :
    account = account' := by
  obtain ⟨details, hdetails, haccount⟩ := h
  obtain ⟨details', hdetails', haccount'⟩ := h'
  obtain rfl : details = details' := Option.some.inj (hdetails.symm.trans hdetails')
  exact Option.some.inj (haccount.symm.trans haccount')

theorem HasAccount.not_gone (h : HasAccount services row account) : ¬ Gone services row := by
  obtain ⟨details, hdetails, haccount⟩ := h
  rintro (hnone | ⟨details', hdetails', hmissing⟩)
  · simp [detailsOf, hnone, userAccountDetails, Except.toOption] at hdetails
  · obtain rfl : details = details' := Option.some.inj (hdetails.symm.trans hdetails')
    rw [haccount] at hmissing
    cases hmissing

theorem RefusedUnreached.not_rejected (h : RefusedUnreached loads render settings services row) :
    ¬ Rejected loads render settings services row := by
  obtain ⟨account, haccount, hactive, haddress, -, hunreached⟩ := h
  intro hrejected
  cases hrejected with
  | gone hgone => exact haccount.not_gone hgone
  | inactive account' haccount' hinactive =>
    rw [haccount.unique haccount', hinactive] at hactive
    cases hactive
  | denied account' _ _ hreached => exact hreached hunreached
  | addressless account' haccount' hnone =>
    rw [haccount.unique haccount', hnone] at haddress
    cases haddress

def Expires (loads : Loads) (render : Json → String) (settings : MailSettings) (services : Services)
    (row : WeeklyReportSubscription) : Prop :=
  Rejected loads render settings services row ∨ RefusedUnreached loads render settings services row

theorem Mailable.not_expires (h : Mailable loads render settings services row) :
    ¬ Expires loads render settings services row := by
  obtain ⟨account, haccount, hactive, hgranted, haddress⟩ := h
  rintro (hrejected | ⟨account', haccount', -, -, hrefused, -⟩)
  · cases hrejected with
    | gone hgone => exact haccount.not_gone hgone
    | inactive account' haccount' hinactive =>
      rw [haccount.unique haccount', hinactive] at hactive
      cases hactive
    | denied account' haccount' hrefused =>
      rw [haccount.unique haccount', hrefused] at hgranted
      cases hgranted
    | addressless account' haccount' hnone =>
      rw [haccount.unique haccount', hnone] at haddress
      cases haddress
  · rw [haccount.unique haccount', hrefused] at hgranted
    cases hgranted

theorem considerUser_error {e : MailFailure} (hdetails : detailsOf services row.orgId = some details)
    (haccount : HasAccount services row account) (hactive : isActive account = true)
    (he : userHasPermission loads render settings services row account = .error e) :
    considerUser loads render settings services details row = .error e := by
  obtain ⟨details', hdetails', hlookup⟩ := haccount
  obtain rfl : details = details' := Option.some.inj (hdetails.symm.trans hdetails')
  simp [considerUser, hlookup, hactive, he, bind, Except.bind]

theorem considerUser_cases (hdetails : detailsOf services row.orgId = some details)
    (h : ∀ account, HasAccount services row account → isActive account = true →
      ∃ granted, userHasPermission loads render settings services row account = .ok granted) :
    (∃ user, considerUser loads render settings services details row = .ok (some user) ∧ user.subscription = row ∧
        Mailable loads render settings services row) ∨
      considerUser loads render settings services details row = .ok none ∧
        Expires loads render settings services row := by
  rw [considerUser]
  cases hlookup : accountOf details row.username with
  | none => exact Or.inr ⟨rfl, Or.inl (.gone (Or.inr ⟨details, hdetails, hlookup⟩))⟩
  | some account =>
    have haccount : HasAccount services row account := ⟨details, hdetails, hlookup⟩
    dsimp only
    cases hactive : isActive account with
    | false => exact Or.inr ⟨rfl, Or.inl (.inactive account haccount hactive)⟩
    | true =>
      obtain ⟨granted, hgranted⟩ := h account haccount hactive
      rw [hgranted]
      cases haddress : (addressOf account).truthy with
      | false =>
        refine Or.inr ⟨?_, Or.inl (.addressless account haccount haddress)⟩
        cases granted <;> rfl
      | true =>
        cases granted with
        | true => exact Or.inl ⟨_, rfl, rfl, account, haccount, hactive, hgranted, haddress⟩
        | false =>
          refine Or.inr ⟨rfl, ?_⟩
          by_cases hunreached : Unreached services row
          · exact Or.inr ⟨account, haccount, hactive, haddress, hgranted, hunreached⟩
          · exact Or.inl (.denied account haccount hgranted hunreached)

theorem mem_dueRows : row ∈ dueRows latestEmailTime orgId t ↔
    row ∈ t ∧ row.orgId = orgId ∧ row.due latestEmailTime = true := by
  simp [dueRows, Table.mem_def]

/-- What the loop over the subscriptions of an org makes of them. -/
structure Considered (loads : Loads) (render : Json → String) (settings : MailSettings) (services : Services)
    (rows : List WeeklyReportSubscription) (users : List EmailUser) (expired : List String) : Prop where
  emailed : ∀ user ∈ users, user.subscription ∈ rows ∧ Mailable loads render settings services user.subscription
  mailed : ∀ row ∈ rows, Mailable loads render settings services row → ∃ user ∈ users, user.subscription = row
  expired : ∀ name, name ∈ expired ↔ ∃ row ∈ rows, row.username = name ∧ Expires loads render settings services row

theorem getUsersToEmail_of_breaks (h : Breaks loads render settings services latestEmailTime t orgId) :
    ∃ e, getUsersToEmail loads render settings services latestEmailTime orgId t = .error e := by
  cases hresult : getUsersToEmail loads render settings services latestEmailTime orgId t with
  | error e => exact ⟨e, rfl⟩
  | ok result =>
    rw [getUsersToEmail, bind_eq_ok] at hresult
    obtain ⟨answer, hanswer, hresult⟩ := hresult
    obtain ⟨details, hdetails, hresult⟩ := bind_eq_ok.mp hresult
    obtain ⟨considered, hconsidered, -⟩ := bind_eq_ok.mp hresult
    have hfound : detailsOf services orgId = some details :=
      detailsOf_eq_some.mpr ⟨answer, hanswer, mapError_eq_ok.mp hdetails⟩
    rcases h with hnone | ⟨row, hrow, account, haccount, hactive, e, he⟩
    · rw [hnone] at hfound
      cases hfound
    · obtain ⟨entry, hentry⟩ := mapM_isOk ⟨considered, hconsidered⟩ row hrow
      rw [← (mem_dueRows.mp hrow).2.1] at hfound
      rw [considerUser_error hfound haccount hactive he] at hentry
      cases hentry

theorem getUsersToEmail_spec (h : ¬ Breaks loads render settings services latestEmailTime t orgId) :
    ∃ users expired, getUsersToEmail loads render settings services latestEmailTime orgId t = .ok (users, expired) ∧
      Considered loads render settings services (dueRows latestEmailTime orgId t) users expired := by
  rw [Breaks, not_or] at h
  obtain ⟨hsome, hdecided⟩ := h
  obtain ⟨details, hdetails⟩ := Option.ne_none_iff_exists'.mp hsome
  have hcases : ∀ row ∈ dueRows latestEmailTime orgId t,
      (∃ user, considerUser loads render settings services details row = .ok (some user) ∧ user.subscription = row ∧
          Mailable loads render settings services row) ∨
        considerUser loads render settings services details row = .ok none ∧
          Expires loads render settings services row := by
    intro row hrow
    refine considerUser_cases ((mem_dueRows.mp hrow).2.1 ▸ hdetails) fun account haccount hactive => ?_
    cases hpermission : userHasPermission loads render settings services row account with
    | ok granted => exact ⟨granted, rfl⟩
    | error e => exact absurd ⟨row, hrow, account, haccount, hactive, e, hpermission⟩ hdecided
  obtain ⟨considered, hconsidered⟩ : ∃ considered, (dueRows latestEmailTime orgId t).mapM (fun row => do
      return (row.username, ← considerUser loads render settings services details row)) =
        (.ok considered : Except MailFailure _) := by
    refine mapM_of_isOk fun row hrow => ?_
    rcases hcases row hrow with ⟨user, hok, -⟩ | ⟨hok, -⟩
    · exact ⟨_, by rw [hok]; rfl⟩
    · exact ⟨_, by rw [hok]; rfl⟩
  have hmem : ∀ name user?, (name, user?) ∈ considered ↔ ∃ row ∈ dueRows latestEmailTime orgId t,
      row.username = name ∧ considerUser loads render settings services details row = .ok user? := by
    intro name user?
    rw [mapM_mem hconsidered]
    refine exists_congr fun row => and_congr_right fun _ => ?_
    cases considerUser loads render settings services details row with
    | error e => simp [bind, Except.bind]
    | ok found => simp [bind, Except.bind, pure, Except.pure]
  obtain ⟨answer, hanswer, hfound⟩ := detailsOf_eq_some.mp hdetails
  refine ⟨considered.filterMap Prod.snd, (considered.filter fun entry => entry.2.isNone).map Prod.fst, ?_, ?_, ?_, ?_⟩
  · exact bind_eq_ok.mpr ⟨answer, hanswer, bind_eq_ok.mpr ⟨details, mapError_eq_ok.mpr hfound,
      bind_eq_ok.mpr ⟨considered, hconsidered, rfl⟩⟩⟩
  · intro user huser
    obtain ⟨⟨name, user?⟩, hin, rfl⟩ := List.mem_filterMap.mp huser
    obtain ⟨row, hrow, -, hok⟩ := (hmem _ _).mp hin
    rcases hcases row hrow with ⟨user', hok', hsubscription, hmailable⟩ | ⟨hok', -⟩
    · rw [hok'] at hok
      obtain rfl := Option.some.inj (Except.ok.inj hok)
      exact ⟨hsubscription ▸ hrow, hsubscription ▸ hmailable⟩
    · rw [hok'] at hok
      cases hok
  · intro row hrow hmailable
    rcases hcases row hrow with ⟨user, hok, hsubscription, -⟩ | ⟨-, hexpires⟩
    · exact ⟨user, List.mem_filterMap.mpr ⟨(row.username, some user), (hmem _ _).mpr ⟨row, hrow, rfl, hok⟩, rfl⟩,
        hsubscription⟩
    · exact absurd hexpires hmailable.not_expires
  · intro name
    simp only [List.mem_map, List.mem_filter]
    constructor
    · rintro ⟨⟨name, user?⟩, ⟨hin, hnone⟩, rfl⟩
      obtain rfl : user? = none := Option.isNone_iff_eq_none.mp hnone
      obtain ⟨row, hrow, hname, hok⟩ := (hmem _ _).mp hin
      rcases hcases row hrow with ⟨user, hok', -⟩ | ⟨-, hexpires⟩
      · rw [hok'] at hok
        cases hok
      · exact ⟨row, hrow, hname, hexpires⟩
    · rintro ⟨row, hrow, hname, hexpires⟩
      rcases hcases row hrow with ⟨user, -, -, hmailable⟩ | ⟨hok, -⟩
      · exact absurd hexpires hmailable.not_expires
      · exact ⟨(name, none), ⟨(hmem _ _).mpr ⟨row, hrow, hname, hok⟩, rfl⟩, rfl⟩

end Users

section Orgs

variable {loads : Loads} {render : Json → String} {settings : MailSettings} {services : Services} {systems : Systems}
  {latestEmailTime : Instant} {t t' : Subscriptions} {orgId other : String} {row : WeeklyReportSubscription}

/-- The table after the deletions of an org: what they leave, and that no row of another org is touched. -/
structure Settled (loads : Loads) (render : Json → String) (settings : MailSettings) (services : Services)
    (latestEmailTime : Instant) (orgId : String) (t t' : Subscriptions) : Prop where
  beside : ∀ username, (∀ row, t.get? username = some row → row.orgId ≠ orgId) →
    t'.get? username = t.get? username
  deleted : ∀ row ∈ t, row.orgId = orgId → row.due latestEmailTime = true →
    Expires loads render settings services row → t'.get? row.username = none
  kept : ∀ row ∈ t, row.orgId = orgId →
    ¬ (row.due latestEmailTime = true ∧ Expires loads render settings services row) →
      ∃ time, t'.get? row.username = some { row with lastEmailAt := time }

theorem saves_beside {turns : List Turn} {username : String}
    (h : ∀ turn ∈ turns, turn.user.subscription.username ≠ username) :
    (turns.foldl Turn.save t).get? username = t.get? username := by
  induction turns using List.reverseRecOn with
  | nil => rfl
  | append_singleton turns turn ih =>
    have hother : turn.user.subscription.username ≠ username := h turn (by simp)
    rw [List.foldl_append, List.foldl_cons, List.foldl_nil, Turn.get?_save, if_neg fun hname => hother hname.2]
    exact ih fun earlier hearlier => h earlier (by simp [hearlier])

theorem deleteWhere_settled {turns : List Turn} {users : List EmailUser} {expired : List String}
    (hconsidered : Considered loads render settings services (dueRows latestEmailTime orgId t) users expired)
    (husers : turns.map Turn.user = users) :
    Settled loads render settings services latestEmailTime orgId t ((turns.foldl Turn.save t).deleteWhere fun row =>
      row.orgId = orgId && expired.contains row.username) := by
  have hexpired : ∀ row ∈ t, row.orgId = orgId → (row.username ∈ expired ↔
      row.due latestEmailTime = true ∧ Expires loads render settings services row) := by
    intro row hrow horg
    rw [hconsidered.expired]
    constructor
    · rintro ⟨found, hfound, hname, hexpires⟩
      obtain ⟨hin, -, hdue⟩ := mem_dueRows.mp hfound
      obtain rfl := t.key_injOn hin hrow hname
      exact ⟨hdue, hexpires⟩
    · exact fun ⟨hdue, hexpires⟩ => ⟨row, mem_dueRows.mpr ⟨hrow, horg, hdue⟩, rfl, hexpires⟩
  refine ⟨fun username hothers => ?_, fun row hrow horg hdue hexpires => ?_, fun row hrow horg hnot => ?_⟩
  · rw [Table.get?_deleteWhere, saves_beside]
    · cases hget : t.get? username with
      | none => rfl
      | some row => simp [hothers row hget]
    · intro turn hturn hname
      have hin : turn.user ∈ users := husers ▸ List.mem_map_of_mem hturn
      obtain ⟨hrow, horg, -⟩ := mem_dueRows.mp (hconsidered.emailed _ hin).1
      exact hothers _ (Table.get?_eq_some.mpr ⟨hrow, hname⟩) horg
  · obtain ⟨time, htime⟩ := stored_saves turns (Table.mem_iff_get?.mp hrow)
    have hname := (hexpired row hrow horg).mpr ⟨hdue, hexpires⟩
    rw [Table.get?_deleteWhere, htime]
    simp [horg, hname]
  · obtain ⟨time, htime⟩ := stored_saves turns (Table.mem_iff_get?.mp hrow)
    have hname := mt (hexpired row hrow horg).mp hnot
    rw [Table.get?_deleteWhere, htime]
    exact ⟨time, by simp [hname]⟩

theorem handleOrg_of_breaks (h : Breaks loads render settings services latestEmailTime t orgId) :
    ∃ e, handleOrg loads render settings services systems latestEmailTime true orgId t = (.error e, t) := by
  obtain ⟨e, he⟩ := getUsersToEmail_of_breaks h
  exact ⟨e, by rw [handleOrg, he]⟩

theorem handleOrg_of_idle (h : ¬ Breaks loads render settings services latestEmailTime t orgId)
    (hidle : ¬ Emailed loads render settings services systems latestEmailTime t orgId) :
    ∃ sent, handleOrg loads render settings services systems latestEmailTime true orgId t = (.ok sent, t) := by
  obtain ⟨users, expired, hok, hconsidered⟩ := getUsersToEmail_spec h
  rw [handleOrg, hok]
  dsimp only
  cases users with
  | nil => exact ⟨_, rfl⟩
  | cons user users =>
    have hsystems : systems.total orgId = 0 := by
      by_contra hne
      exact hidle ⟨⟨_, hconsidered.emailed user (by simp)⟩, hne⟩
    exact ⟨(0, 0), by simp [hsystems]⟩

theorem handleOrg_of_emailed (h : ¬ Breaks loads render settings services latestEmailTime t orgId)
    (hemailed : Emailed loads render settings services systems latestEmailTime t orgId) :
    ∃ sent t', handleOrg loads render settings services systems latestEmailTime true orgId t = (.ok sent, t') ∧
      Settled loads render settings services latestEmailTime orgId t t' := by
  obtain ⟨users, expired, hok, hconsidered⟩ := getUsersToEmail_spec h
  obtain ⟨⟨row, hrow, hmailable⟩, hsystems⟩ := hemailed
  obtain ⟨user, huser, -⟩ := hconsidered.mailed row hrow hmailable
  obtain ⟨turns, husers, -, -, -, -, -, hsaved⟩ :=
    @sendTurns_accounts (services.mailFails orgId) (services.clock orgId) { usersToEmail := users, subscriptions := t }
      settings.mailRetryAttempts users [] (List.Perm.refl users)
  have hsettled := deleteWhere_settled hconsidered husers
  rw [← hsaved] at hsettled
  have hsome : users.isEmpty = false := by simp [List.ne_nil_of_mem huser]
  rw [handleOrg, hok]
  simp only [hsome, hsystems, Bool.false_eq_true, if_false]
  by_cases hexpired : expired.isEmpty = true
  · refine ⟨_, _, by rw [deleteExpired, hexpired]; rfl, ?_⟩
    have hnone : ∀ u : Subscriptions,
        (u.deleteWhere fun row => row.orgId = orgId && expired.contains row.username) = u := by
      rintro ⟨rows, hunique⟩
      simp [Table.deleteWhere, List.isEmpty_iff.mp hexpired]
    rwa [hnone] at hsettled
  · refine ⟨_, _, by rw [deleteExpired]; simp only [Bool.not_eq_true] at hexpired; rw [hexpired]; rfl, hsettled⟩

theorem Settled.old_row (h : Settled loads render settings services latestEmailTime orgId t t') (hrow : row ∈ t')
    (hother : row.orgId ≠ orgId) : row ∈ t := by
  rw [Table.mem_iff_get?] at hrow ⊢
  by_cases hbeside : ∀ old, t.get? row.username = some old → old.orgId ≠ orgId
  · rwa [h.beside row.username hbeside] at hrow
  · push Not at hbeside
    obtain ⟨old, hold, horg⟩ := hbeside
    obtain ⟨hin, hname⟩ := Table.get?_eq_some.mp hold
    rw [← hname] at hrow
    by_cases hexpires : old.due latestEmailTime = true ∧ Expires loads render settings services old
    · rw [h.deleted old hin horg hexpires.1 hexpires.2] at hrow
      cases hrow
    · obtain ⟨time, htime⟩ := h.kept old hin horg hexpires
      rw [htime] at hrow
      exact absurd (Option.some.inj hrow ▸ horg) hother

theorem Settled.new_row (h : Settled loads render settings services latestEmailTime orgId t t') (hrow : row ∈ t)
    (hother : row.orgId ≠ orgId) : row ∈ t' := by
  rw [Table.mem_iff_get?] at hrow ⊢
  rw [h.beside row.username, hrow]
  intro old hold
  obtain rfl := Option.some.inj (hrow.symm.trans hold)
  exact hother

theorem Settled.mem_dueRows_iff (h : Settled loads render settings services latestEmailTime orgId t t')
    (hother : other ≠ orgId) :
    row ∈ dueRows latestEmailTime other t' ↔ row ∈ dueRows latestEmailTime other t := by
  rw [mem_dueRows, mem_dueRows]
  constructor
  · rintro ⟨hrow, rfl, hdue⟩
    exact ⟨h.old_row hrow hother, rfl, hdue⟩
  · rintro ⟨hrow, rfl, hdue⟩
    exact ⟨h.new_row hrow hother, rfl, hdue⟩

theorem Settled.breaks_iff (h : Settled loads render settings services latestEmailTime orgId t t')
    (hother : other ≠ orgId) :
    Breaks loads render settings services latestEmailTime t' other ↔
      Breaks loads render settings services latestEmailTime t other := by
  simp only [Breaks, h.mem_dueRows_iff hother]

theorem Settled.emailed_iff (h : Settled loads render settings services latestEmailTime orgId t t')
    (hother : other ≠ orgId) :
    Emailed loads render settings services systems latestEmailTime t' other ↔
      Emailed loads render settings services systems latestEmailTime t other := by
  simp only [Emailed, h.mem_dueRows_iff hother]

def Reaches (loads : Loads) (render : Json → String) (settings : MailSettings) (services : Services)
    (latestEmailTime : Instant) (t : Subscriptions) : List String → String → Prop
  | [], _ => False
  | first :: rest, orgId => ¬ Breaks loads render settings services latestEmailTime t first ∧
      (orgId = first ∨ Reaches loads render settings services latestEmailTime t rest orgId)

theorem Reaches.mem {orgs : List String} (h : Reaches loads render settings services latestEmailTime t orgs orgId) :
    orgId ∈ orgs := by
  induction orgs with
  | nil => exact h.elim
  | cons first rest ih =>
    rcases h.2 with rfl | hrest
    · exact List.mem_cons_self
    · exact List.mem_cons_of_mem first (ih hrest)

theorem Settled.reaches_iff (h : Settled loads render settings services latestEmailTime orgId t t')
    {orgs : List String} (horgs : orgId ∉ orgs) :
    Reaches loads render settings services latestEmailTime t' orgs other ↔
      Reaches loads render settings services latestEmailTime t orgs other := by
  induction orgs with
  | nil => exact Iff.rfl
  | cons first rest ih =>
    rw [List.mem_cons, not_or] at horgs
    rw [Reaches, Reaches, h.breaks_iff (Ne.symm horgs.1), ih horgs.2]

theorem reaches_sorted {orgs : List String} (hsorted : orgs.Pairwise (· < ·)) :
    Reaches loads render settings services latestEmailTime t orgs orgId ↔
      orgId ∈ orgs ∧ ∀ first ∈ orgs, first ≤ orgId → ¬ Breaks loads render settings services latestEmailTime t first := by
  induction orgs with
  | nil => simp [Reaches]
  | cons first rest ih =>
    obtain ⟨hfirst, hrest⟩ := List.pairwise_cons.mp hsorted
    rw [Reaches, ih hrest, List.mem_cons, List.forall_mem_cons]
    constructor
    · rintro ⟨hbreaks, rfl | ⟨hin, hbefore⟩⟩
      · exact ⟨Or.inl rfl, fun _ => hbreaks, fun other hother hle => absurd (hfirst other hother) (not_lt.mpr hle)⟩
      · exact ⟨Or.inr hin, fun _ => hbreaks, hbefore⟩
    · rintro ⟨rfl | hin, hbreaks, hbefore⟩
      · exact ⟨hbreaks le_rfl, Or.inl rfl⟩
      · exact ⟨hbreaks (hfirst orgId hin).le, Or.inr ⟨hin, hbefore⟩⟩

theorem handleOrg_cases (loads : Loads) (render : Json → String) (settings : MailSettings) (services : Services)
    (systems : Systems) (latestEmailTime : Instant) (t : Subscriptions) (orgId : String) :
    (Breaks loads render settings services latestEmailTime t orgId ∧
        ∃ e, handleOrg loads render settings services systems latestEmailTime true orgId t = (.error e, t)) ∨
      ¬ Breaks loads render settings services latestEmailTime t orgId ∧
        ((¬ Emailed loads render settings services systems latestEmailTime t orgId ∧
            ∃ sent, handleOrg loads render settings services systems latestEmailTime true orgId t = (.ok sent, t)) ∨
          Emailed loads render settings services systems latestEmailTime t orgId ∧
            ∃ sent t', handleOrg loads render settings services systems latestEmailTime true orgId t = (.ok sent, t') ∧
              Settled loads render settings services latestEmailTime orgId t t') := by
  by_cases hbreaks : Breaks loads render settings services latestEmailTime t orgId
  · exact Or.inl ⟨hbreaks, handleOrg_of_breaks hbreaks⟩
  · by_cases hemailed : Emailed loads render settings services systems latestEmailTime t orgId
    · exact Or.inr ⟨hbreaks, Or.inr ⟨hemailed, handleOrg_of_emailed hbreaks hemailed⟩⟩
    · exact Or.inr ⟨hbreaks, Or.inl ⟨hemailed, handleOrg_of_idle hbreaks hemailed⟩⟩

theorem handleOrgs_snd {first : String} {rest : List String} {sent : Nat × Nat}
    (h : handleOrg loads render settings services systems latestEmailTime true first t = (.ok sent, t')) :
    (handleOrgs loads render settings services systems latestEmailTime true (first :: rest) t).2 =
      (handleOrgs loads render settings services systems latestEmailTime true rest t').2 := by
  rw [handleOrgs, bind_of_ok h]
  dsimp only
  rcases hrest : handleOrgs loads render settings services systems latestEmailTime true rest t' with ⟨e | total, u⟩
  · rw [bind_of_error hrest]
  · rw [bind_of_ok hrest]
    rfl

theorem handleOrgs_of_missing {orgs : List String} {username : String} (h : t.get? username = none) :
    (handleOrgs loads render settings services systems latestEmailTime true orgs t).2.get? username = none := by
  induction orgs generalizing t with
  | nil => exact h
  | cons first rest ih =>
    rcases handleOrg_cases loads render settings services systems latestEmailTime t first with
      ⟨-, e, he⟩ | ⟨-, ⟨-, sent, hsent⟩ | ⟨-, sent, t', hsent, hsettled⟩⟩
    · rw [handleOrgs, bind_of_error he]
      exact h
    · rw [handleOrgs_snd hsent]
      exact ih h
    · rw [handleOrgs_snd hsent]
      refine ih ?_
      rw [hsettled.beside username (by simp [h]), h]

theorem handleOrgs_deleted {orgs : List String} (horgs : orgs.Nodup) (hrow : row ∈ t) :
    ((handleOrgs loads render settings services systems latestEmailTime true orgs t).2.get?
        row.username).isNone = true ↔
      (Reaches loads render settings services latestEmailTime t orgs row.orgId ∧
          Emailed loads render settings services systems latestEmailTime t row.orgId) ∧
        row.due latestEmailTime = true ∧ Expires loads render settings services row := by
  have hget : (t.get? row.username).isNone = false := by
    rw [Table.mem_iff_get?.mp hrow]
    rfl
  induction orgs generalizing t row with
  | nil =>
    show (t.get? row.username).isNone = true ↔ _
    simp [hget, Reaches]
  | cons first rest ih =>
    obtain ⟨hfirst, hrest⟩ := List.nodup_cons.mp horgs
    rcases handleOrg_cases loads render settings services systems latestEmailTime t first with
      ⟨hbreaks, e, he⟩ | ⟨hbreaks, ⟨hidle, sent, hsent⟩ | ⟨hemailed, sent, t', hsent, hsettled⟩⟩
    · rw [handleOrgs, bind_of_error he]
      simp [hget, Reaches, hbreaks]
    · rw [handleOrgs_snd hsent, Reaches]
      refine (ih hrest hrow hget).trans ?_
      constructor
      · rintro ⟨⟨hreaches, hemailed⟩, hexpires⟩
        exact ⟨⟨⟨hbreaks, Or.inr hreaches⟩, hemailed⟩, hexpires⟩
      · rintro ⟨⟨⟨-, heq | hreaches⟩, hemailed⟩, hexpires⟩
        · exact absurd (heq ▸ hemailed) hidle
        · exact ⟨⟨hreaches, hemailed⟩, hexpires⟩
    · rw [handleOrgs_snd hsent, Reaches]
      by_cases horg : row.orgId = first
      · by_cases hexpires : row.due latestEmailTime = true ∧ Expires loads render settings services row
        · rw [handleOrgs_of_missing (hsettled.deleted row hrow horg hexpires.1 hexpires.2)]
          simp [hbreaks, horg, hemailed, hexpires]
        · obtain ⟨time, htime⟩ := hsettled.kept row hrow horg hexpires
          have hnew : { row with lastEmailAt := time } ∈ t' := by
            rw [Table.mem_iff_get?]
            exact htime
          have hdeleted := ih hrest hnew (by rw [htime]; rfl)
          have hout : ¬ Reaches loads render settings services latestEmailTime t' rest row.orgId :=
            fun hreaches => hfirst (horg ▸ hreaches.mem)
          simp only [hout, false_and, iff_false] at hdeleted
          simp [hdeleted, hexpires]
      · have hnew := hsettled.new_row hrow horg
        refine (ih hrest hnew (by rw [Table.mem_iff_get?.mp hnew]; rfl)).trans ?_
        rw [hsettled.reaches_iff hfirst, hsettled.emailed_iff horg]
        simp [hbreaks, horg]

end Orgs

theorem getAccountOrgs_sorted (latestEmailTime : Instant) (orgFilter : String → Bool) (t : Subscriptions) :
    (getAccountOrgs latestEmailTime orgFilter t).Pairwise (· < ·) := by
  have hnodup : (getAccountOrgs latestEmailTime orgFilter t).Nodup :=
    (List.perm_insertionSort _ _).nodup_iff.mpr (List.nodup_dedup _)
  exact (List.pairwise_insertionSort (· ≤ ·) _).imp₂ (fun a b hle hne => lt_of_le_of_ne hle hne) hnodup

theorem mem_getAccountOrgs {latestEmailTime : Instant} {orgFilter : String → Bool} {t : Subscriptions}
    {orgId : String} : orgId ∈ getAccountOrgs latestEmailTime orgFilter t ↔
      ∃ row ∈ t, considered latestEmailTime orgFilter row = true ∧ row.orgId = orgId := by
  rw [getAccountOrgs, List.mem_insertionSort, List.mem_dedup, List.mem_map]
  simp only [List.mem_filter, and_assoc]
  exact Iff.rfl

/-- The rejected users are unsubscribed, and no others, where every org of theirs is come to and has someone who is
emailed, and in such an org nobody is refused for want of an answer. -/
theorem unsubscribes_iff (loads : Loads) (render : Json → String) (settings : MailSettings) (services : Services)
    (systems : Systems) (latestEmailTime : Instant) (orgFilter : String → Bool) (t : Subscriptions) :
    Unsubscribes loads render settings services systems latestEmailTime orgFilter t ↔
      ∀ row ∈ t, considered latestEmailTime orgFilter row = true →
        (Rejected loads render settings services row →
            Cleared loads render settings services systems latestEmailTime orgFilter t row.orgId) ∧
          (Cleared loads render settings services systems latestEmailTime orgFilter t row.orgId →
            ¬ RefusedUnreached loads render settings services row) := by
  have hdeleted : ∀ row ∈ t,
      (((handleEmails loads render settings services systems latestEmailTime true orgFilter t).2.get?
          row.username).isNone = true ↔
        considered latestEmailTime orgFilter row = true ∧
          Cleared loads render settings services systems latestEmailTime orgFilter t row.orgId ∧
            Expires loads render settings services row) := by
    intro row hrow
    rw [handleEmails, read_bind, handleOrgs_deleted ((getAccountOrgs_sorted _ _ _).imp ne_of_lt) hrow,
      reaches_sorted (getAccountOrgs_sorted _ _ _), mem_getAccountOrgs, Cleared]
    constructor
    · rintro ⟨⟨⟨⟨other, hother, hconsidered, horg⟩, hbefore⟩, hemailed⟩, hdue, hexpires⟩
      rw [considered, horg, Bool.and_eq_true] at hconsidered
      refine ⟨by rw [considered, hconsidered.1, hdue]; rfl, ⟨fun first hfirst hin hle => ?_, hemailed⟩, hexpires⟩
      exact hbefore first.orgId (mem_getAccountOrgs.mpr ⟨first, hfirst, hin, rfl⟩) hle
    · rintro ⟨hconsidered, ⟨hbefore, hemailed⟩, hexpires⟩
      have hdue : row.due latestEmailTime = true := (Bool.and_eq_true_iff.mp hconsidered).2
      refine ⟨⟨⟨⟨row, hrow, hconsidered, rfl⟩, fun orgId horg hle => ?_⟩, hemailed⟩, hdue, hexpires⟩
      obtain ⟨first, hfirst, hin, rfl⟩ := mem_getAccountOrgs.mp horg
      exact hbefore first hfirst hin hle
  constructor
  · intro h row hrow hconsidered
    have hrejected := (hdeleted row hrow).symm.trans (h row hrow)
    refine ⟨fun hr => (hrejected.mpr ⟨hconsidered, hr⟩).2.1, fun hcleared hunreached => ?_⟩
    exact hunreached.not_rejected (hrejected.mp ⟨hconsidered, hcleared, Or.inr hunreached⟩).2
  · intro h row hrow
    rw [hdeleted row hrow]
    refine and_congr_right fun hconsidered => ?_
    obtain ⟨hcleared, hreached⟩ := h row hrow hconsidered
    constructor
    · rintro ⟨hc, hr | hunreached⟩
      · exact hr
      · exact absurd hunreached (hreached hc)
    · exact fun hr => ⟨hcleared hr, Or.inl hr⟩

def sampleSubscription (username orgId : String) : WeeklyReportSubscription := { username, account := none, orgId }

def sampleAccount (username : String) : Json :=
  .dict [("username", .str username), ("is_active", .bool true), ("email", .str "user@example.com")]

/-- The users of one org are there; the access service knows one of them, and has no answer about the other. Of the users
of any other org there are none. -/
def sampleServices : Services where
  users orgId := if orgId = "1234" then .accounts (.list [sampleAccount "ada", sampleAccount "bob"]) else .accounts (.list [])
  permittedUserIds _ := none
  access _ username :=
    if username = "ada" then (some ⟨200, some (.dict [("data", .list [.dict [("permission", .str "advisor:*:*")]])])⟩, 0)
    else (none, 0)
  mailFails _ _ := false
  clock _ n := n

def sampleSystems : Systems := ⟨.single ⟨"1234", 1, 0, []⟩, .single { inventoryId := 1, account := none, orgId := "1234" }⟩

/-- The only user of an org is gone and stays subscribed; a user is unsubscribed for want of an answer. -/
theorem goneUser_kept_unreached_deleted :
    let settings : MailSettings := { rbac := ⟨true, "http://rbac"⟩ }
    ¬ Unsubscribes (fun _ => none) (fun _ => "") settings sampleServices sampleSystems 0 (fun _ => true)
        (.single (sampleSubscription "eve" "5678")) ∧
      ¬ Unsubscribes (fun _ => none) (fun _ => "") settings sampleServices sampleSystems 0 (fun _ => true)
        ⟨[sampleSubscription "ada" "1234", sampleSubscription "bob" "1234"], by decide⟩ := by
  intro settings
  constructor
  · intro h
    have hdeleted := (h (sampleSubscription "eve" "5678") (Table.mem_single.mpr rfl)).mpr
      ⟨by decide, .gone (Or.inr ⟨[], rfl, rfl⟩)⟩
    revert hdeleted
    decide +kernel
  · intro h
    have hrejected := (h (sampleSubscription "bob" "1234") (by simp [Table.mem_def])).mp (by decide +kernel)
    have hinit : RBACPermission.init (.str "advisor:*:*") = .ok ⟨"advisor:*:*", "advisor", "*", "*"⟩ := by decide
    refine RefusedUnreached.not_rejected ?_ hrejected.2
    refine ⟨[("username", .str "bob"), ("is_active", .bool true), ("email", .str "user@example.com")],
      ⟨_, rfl, by decide⟩, by decide, by decide, ?_, rfl, rfl⟩
    simp only [userHasPermission, sampleServices, hasRbacPermission, settings, hinit]
    rfl

end Advisor.WeeklyReports
