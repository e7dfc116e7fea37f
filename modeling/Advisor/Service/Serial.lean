import Advisor.Service.Concurrent

/-! Uploads and deletes of a host one after the other, and the deletions that make up a delete. -/

namespace Advisor.Service

open Python Procedure Django Relational

variable {settings : Settings} {s : State} {host : Uuid}

def State.database (s : State) : Database := ⟨s.inventory, s.hosts, s.uploads, s.reports, s.hostAcks⟩

namespace HostFilter

variable (f g : HostFilter)

theorem remove_aside (s : State) (hosts : Table Host.inventoryId) (acks : Table Ack.key) (deletion : Deletion) :
    f.remove { s with hosts, acks } deletion = { f.remove s deletion with hosts, acks } := by
  cases deletion <;> rfl

theorem remove_hosts (s : State) (deletion : Deletion) : (f.remove s deletion).hosts = s.hosts := by
  cases deletion <;> rfl

theorem remove_acks (s : State) (deletion : Deletion) : (f.remove s deletion).acks = s.acks := by
  cases deletion <;> rfl

theorem remove_uploads_comm (s : State) :
    f.remove (g.remove s .uploads) .uploads = g.remove (f.remove s .uploads) .uploads := by
  have hreports : ∀ f g : HostFilter, ∀ row : CurrentReport,
      ((s.uploads.get? row.upload).any g.upload || ((s.uploads.deleteWhere g.upload).get? row.upload).any f.upload) =
        ((s.uploads.get? row.upload).any g.upload || (s.uploads.get? row.upload).any f.upload) := by
    intro f g row
    rw [Table.get?_deleteWhere]
    cases s.uploads.get? row.upload with
    | none => rfl
    | some upload =>
      cases hg : g.upload upload with
      | true => simp [hg]
      | false => simp [hg, Option.filter]
  simp only [remove, Table.deleteWhere_comm s.uploads g.upload, Table.deleteWhere_deleteWhere s.reports]
  congr 2
  funext row
  rw [hreports f g, hreports g f, Bool.or_comm]

theorem remove_comm (s : State) (d e : Deletion) : f.remove (g.remove s e) d = g.remove (f.remove s d) e := by
  cases d with
  | uploads =>
    cases e with
    | uploads => exact remove_uploads_comm f g s
    | reports =>
      simp only [remove]
      rw [Table.deleteWhere_comm]
    | hostAcks => rfl
  | reports =>
    cases e with
    | uploads =>
      simp only [remove]
      rw [Table.deleteWhere_comm]
    | reports =>
      simp only [remove]
      rw [Table.deleteWhere_comm]
    | hostAcks => rfl
  | hostAcks =>
    cases e with
    | uploads => rfl
    | reports => rfl
    | hostAcks =>
      simp only [remove]
      rw [Table.deleteWhere_comm]

theorem remove_absent {f : HostFilter} (hs : s.database.Referential) (hf : f.host = some host)
    (habsent : s.hosts.get? host = none) (deletion : Deletion) : f.remove s deletion = s := by
  have hselects : ∀ row orgId, (s.hosts.get? row).isSome → f.selects row orgId = false := by
    intro row orgId hrow
    by_contra hselected
    have hboth : f.host = some row ∧ f.orgId = some orgId := by simpa [selects] using hselected
    obtain rfl : host = row := Option.some.inj (hf.symm.trans hboth.1)
    rw [habsent] at hrow
    cases hrow
  have huploads : ∀ row ∈ s.uploads, f.upload row = false := by
    intro row hrow
    rw [upload, hselects row.host row.orgId (hs.uploads row hrow)]
    rfl
  cases deletion with
  | uploads =>
    have hreports : ∀ row ∈ s.reports, (s.uploads.get? row.upload).any f.upload = false := by
      intro row _
      cases hfound : s.uploads.get? row.upload with
      | none => rfl
      | some found => exact huploads found (Table.get?_eq_some.mp hfound).1
    rw [remove, Table.deleteWhere_of_none huploads, Table.deleteWhere_of_none hreports]
  | reports =>
    have hreports : ∀ row ∈ s.reports, f.report row = false := fun row hrow =>
      hselects row.host row.orgId (hs.reports row hrow)
    rw [remove, Table.deleteWhere_of_none hreports]
  | hostAcks =>
    have hacks : ∀ row ∈ s.hostAcks, f.hostAck row = false := fun row hrow =>
      hselects row.host row.orgId (hs.hostAcks row hrow)
    rw [remove, Table.deleteWhere_of_none hacks]

end HostFilter

/-- Without outages, and where its lines can be logged, a delete event is its three deletions. -/
theorem handleInventoryEvent_serve {lib : Library} {cleanup : CleanupSettings} {items : List (String × Json)}
    {f : HostFilter} (htype : items.lookup "type" = some (.str "delete")) (hf : Filters lib items f)
    (hretry : 0 < cleanup.dbRetryConstant) (hlog : (clash? items).isSome → cleanup.debug = false) (s : State) :
    handleInventoryEvent lib cleanup (fun _ _ => none) (.dict items) s =
      (.ok (), (Call.serve settings (.delete f) s).2) := by
  have hthrough : ∀ deletion, GoesThrough cleanup (fun _ _ => none) items deletion := fun deletion =>
    ⟨0, hretry, rfl, fun h => ⟨rfl, hlog h⟩⟩
  have hprogress : Progress cleanup (fun _ _ => none) items f s
      (handleInventoryEvent lib cleanup (fun _ _ => none) (.dict items) s) := handleInventoryEvent_progress htype hf s
  generalize handleInventoryEvent lib cleanup (fun _ _ => none) (.dict items) s = left at hprogress
  cases hprogress with
  | none hnot => exact absurd (hthrough .uploads) hnot
  | uploads _ hnot => exact absurd (hthrough .reports) hnot
  | reports _ _ hnot => exact absurd (hthrough .hostAcks) hnot
  | all => rfl

theorem serveAll_append (calls : List Call) (call : Call) (s : State) :
    serveAll settings (calls ++ [call]) s =
      ((serveAll settings calls s).1 ++ [(call.serve settings (serveAll settings calls s).2).1],
        (call.serve settings (serveAll settings calls s).2).2) := by
  induction calls generalizing s with
  | nil => rfl
  | cons first rest ih =>
    simp only [List.cons_append, serveAll, ih]

variable (settings) in
theorem underLock_hosts (call : UploadCall) (s : State) : ((underLock settings call).run s).2.hosts = s.hosts :=
  congrArg (fun ended => ended.2.hosts) (natural_underLock settings call s.hosts s)

variable (settings) in
theorem transaction_hosts (call : UploadCall) (s : State) :
    (transaction noFaults (underLock settings call).run s).2.hosts = s.hosts := by
  have hhosts := underLock_hosts settings call s
  unfold transaction
  rcases hrun : (underLock settings call).run s with ⟨e | aborted, own⟩
  · rfl
  · rw [hrun] at hhosts
    cases aborted with
    | true => rfl
    | false => exact hhosts

theorem transaction_over (hosts : Table Host.inventoryId) (result : Except Exception Bool) (own s : State) :
    transaction noFaults (fun _ => (result, own.over hosts)) (s.over hosts) =
      ((transaction noFaults (fun _ => (result, own)) s).1,
        (transaction noFaults (fun _ => (result, own)) s).2.over hosts) := by
  rcases result with e | aborted
  · rfl
  · cases aborted <;> rfl

theorem serve_upload (call : UploadCall) (s : State) :
    Call.serve settings (.upload call) s =
      ((transaction noFaults (underLock settings call).run (s.withHost call)).1.isOk,
        (transaction noFaults (underLock settings call).run (s.withHost call)).2) := by
  rw [Call.serve, createDbReports_underLock]

variable (settings) in
theorem serve_upload_host (call : UploadCall) (s : State)
    (h : s.hosts.get? call.inventoryId = none → call.identified = true) :
    ((Call.serve settings (.upload call) s).2.hosts.get? call.inventoryId).isSome := by
  rw [serve_upload, transaction_hosts]
  exact withHost_host s call h

theorem serve_refused {call : UploadCall} (h : call.identified = false) (s : State) :
    Call.serve settings (.upload call) s = (false, s.withHost call) := by
  obtain ⟨e, hrun⟩ := underLock_refused settings call h (s.withHost call)
  rw [serve_upload, transaction, hrun]
  rfl

theorem withHost_hosts_refused {call : UploadCall} (h : call.identified = false) (s : State) (k : Uuid) :
    ((s.withHost call).hosts.get? k).isSome = (s.hosts.get? k).isSome := by
  cases hfound : s.hosts.get? call.inventoryId with
  | none => rw [withHost_refused hfound h]
  | some found =>
    rw [State.withHost, hfound]
    dsimp only
    split_ifs
    · rw [updateHostRow, Table.get?_updateWhere, Option.isSome_map]
    · rfl

theorem withHost_over_refused {call : UploadCall} (h : call.identified = false) (s : State) :
    s.withHost call = s.over (s.withHost call).hosts := by
  cases hfound : s.hosts.get? call.inventoryId with
  | none =>
    rw [withHost_refused hfound h]
    rfl
  | some found =>
    rw [State.withHost, hfound]
    dsimp only
    split_ifs <;> rfl

theorem serve_host {call : Call} (hon : call.On host) (h : (s.hosts.get? host).isSome) :
    ((call.serve settings s).2.hosts.get? host).isSome := by
  cases call with
  | upload call =>
    subst hon
    exact serve_upload_host settings call s fun hnone => by simp [hnone] at h
  | delete f => exact h

variable (settings) in
theorem serveAll_host {calls : List Call} (hon : ∀ call ∈ calls, call.On host) (h : (s.hosts.get? host).isSome) :
    ((serveAll settings calls s).2.hosts.get? host).isSome := by
  induction calls generalizing s with
  | nil => exact h
  | cons call rest ih =>
    exact ih (fun other hother => hon other (by simp [hother])) (serve_host (hon call (by simp)) h)

/-- As long as the host is not there nothing has been changed, and no upload has been served that could save it. -/
theorem serveAll_absent (hs : s.database.Referential) {calls : List Call} (hon : ∀ call ∈ calls, call.On host)
    (habsent : (serveAll settings calls s).2.hosts.get? host = none) :
    (serveAll settings calls s).2 = s ∧ ∀ call, .upload call ∈ calls → call.identified = false := by
  induction calls with
  | nil => exact ⟨rfl, by simp⟩
  | cons call rest ih =>
    have hrest : ∀ other ∈ rest, other.On host := fun other hother => hon other (by simp [hother])
    have hnot : (call.serve settings s).2.hosts.get? host = none := by
      by_contra hfound
      have hlater := serveAll_host settings hrest (Option.isSome_iff_ne_none.mpr hfound)
      rw [show (serveAll settings rest (call.serve settings s).2).2.hosts.get? host = none from habsent] at hlater
      cases hlater
    have hsame : (call.serve settings s).2 = s ∧ ∀ upload, call = .upload upload → upload.identified = false := by
      cases call with
      | upload call =>
        obtain rfl : call.inventoryId = host := hon (.upload call) (by simp)
        have hrefused : call.identified = false := by
          by_contra hidentified
          have hserved := serve_upload_host settings call s fun _ => by simpa using hidentified
          rw [hnot] at hserved
          cases hserved
        rw [serve_refused hrefused, ← Option.not_isSome_iff_eq_none, withHost_hosts_refused hrefused,
          Option.not_isSome_iff_eq_none] at hnot
        refine ⟨?_, ?_⟩
        · rw [serve_refused hrefused, withHost_refused hnot hrefused]
        · rintro _ ⟨⟩
          exact hrefused
      | delete f =>
        have hf : f.host = some host := hon (.delete f) (by simp)
        refine ⟨?_, fun _ heq => nomatch heq⟩
        show f.remove (f.remove (f.remove s .uploads) .reports) .hostAcks = s
        rw [HostFilter.remove_absent hs hf hnot, HostFilter.remove_absent hs hf hnot,
          HostFilter.remove_absent hs hf hnot]
    have habsent' : (serveAll settings rest s).2.hosts.get? host = none := by
      have hlater : (serveAll settings rest (call.serve settings s).2).2.hosts.get? host = none := habsent
      rwa [hsame.1] at hlater
    obtain ⟨hsame', hrefused⟩ := ih hrest habsent'
    refine ⟨?_, fun upload hupload => ?_⟩
    · show (serveAll settings rest (call.serve settings s).2).2 = s
      rw [hsame.1]
      exact hsame'
    · rcases List.mem_cons.mp hupload with heq | hupload
      · exact hsame.2 upload heq.symm
      · exact hrefused upload hupload

end Advisor.Service
