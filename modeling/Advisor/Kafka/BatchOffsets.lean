import Advisor.Kafka.Dispatcher
import Advisor.Python.Raise

/-! The offsets that batch mode stores and commits: only those of messages that need not be
delivered again, whatever handlers, the client and the broker do. -/

namespace Advisor.Kafka

open Python Streaming

variable (loads : Loads) (handlers : Handlers)

/-- A message that was skipped, or passed to its handler without an exception. -/
def Accounted (history : List Delivery) (message : Message) : Prop :=
  ∃ delivery ∈ history, message ∈ delivery.messages ∧
    (prepareMessage loads handlers message = .ok none ∨
      ∃ calls, delivery.result = .ok calls ∧ ∃ call ∈ calls, message ∈ call.messages ∧
        call.topic = message.topic ∧ call.raised = false)

/-- Messages as the client delivers them: those of one partition with increasing offsets. -/
structure Stream where
  messages : List Message
  ordered : Ordered Message.topicPartition Message.offset (messages.filter fun message => !message.error)

def Stream.start (stream : Stream) : Loop := { incoming := stream.messages }

/-- The turn receives a batch in which something raises. -/
def Fails (s : Loop) (turn : Turn) : Prop :=
  s.quit = false ∧ ∃ n, turn.consume = some n ∧ s.incoming.take n ≠ [] ∧
    ∀ calls, handleBatchMessages loads handlers turn.raises (s.incoming.take n) = .ok calls →
      ∃ call ∈ calls, call.raised = true

variable {loads handlers}

theorem prepareMessage_topic {message : Message} {topic : String} {body : Json}
    (h : prepareMessage loads handlers message = .ok (some (topic, body))) : topic = message.topic := by
  unfold prepareMessage at h
  split at h
  · simp at h
  · split at h
    · simp at h
    · rw [bind_eq_ok] at h
      obtain ⟨headers, -, h⟩ := h
      split at h
      · split at h
        · simp [pure, Except.pure] at h
        · simp only [pure, Except.pure, Except.ok.injEq, Option.map_eq_some_iff, Prod.mk.injEq] at h
          obtain ⟨_, -, htopic, -⟩ := h
          exact htopic.symm
      · simp [pure, Except.pure] at h

theorem mem_prepareAll {messages : List Message} {entries : List Entry}
    (h : prepareAll loads handlers messages = .ok entries) {message : Message} (hm : message ∈ messages) :
    prepareMessage loads handlers message = .ok none ∨
      ∃ entry ∈ entries, entry.message = message ∧ entry.topic = message.topic := by
  induction messages generalizing entries with
  | nil => simp at hm
  | cons first rest ih =>
    rw [prepareAll, bind_eq_ok] at h
    obtain ⟨prepared, hprepared, h⟩ := h
    rw [bind_eq_ok] at h
    obtain ⟨others, hothers, h⟩ := h
    have hsub : ∀ entry ∈ others, entry ∈ entries := by
      intro entry hentry
      cases prepared with
      | none =>
        simp only [pure, Except.pure, Except.ok.injEq] at h
        exact h ▸ hentry
      | some found =>
        simp only [pure, Except.pure, Except.ok.injEq] at h
        exact h ▸ List.mem_cons_of_mem _ hentry
    rcases List.mem_cons.mp hm with rfl | hrest
    · cases prepared with
      | none => exact Or.inl hprepared
      | some found =>
        obtain ⟨topic, body⟩ := found
        simp only [pure, Except.pure, Except.ok.injEq] at h
        refine Or.inr ⟨⟨message, topic, body⟩, by simp [← h], rfl, prepareMessage_topic hprepared⟩
    · rcases ih hothers hrest with hnone | ⟨entry, hentry, hmessage, htopic⟩
      · exact Or.inl hnone
      · exact Or.inr ⟨entry, hsub entry hentry, hmessage, htopic⟩

variable (handlers) in
theorem mem_invocations (group : String × List Entry) {entry : Entry} (h : entry ∈ group.2) :
    ∃ call ∈ invocations handlers group, ∀ raised, entry.message ∈ (call raised).messages ∧
      (call raised).topic = group.1 ∧ (call raised).raised = raised := by
  unfold invocations
  split
  · exact ⟨_, List.mem_singleton.mpr rfl, fun _ => ⟨List.mem_map.mpr ⟨entry, h, rfl⟩, rfl, rfl⟩⟩
  · exact ⟨_, List.mem_map.mpr ⟨entry, h, rfl⟩, fun _ => ⟨by simp, rfl, rfl⟩⟩

theorem accounted_of_success {raises : Nat → Bool} {messages : List Message} {calls : List Call}
    (h : handleBatchMessages loads handlers raises messages = .ok calls) (hsuccess : batchSuccess calls = true)
    {message : Message} (hm : message ∈ messages) :
    prepareMessage loads handlers message = .ok none ∨
      ∃ call ∈ calls, message ∈ call.messages ∧ call.topic = message.topic ∧ call.raised = false := by
  rw [handleBatchMessages, bind_eq_ok] at h
  obtain ⟨entries, hentries, h⟩ := h
  simp only [pure, Except.pure, Except.ok.injEq] at h
  rcases mem_prepareAll hentries hm with hnone | ⟨entry, hentry, hmessage, htopic⟩
  · exact Or.inl hnone
  have hgroup := mem_groupBy Entry.topic hentry
  have hentry' : entry ∈ entries.filter fun e => e.topic = entry.topic := List.mem_filter.mpr ⟨hentry, by simp⟩
  obtain ⟨call, hcall, hspec⟩ := mem_invocations handlers
    (entry.topic, entries.filter fun e => e.topic = entry.topic) hentry'
  have hin := List.mem_flatMap.mpr ⟨_, hgroup, hcall⟩
  obtain ⟨i, hi, hget⟩ := List.mem_iff_getElem.mp hin
  have hmade : call (raises i) ∈ calls := by
    rw [← h, List.mem_mapIdx]
    exact ⟨i, hi, by rw [hget]⟩
  obtain ⟨hsource, hname, -⟩ := hspec (raises i)
  have hquiet := List.all_eq_true.mp hsuccess _ hmade
  exact Or.inr ⟨_, hmade, hmessage ▸ hsource, hname.trans htopic, by simpa using hquiet⟩

theorem storeOffsets_behind {P : Message → Prop} (storeRaises : Message → Bool) {messages : List Message}
    {stored : Positions (String × Nat)} (h : Behind Message.topicPartition Message.offset P stored)
    (hm : ∀ message ∈ messages, message.error = false → P message) :
    Behind Message.topicPartition Message.offset P (storeOffsets storeRaises stored messages).1 := by
  induction messages generalizing stored with
  | nil => exact h
  | cons message rest ih =>
    rw [storeOffsets]
    split
    · exact ih h fun m hmr => hm m (by simp [hmr])
    · rename_i herror
      split
      · exact h
      · exact ih (h.after (hm message (by simp) (by simpa using herror))) fun m hmr => hm m (by simp [hmr])

variable (loads handlers) in
/-- The messages delivered so far are accounted for, except those of the last batch if it
failed; the positions are just after messages of the others. -/
structure Progress (stream : Stream) (s : Loop) (done failed : List Message) : Prop where
  messages : stream.messages = done ++ failed ++ s.incoming
  accounted : ∀ message ∈ done, Accounted loads handlers s.history message
  failed : failed ≠ [] → s.quit = true
  stored : Behind Message.topicPartition Message.offset (fun m => m ∈ done ∧ m.error = false) s.stored
  committed : Behind Message.topicPartition Message.offset (fun m => m ∈ done ∧ m.error = false) s.committed

variable (loads handlers) in
theorem Progress.start (stream : Stream) :
    Progress loads handlers stream stream.start [] [] :=
  ⟨rfl, by simp, by simp, fun _ _ h => by simp [Stream.start] at h, fun _ _ h => by simp [Stream.start] at h⟩

theorem Accounted.mono {history more : List Delivery} {message : Message}
    (h : Accounted loads handlers history message) : Accounted loads handlers (history ++ more) message := by
  obtain ⟨delivery, hd, hm, haccounted⟩ := h
  exact ⟨delivery, List.mem_append_left _ hd, hm, haccounted⟩

theorem Progress.step {stream : Stream} {s : Loop} {done failed : List Message}
    (h : Progress loads handlers stream s done failed) (turn : Turn) :
    ∃ done' failed', Progress loads handlers stream
      (receiveBatch loads handlers s turn) done' failed' := by
  unfold receiveBatch
  by_cases hquit : s.quit = true
  · rw [if_pos hquit]
    exact ⟨done, failed, h⟩
  have hfailed : failed = [] := by
    by_contra hne
    exact hquit (h.failed hne)
  subst hfailed
  have hidle : Progress loads handlers stream { s with quit := turn.quits } done [] :=
    ⟨h.messages, h.accounted, fun hne => absurd rfl hne, h.stored, h.committed⟩
  rw [if_neg hquit]
  cases hconsume : turn.consume with
  | none => exact ⟨done, [], hidle⟩
  | some n =>
    by_cases hempty : (s.incoming.take n).isEmpty = true
    · simp only [hempty, if_true]
      exact ⟨done, [], hidle⟩
    have hmessages : stream.messages = done ++ s.incoming.take n ++ s.incoming.drop n := by
      rw [List.append_assoc, List.take_append_drop, h.messages, List.append_nil]
    have hstopped (result : Except Exception (List Call)) :
        Progress loads handlers stream
          { s with
            incoming := s.incoming.drop n
            history := s.history ++ [Delivery.mk (s.incoming.take n) result]
            quit := true } done (s.incoming.take n) :=
      ⟨hmessages, fun m hm => (h.accounted m hm).mono, fun _ => rfl, h.stored, h.committed⟩
    simp only [hempty, Bool.false_eq_true, if_false]
    cases hresult : handleBatchMessages loads handlers turn.raises (s.incoming.take n) with
    | error e => exact ⟨done, _, hstopped (.error e)⟩
    | ok calls =>
      by_cases hsuccess : batchSuccess calls = true
      · simp only [hsuccess, if_true]
        refine ⟨done ++ s.incoming.take n, [], ?_⟩
        have hmono : ∀ m, (m ∈ done ∧ m.error = false) → m ∈ done ++ s.incoming.take n ∧ m.error = false :=
          fun m hm => ⟨List.mem_append_left _ hm.1, hm.2⟩
        have hstored := storeOffsets_behind turn.storeRaises (h.stored.mono hmono)
          fun m (hm : m ∈ s.incoming.take n) he => ⟨List.mem_append_right _ hm, he⟩
        refine ⟨by rw [List.append_nil]; exact hmessages, fun m hm => ?_, fun hne => absurd rfl hne, hstored, ?_⟩
        · rcases List.mem_append.mp hm with hold | hnew
          · exact (h.accounted m hold).mono
          · refine ⟨⟨s.incoming.take n, .ok calls⟩, by simp, hnew, ?_⟩
            rcases accounted_of_success hresult hsuccess hnew with hskip | hcall
            · exact Or.inl hskip
            · exact Or.inr ⟨calls, rfl, hcall⟩
        · split
          · exact hstored
          · exact h.committed.mono hmono
      · simp only [hsuccess, Bool.false_eq_true, if_false]
        exact ⟨done, _, hstopped (.ok calls)⟩

theorem Progress.run {stream : Stream} {s : Loop} {done failed : List Message}
    (h : Progress loads handlers stream s done failed) (turns : List Turn) :
    ∃ done' failed', Progress loads handlers stream
      (receive loads handlers s turns) done' failed' := by
  induction turns generalizing s done failed with
  | nil => exact ⟨done, failed, h⟩
  | cons turn turns ih =>
    obtain ⟨done', failed', h'⟩ := h.step turn
    exact ih h'

/-- What is not accounted for is delivered again to a consumer that continues from the
committed positions. -/
theorem Progress.redelivers {stream : Stream} {s : Loop} {done failed : List Message}
    (h : Progress loads handlers stream s done failed) {message : Message}
    (hm : message ∈ stream.messages) (herror : message.error = false)
    (hnot : ¬ Accounted loads handlers s.history message) :
    Redelivers Message.topicPartition Message.offset s.committed message := by
  have hordered := stream.ordered
  rw [h.messages, List.append_assoc, List.filter_append] at hordered
  have hrest : message ∈ failed ++ s.incoming := by
    rw [h.messages, List.append_assoc] at hm
    rcases List.mem_append.mp hm with hdone | hrest
    · exact absurd (h.accounted message hdone) hnot
    · exact hrest
  refine h.committed.redelivers (fun m hm => ?_) hordered (List.mem_filter.mpr ⟨hrest, by simp [herror]⟩)
  exact List.mem_filter.mpr ⟨hm.1, by simp [hm.2]⟩

theorem receive_append (s : Loop) (pre post : List Turn) :
    receive loads handlers s (pre ++ post) = receive loads handlers (receive loads handlers s pre) post :=
  List.foldl_append

theorem receive_quit {s : Loop} (h : s.quit = true) (turns : List Turn) : receive loads handlers s turns = s := by
  induction turns with
  | nil => rfl
  | cons turn turns ih =>
    have hturn : receiveBatch loads handlers s turn = s := by rw [receiveBatch, if_pos h]
    rw [receive, List.foldl_cons, hturn]
    exact ih

theorem Fails.receiveBatch {s : Loop} {turn : Turn} (h : Fails loads handlers s turn) :
    (receiveBatch loads handlers s turn).stored = s.stored ∧
      (receiveBatch loads handlers s turn).committed = s.committed ∧
      (receiveBatch loads handlers s turn).quit = true := by
  obtain ⟨hquit, n, hconsume, hne, hraised⟩ := h
  have hempty : (s.incoming.take n).isEmpty = false := by simpa using hne
  simp only [Kafka.receiveBatch, hquit, Bool.false_eq_true, if_false, hconsume, hempty]
  cases hresult : handleBatchMessages loads handlers turn.raises (s.incoming.take n) with
  | error e => simp
  | ok calls =>
    obtain ⟨call, hcall, hr⟩ := hraised calls hresult
    have hfail : batchSuccess calls = false := by
      rw [batchSuccess, List.all_eq_false]
      exact ⟨call, hcall, by simp [hr]⟩
    simp [hfail]

/-- In every run of batch mode the positions are just after accounted messages, a failed batch
is the last one that changes them, and what is not accounted for is delivered again. -/
theorem receive_offsets (stream : Stream) (turns : List Turn) :
    let s := receive loads handlers stream.start turns
    (∀ k n, s.stored k = some n ∨ s.committed k = some n → ∃ message ∈ stream.messages,
      Accounted loads handlers s.history message ∧ message.error = false ∧
        message.topicPartition = k ∧ n = message.offset + 1) ∧
    (∀ pre turn post, turns = pre ++ turn :: post →
      Fails loads handlers (receive loads handlers stream.start pre) turn →
      s.stored = (receive loads handlers stream.start pre).stored ∧
        s.committed = (receive loads handlers stream.start pre).committed) ∧
    ∀ message ∈ stream.messages, message.error = false → ¬ Accounted loads handlers s.history message →
      Redelivers Message.topicPartition Message.offset s.committed message := by
  intro s
  obtain ⟨done, failed, h⟩ := (Progress.start loads handlers stream).run turns
  refine ⟨fun k n hn => ?_, fun pre turn post hturns hfails => ?_, fun message hm herror => h.redelivers hm herror⟩
  · have hbehind : ∃ message, (message ∈ done ∧ message.error = false) ∧ message.topicPartition = k ∧
        n = message.offset + 1 := hn.elim (h.stored k n) (h.committed k n)
    obtain ⟨message, ⟨hdone, herror⟩, hk, hoffset⟩ := hbehind
    exact ⟨message, by rw [h.messages]; simp [hdone], h.accounted message hdone, herror, hk, hoffset⟩
  · obtain ⟨hstored, hcommitted, hquit⟩ := hfails.receiveBatch
    have hs : s = receiveBatch loads handlers (receive loads handlers stream.start pre) turn := by
      have hcons : receive loads handlers stream.start turns =
          receive loads handlers (receiveBatch loads handlers (receive loads handlers stream.start pre) turn) post := by
        rw [hturns, receive_append]
        rfl
      exact hcons.trans (receive_quit hquit post)
    rw [hs]
    exact ⟨hstored, hcommitted⟩

end Advisor.Kafka
