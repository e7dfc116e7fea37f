import Advisor.Kafka.SingleMode

/-! Which messages the dispatcher gets through: those whose headers are text. What a loop receives, in
either mode, is followed past them. -/

namespace Advisor.Kafka

open Python

section Loops

variable (loads : Loads) (handlers : Handlers)

/-- The messages `_receive_single` polls before it ends; an exception of a handler does not end it. -/
def polled (raises : Message → Bool) (quits : Call → Bool) : List Message → List Message
  | [] => []
  | message :: rest =>
    message :: match handleMessage loads handlers (raises message) message with
      | .error _ => []
      | .ok call => if call.any quits then [] else polled raises quits rest

def consumed (raises : List Message → Nat → Bool) (quits : Call → Bool) : List (List Message) → List Message
  | [] => []
  | batch :: rest =>
    batch ++ match handleBatchMessages loads handlers (raises batch) batch with
      | .error _ => []
      | .ok calls => if batchSuccess calls && !calls.any quits then consumed raises quits rest else []

/-- A message gives no trouble: it is prepared, and both loops go on to what comes after it; in a batch it
leaves the outcome to the other messages. -/
structure Undisturbed (message : Message) : Prop where
  prepared : ∃ prepared, prepareMessage loads handlers message = .ok prepared
  polled : ∀ raises rest,
    polled loads handlers raises (fun _ => false) (message :: rest) =
      message :: polled loads handlers raises (fun _ => false) rest
  consumed : ∀ earlier later, (∃ entries, prepareAll loads handlers (earlier ++ later) = .ok entries) → ∀ rest,
    consumed loads handlers (fun _ _ => false) (fun _ => false) ((earlier ++ message :: later) :: rest) =
      earlier ++ message :: later ++ consumed loads handlers (fun _ _ => false) (fun _ => false) rest

def Readable (message : Message) : Prop :=
  message.error = false → (handlers.lookup message.topic).isSome = true →
    ∀ header ∈ message.headers.getD [], ∀ bytes, header.2 = some bytes → bytes ≠ [] → (decodeUtf8 bytes).isSome = true

end Loops

variable {loads : Loads} {handlers : Handlers}

theorem headerDict_isOk {headers : List (String × Option Bytes)} :
    (∃ decoded, headerDict headers = .ok decoded) ↔
      ∀ header ∈ headers, ∀ bytes, header.2 = some bytes → bytes ≠ [] → (decodeUtf8 bytes).isSome = true := by
  have hturns : (∃ decoded, headerDict headers = .ok decoded) ↔
      ∀ header ∈ headers.filter (fun header => header.2.any (· ≠ [])), (decodeUtf8 (header.2.getD [])).isSome = true := by
    rw [headerDict]
    constructor
    · rintro ⟨decoded, h⟩ header hm
      rw [bind_eq_ok] at h
      obtain ⟨found, hfound, -⟩ := h
      obtain ⟨pair, hpair⟩ := mapM_isOk ⟨found, hfound⟩ header hm
      cases htext : decodeUtf8 (header.2.getD []) with
      | none => simp [htext] at hpair
      | some text => rfl
    · intro h
      have hreads : ∀ {α β ε : Type} {x : Except ε α} {g : α → β}, (∃ a, x = .ok a) →
          ∃ b, (x >>= fun a => pure (g a)) = .ok b := by
        rintro α β ε x g ⟨a, rfl⟩
        exact ⟨g a, rfl⟩
      refine hreads (mapM_of_isOk ?_)
      intro header hm
      obtain ⟨text, htext⟩ := Option.isSome_iff_exists.mp (h header hm)
      exact ⟨(header.1, text), by rw [htext]⟩
  rw [hturns]
  constructor
  · intro h header hm bytes hbytes hne
    have hd := h header (List.mem_filter.mpr ⟨hm, by simp [hbytes, hne]⟩)
    rwa [hbytes] at hd
  · intro h header hm
    obtain ⟨hm, hvalue⟩ := List.mem_filter.mp hm
    cases hbytes : header.2 with
    | none => simp [hbytes] at hvalue
    | some bytes => exact h header hm bytes hbytes (by simpa [hbytes] using hvalue)

theorem prepareMessage_isOk {message : Message} :
    (∃ prepared, prepareMessage loads handlers message = .ok prepared) ↔ Readable handlers message := by
  unfold prepareMessage Readable
  by_cases herror : message.error = true
  · simp [herror]
  · rw [if_neg herror]
    cases hentry : handlers.lookup message.topic with
    | none => simp
    | some entry =>
      simp only [herror, Option.isSome_some, forall_const, ← headerDict_isOk]
      constructor
      · rintro ⟨prepared, h⟩
        rw [bind_eq_ok] at h
        obtain ⟨headers, hheaders, -⟩ := h
        exact ⟨headers, hheaders⟩
      · rintro ⟨headers, hheaders⟩
        rw [hheaders]
        simp only [bind, Except.bind]
        split
        · split
          · exact ⟨none, rfl⟩
          · exact ⟨_, rfl⟩
        · exact ⟨none, rfl⟩

theorem handleMessage_isOk {raises : Bool} {message : Message} :
    (∃ call, handleMessage loads handlers raises message = .ok call) ↔
      ∃ prepared, prepareMessage loads handlers message = .ok prepared := by
  unfold handleMessage
  constructor
  · rintro ⟨call, h⟩
    rw [bind_eq_ok] at h
    obtain ⟨prepared, hprepared, -⟩ := h
    exact ⟨prepared, hprepared⟩
  · rintro ⟨prepared, hprepared⟩
    rw [hprepared]
    cases prepared with
    | none => exact ⟨none, rfl⟩
    | some found =>
      simp only [bind, Except.bind]
      split
      · exact ⟨none, rfl⟩
      · exact ⟨_, rfl⟩

theorem prepareAll_isOk {messages : List Message} :
    (∃ entries, prepareAll loads handlers messages = .ok entries) ↔
      ∀ message ∈ messages, ∃ prepared, prepareMessage loads handlers message = .ok prepared := by
  induction messages with
  | nil => simp [prepareAll]
  | cons message rest ih =>
    rw [List.forall_mem_cons, ← ih]
    constructor
    · rintro ⟨entries, h⟩
      rw [prepareAll, bind_eq_ok] at h
      obtain ⟨prepared, hprepared, h⟩ := h
      rw [bind_eq_ok] at h
      obtain ⟨others, hothers, -⟩ := h
      exact ⟨⟨prepared, hprepared⟩, others, hothers⟩
    · rintro ⟨⟨prepared, hprepared⟩, others, hothers⟩
      rw [prepareAll, hprepared, hothers]
      cases prepared with
      | none => exact ⟨others, rfl⟩
      | some found => exact ⟨_, rfl⟩

theorem consumed_cons {batch : List Message} (rest : List (List Message))
    (h : ∃ entries, prepareAll loads handlers batch = .ok entries) :
    consumed loads handlers (fun _ _ => false) (fun _ => false) (batch :: rest) =
      batch ++ consumed loads handlers (fun _ _ => false) (fun _ => false) rest := by
  obtain ⟨entries, hentries⟩ := h
  obtain ⟨calls, hcalls⟩ : ∃ calls, handleBatchMessages loads handlers (fun _ => false) batch = .ok calls := by
    rw [handleBatchMessages, hentries]
    exact ⟨_, rfl⟩
  rw [consumed, hcalls]
  simp [batchSuccess_of_plain hcalls]

/-- The dispatcher gets through a message in both modes exactly if its headers can be read. -/
theorem undisturbed_iff (loads : Loads) (handlers : Handlers) (message : Message) :
    Undisturbed loads handlers message ↔ Readable handlers message := by
  have hprepared : (∃ prepared, prepareMessage loads handlers message = .ok prepared) ↔ Readable handlers message :=
    prepareMessage_isOk
  rw [← hprepared]
  refine ⟨Undisturbed.prepared, fun h => ⟨h, fun raises rest => ?_, fun earlier later hothers rest => ?_⟩⟩
  · obtain ⟨call, hcall⟩ := handleMessage_isOk.mpr h
    rw [polled, hcall]
    cases call <;> simp
  · refine consumed_cons rest (prepareAll_isOk.mpr fun m hm => ?_)
    rw [prepareAll_isOk] at hothers
    rcases List.mem_append.mp hm with hm | hm
    · exact hothers m (List.mem_append_left later hm)
    · rcases List.mem_cons.mp hm with rfl | hm
      · exact h
      · exact hothers m (List.mem_append_right earlier hm)

theorem received_of_readable {batches : List (List Message)} (h : ∀ message ∈ batches.flatten, Readable handlers message) :
    (∀ raises, polled loads handlers raises (fun _ => false) batches.flatten = batches.flatten) ∧
      consumed loads handlers (fun _ _ => false) (fun _ => false) batches = batches.flatten := by
  constructor
  · intro raises
    generalize batches.flatten = messages at h
    induction messages with
    | nil => rfl
    | cons message rest ih =>
      have hmessage := (undisturbed_iff loads handlers message).mpr (h message (by simp))
      rw [hmessage.polled, ih fun m hm => h m (by simp [hm])]
  · induction batches with
    | nil => rfl
    | cons batch rest ih =>
      rw [List.flatten_cons] at h ⊢
      rw [consumed_cons rest (prepareAll_isOk.mpr fun m hm => prepareMessage_isOk.mpr (h m (by simp [hm]))),
        ih fun m hm => h m (List.mem_append_right batch hm)]

/-- One header that is not UTF-8 ends the loop over single messages before the next one. -/
theorem badHeader_withholds :
    ¬Undisturbed (fun _ => some .null) [("hits", {})]
      { topic := "hits", offset := 0, headers := some [("service", some [255])], value := some [110, 117, 108, 108] } := by
  intro h
  have hpolled := congrArg List.length (h.polled (fun _ => false) [{ topic := "hits", offset := 1, value := none }])
  revert hpolled
  decide +kernel

end Advisor.Kafka
