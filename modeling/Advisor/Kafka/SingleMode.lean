import Mathlib.Data.List.TakeWhile
import Advisor.Kafka.BatchOffsets

/-! Messages received one by one and in batches: the payloads the handler of each topic is called with. -/

namespace Advisor.Kafka

open Python

structure PlainHandlers where
  entries : Handlers
  plain : ∀ entry ∈ entries, entry.2.batch = false

section Loops

variable (loads : Loads) (handlers : Handlers)

/-- `_handle_message`: the call it makes. A batch handler is not called. -/
def handleMessage (raises : Bool) (message : Message) : Except Exception (Option Call) := do
  match ← prepareMessage loads handlers message with
  | none => return none
  | some (topic, body) =>
    if (handlers.lookup topic).any (·.batch) then return none
    else return some ⟨topic, .body body, [message], raises⟩

/-- `_receive_single`, while no handler raises; `quits` tells the calls in which a handler sets `quit`. An
exception that leaves `_handle_message` ends the loop. -/
def receiveSingle (quits : Call → Bool) : List Message → List Call
  | [] => []
  | message :: rest =>
    match handleMessage loads handlers false message with
    | .error _ => []
    | .ok none => receiveSingle quits rest
    | .ok (some call) => call :: if quits call then [] else receiveSingle quits rest

/-- `_receive_batch` on the batches that `consume` returns, while no handler raises. -/
def receiveBatches (quits : Call → Bool) : List (List Message) → List Call
  | [] => []
  | batch :: rest =>
    match handleBatchMessages loads handlers (fun _ => false) batch with
    | .error _ => []
    | .ok calls => calls ++ if calls.any quits then [] else receiveBatches quits rest

end Loops

def payloadsOf (topic : String) (calls : List Call) : List Payload :=
  (calls.filter fun call => call.topic = topic).map (·.payload)

def Delivery.calls (delivery : Delivery) : List Call := delivery.result.toOption.getD []

section Condition

variable (loads : Loads) (handlers : Handlers) (quits : Call → Bool)

/-- The call made for a message that is neither skipped nor ends the loop with an exception. -/
def delivered (message : Message) : Option Call :=
  match prepareMessage loads handlers message with
  | .ok (some (topic, body)) => some ⟨topic, .body body, [message], false⟩
  | _ => none

def crashes (message : Message) : Bool := !isOk (prepareMessage loads handlers message)

def skipped (message : Message) : Bool := !crashes loads handlers message && (delivered loads handlers message).isNone

def stops (message : Message) : Bool :=
  crashes loads handlers message || (delivered loads handlers message).any quits

/-- In the first batch with a message that stops a loop, the messages before it are skipped if it raises, and
those after it are skipped otherwise. -/
def EndsClean : List (List Message) → Prop
  | [] => True
  | batch :: rest =>
    match batch.dropWhile fun message => !stops loads handlers quits message with
    | [] => EndsClean rest
    | message :: after =>
      if crashes loads handlers message then
        ∀ earlier ∈ batch.takeWhile fun message => !stops loads handlers quits message,
          skipped loads handlers earlier = true
      else ∀ later ∈ after, skipped loads handlers later = true

end Condition

variable {loads : Loads} {handlers : Handlers} {quits : Call → Bool}

theorem payloadsOf_append (topic : String) (calls others : List Call) :
    payloadsOf topic (calls ++ others) = payloadsOf topic calls ++ payloadsOf topic others := by
  simp [payloadsOf]

theorem payloadsOf_eq_nil {calls : List Call} : (∀ topic, payloadsOf topic calls = []) ↔ calls = [] := by
  constructor
  · intro h
    cases calls with
    | nil => rfl
    | cons call rest =>
      have hcall := h call.topic
      simp [payloadsOf] at hcall
  · rintro rfl _
    rfl

def Entry.call (entry : Entry) : Call := ⟨entry.topic, .body entry.body, [entry.message], false⟩

theorem PlainHandlers.not_batch (plain : PlainHandlers) (topic : String) :
    (plain.entries.lookup topic).any (·.batch) = false := by
  cases h : plain.entries.lookup topic with
  | none => rfl
  | some entry =>
    obtain ⟨before, after, hsplit, -⟩ := List.lookup_eq_some_iff.mp h
    exact plain.plain (topic, entry) (by rw [hsplit]; simp)

section Messages

variable {plain : PlainHandlers} {message : Message}

theorem handleMessage_error (h : crashes loads handlers message = true) :
    ∃ e, handleMessage loads handlers false message = .error e := by
  unfold crashes at h
  cases hprepare : prepareMessage loads handlers message with
  | error e => exact ⟨e, by rw [handleMessage, hprepare]; rfl⟩
  | ok prepared => simp [hprepare, isOk] at h

theorem handleMessage_ok (h : crashes loads plain.entries message = false) :
    handleMessage loads plain.entries false message = .ok (delivered loads plain.entries message) := by
  unfold crashes at h
  cases hprepare : prepareMessage loads plain.entries message with
  | error e => simp [hprepare, isOk] at h
  | ok prepared =>
    cases prepared with
    | none =>
      rw [handleMessage, delivered, hprepare]
      rfl
    | some found =>
      obtain ⟨topic, body⟩ := found
      rw [handleMessage, delivered, hprepare]
      simp [bind, Except.bind, plain.not_batch topic]
      rfl

theorem prepareAll_ok {batch : List Message} (h : ∀ message ∈ batch, crashes loads handlers message = false) :
    ∃ entries, prepareAll loads handlers batch = .ok entries ∧
      entries.map Entry.call = batch.filterMap (delivered loads handlers) := by
  induction batch with
  | nil => exact ⟨[], rfl, rfl⟩
  | cons message rest ih =>
    obtain ⟨entries, hentries, hcalls⟩ := ih fun m hm => h m (by simp [hm])
    have hmessage := h message (by simp)
    unfold crashes at hmessage
    cases hprepare : prepareMessage loads handlers message with
    | error e => simp [hprepare, isOk] at hmessage
    | ok prepared =>
      cases prepared with
      | none =>
        have hskip : delivered loads handlers message = none := by rw [delivered, hprepare]
        refine ⟨entries, by rw [prepareAll, hprepare, hentries]; rfl, ?_⟩
        rw [hcalls, List.filterMap_cons_none hskip]
      | some found =>
        obtain ⟨topic, body⟩ := found
        have hcall : delivered loads handlers message = some ⟨topic, .body body, [message], false⟩ := by
          rw [delivered, hprepare]
        refine ⟨⟨message, topic, body⟩ :: entries, by rw [prepareAll, hprepare, hentries]; rfl, ?_⟩
        rw [List.map_cons, hcalls, List.filterMap_cons_some hcall]
        rfl

theorem handleBatchMessages_error {raises : Nat → Bool} {batch : List Message}
    (h : ∃ message ∈ batch, crashes loads handlers message = true) :
    ∃ e, handleBatchMessages loads handlers raises batch = .error e := by
  have hprepare : ∃ e, prepareAll loads handlers batch = .error e := by
    induction batch with
    | nil => simp at h
    | cons first rest ih =>
      cases hfirst : prepareMessage loads handlers first with
      | error e => exact ⟨e, by rw [prepareAll, hfirst]; rfl⟩
      | ok prepared =>
        obtain ⟨message, hm, hcrash⟩ := h
        rcases List.mem_cons.mp hm with rfl | hrest
        · simp [crashes, hfirst, isOk] at hcrash
        · obtain ⟨e, he⟩ := ih ⟨message, hrest, hcrash⟩
          exact ⟨e, by rw [prepareAll, hfirst, he]; rfl⟩
  obtain ⟨e, he⟩ := hprepare
  exact ⟨e, by rw [handleBatchMessages, he]; rfl⟩

theorem payloadsOf_calls (topic : String) (entries : List Entry) :
    payloadsOf topic (entries.map Entry.call) =
      (entries.filter fun entry => entry.topic = topic).map fun entry => .body entry.body := by
  simp only [payloadsOf, List.filter_map, List.map_map]
  rfl

theorem mem_flatMap_groupBy {entries : List Entry} {entry : Entry} :
    entry ∈ (groupBy Entry.topic entries).flatMap Prod.snd ↔ entry ∈ entries := by
  have hfilter := filter_flatMap_groupBy Entry.topic entries entry.topic
  have hmem := congrArg (entry ∈ ·) hfilter
  simpa using hmem

theorem handleBatchMessages_ok {batch : List Message}
    (h : ∀ message ∈ batch, crashes loads plain.entries message = false) :
    ∃ calls, handleBatchMessages loads plain.entries (fun _ => false) batch = .ok calls ∧
      (∀ topic, payloadsOf topic calls = payloadsOf topic (batch.filterMap (delivered loads plain.entries))) ∧
      calls.any quits = (batch.filterMap (delivered loads plain.entries)).any quits := by
  obtain ⟨entries, hentries, hcalls⟩ := prepareAll_ok h
  have hinvocations : (groupBy Entry.topic entries).flatMap (invocations plain.entries) =
      ((groupBy Entry.topic entries).flatMap Prod.snd).map fun entry =>
        Call.mk entry.topic (.body entry.body) [entry.message] := by
    rw [List.map_flatMap]
    refine List.flatMap_congr fun group hgroup => ?_
    rw [invocations, plain.not_batch, if_neg (by simp)]
    refine List.map_congr_left fun entry hentry => ?_
    rw [group_eq hgroup] at hentry
    rw [(by simpa using (List.mem_filter.mp hentry).2 : entry.topic = group.1)]
  refine ⟨((groupBy Entry.topic entries).flatMap Prod.snd).map Entry.call, ?_, fun topic => ?_, ?_⟩
  · rw [handleBatchMessages, hentries]
    simp only [bind, Except.bind, pure, Except.pure, hinvocations, Except.ok.injEq]
    apply List.ext_getElem?
    intro i
    simp only [List.getElem?_mapIdx, List.getElem?_map, Option.map_map]
    rfl
  · rw [payloadsOf_calls, filter_flatMap_groupBy, ← hcalls, payloadsOf_calls]
  · rw [← hcalls, Bool.eq_iff_iff, List.any_map, List.any_map, List.any_eq_true, List.any_eq_true]
    exact exists_congr fun entry => and_congr_left fun _ => mem_flatMap_groupBy

theorem delivered_of_crashes (h : crashes loads handlers message = true) : delivered loads handlers message = none := by
  unfold crashes at h
  unfold delivered
  cases hprepare : prepareMessage loads handlers message with
  | error e => rfl
  | ok prepared => simp [hprepare, isOk] at h

end Messages

section Runs

variable {plain : PlainHandlers}

theorem filterMap_eq_nil {messages : List Message} (h : ∀ message ∈ messages, crashes loads handlers message = false) :
    messages.filterMap (delivered loads handlers) = [] ↔
      ∀ message ∈ messages, skipped loads handlers message = true := by
  rw [List.filterMap_eq_nil_iff]
  refine forall₂_congr fun message hm => ?_
  simp [skipped, h message hm]

theorem receiveSingle_append {messages : List Message} (rest : List Message)
    (h : ∀ message ∈ messages, stops loads plain.entries quits message = false) :
    receiveSingle loads plain.entries quits (messages ++ rest) =
      messages.filterMap (delivered loads plain.entries) ++ receiveSingle loads plain.entries quits rest := by
  induction messages with
  | nil => rfl
  | cons message messages ih =>
    have hstop := h message (by simp)
    rw [stops, Bool.or_eq_false_iff] at hstop
    obtain ⟨hcrash, hquit⟩ := hstop
    rw [List.cons_append, receiveSingle, handleMessage_ok hcrash]
    cases hcall : delivered loads plain.entries message with
    | none =>
      rw [List.filterMap_cons_none hcall]
      exact ih fun m hm => h m (by simp [hm])
    | some call =>
      rw [hcall] at hquit
      rw [List.filterMap_cons_some hcall, List.cons_append]
      simp only [Option.any_some] at hquit
      simp only [hquit, Bool.false_eq_true, if_false, List.cons.injEq, true_and]
      exact ih fun m hm => h m (by simp [hm])

theorem receiveSingle_stop {message : Message} (rest : List Message)
    (h : stops loads plain.entries quits message = true) :
    receiveSingle loads plain.entries quits (message :: rest) = (delivered loads plain.entries message).toList := by
  by_cases hcrash : crashes loads plain.entries message = true
  · obtain ⟨e, he⟩ := handleMessage_error hcrash
    rw [receiveSingle, he, delivered_of_crashes hcrash]
    rfl
  · rw [Bool.not_eq_true] at hcrash
    rw [stops, hcrash, Bool.false_or] at h
    cases hcall : delivered loads plain.entries message with
    | none => simp [hcall] at h
    | some call =>
      simp only [hcall, Option.any_some] at h
      simp [receiveSingle, handleMessage_ok hcrash, hcall, h]

theorem receiveBatches_cons (quits : Call → Bool) {batch : List Message} (rest : List (List Message))
    (h : ∀ message ∈ batch, crashes loads plain.entries message = false) :
    ∃ calls, (∀ topic, payloadsOf topic calls = payloadsOf topic (batch.filterMap (delivered loads plain.entries))) ∧
      receiveBatches loads plain.entries quits (batch :: rest) =
        calls ++ if (batch.filterMap (delivered loads plain.entries)).any quits then []
          else receiveBatches loads plain.entries quits rest := by
  obtain ⟨calls, hcalls, hpayloads, hquits⟩ := handleBatchMessages_ok h
  exact ⟨calls, hpayloads, by rw [receiveBatches, hcalls, ← hquits]⟩

theorem samePayloads_through {batch : List Message} (rest : List (List Message))
    (h : ∀ message ∈ batch, stops loads plain.entries quits message = false) :
    (∀ topic, payloadsOf topic (receiveBatches loads plain.entries quits (batch :: rest)) =
      payloadsOf topic (receiveSingle loads plain.entries quits (batch :: rest).flatten)) ↔
      ∀ topic, payloadsOf topic (receiveBatches loads plain.entries quits rest) =
        payloadsOf topic (receiveSingle loads plain.entries quits rest.flatten) := by
  have hcrash : ∀ message ∈ batch, crashes loads plain.entries message = false := fun message hm =>
    (Bool.or_eq_false_iff.mp (h message hm)).1
  have hquits : (batch.filterMap (delivered loads plain.entries)).any quits = false := by
    rw [List.any_eq_false]
    intro call hcall
    obtain ⟨message, hm, hdelivered⟩ := List.mem_filterMap.mp hcall
    have hstop := (Bool.or_eq_false_iff.mp (h message hm)).2
    rw [hdelivered] at hstop
    simpa using hstop
  obtain ⟨calls, hpayloads, hreceive⟩ := receiveBatches_cons quits rest hcrash
  rw [hreceive, hquits, List.flatten_cons, receiveSingle_append _ h]
  refine forall_congr' fun topic => ?_
  rw [payloadsOf_append, payloadsOf_append, hpayloads]
  simp

theorem samePayloads_stopped {before : List Message} {message : Message} (after : List Message)
    (rest : List (List Message))
    (hbefore : ∀ earlier ∈ before, stops loads plain.entries quits earlier = false)
    (hstop : stops loads plain.entries quits message = true) :
    (∀ topic, payloadsOf topic (receiveBatches loads plain.entries quits ((before ++ message :: after) :: rest)) =
      payloadsOf topic (receiveSingle loads plain.entries quits ((before ++ message :: after) :: rest).flatten)) ↔
      if crashes loads plain.entries message then ∀ earlier ∈ before, skipped loads plain.entries earlier = true
      else ∀ later ∈ after, skipped loads plain.entries later = true := by
  have hcrash : ∀ earlier ∈ before, crashes loads plain.entries earlier = false := fun earlier hm =>
    (Bool.or_eq_false_iff.mp (hbefore earlier hm)).1
  rw [List.flatten_cons, List.append_assoc, List.cons_append, receiveSingle_append _ hbefore, receiveSingle_stop _ hstop]
  by_cases hmessage : crashes loads plain.entries message = true
  · have hbatch : receiveBatches loads plain.entries quits ((before ++ message :: after) :: rest) = [] := by
      obtain ⟨e, he⟩ := handleBatchMessages_error ⟨message, List.mem_append_right before List.mem_cons_self, hmessage⟩
      rw [receiveBatches, he]
    rw [if_pos hmessage, hbatch, delivered_of_crashes hmessage, Option.toList_none, List.append_nil,
      ← filterMap_eq_nil hcrash, ← payloadsOf_eq_nil]
    exact forall_congr' fun topic => eq_comm
  · rw [if_neg hmessage]
    rw [Bool.not_eq_true] at hmessage
    obtain ⟨call, hcall, hquit⟩ : ∃ call, delivered loads plain.entries message = some call ∧ quits call = true := by
      rw [stops, hmessage, Bool.false_or] at hstop
      cases hcall : delivered loads plain.entries message with
      | none => simp [hcall] at hstop
      | some call => exact ⟨call, rfl, by simpa [hcall] using hstop⟩
    by_cases hafter : ∀ later ∈ after, crashes loads plain.entries later = false
    · have hall : ∀ m ∈ before ++ message :: after, crashes loads plain.entries m = false := by
        intro m hm
        rcases List.mem_append.mp hm with hm | hm
        · exact hcrash m hm
        · rcases List.mem_cons.mp hm with rfl | hm
          · exact hmessage
          · exact hafter m hm
      obtain ⟨calls, hpayloads, hreceive⟩ := receiveBatches_cons quits rest hall
      have hcalls : (before ++ message :: after).filterMap (delivered loads plain.entries) =
          before.filterMap (delivered loads plain.entries) ++ [call] ++
            after.filterMap (delivered loads plain.entries) := by
        rw [List.filterMap_append, List.filterMap_cons_some hcall, List.append_assoc, List.singleton_append]
      rw [hreceive, hcalls, if_pos (by simp [hquit]), hcall, Option.toList_some, List.append_nil,
        ← filterMap_eq_nil hafter, ← payloadsOf_eq_nil]
      refine forall_congr' fun topic => ?_
      rw [hpayloads, hcalls, payloadsOf_append]
      simp
    · have hbatch : receiveBatches loads plain.entries quits ((before ++ message :: after) :: rest) = [] := by
        obtain ⟨later, hm, hlater⟩ : ∃ later ∈ after, crashes loads plain.entries later = true := by
          simpa using hafter
        obtain ⟨e, he⟩ := handleBatchMessages_error
          ⟨later, List.mem_append_right before (List.mem_cons_of_mem message hm), hlater⟩
        rw [receiveBatches, he]
      refine iff_of_false (fun h => ?_) fun h => hafter fun later hm => ?_
      · have htopic := h call.topic
        rw [hbatch, hcall, payloadsOf_append] at htopic
        simp [payloadsOf] at htopic
      · have hskipped := h later hm
        simp only [skipped, Bool.and_eq_true, Bool.not_eq_true'] at hskipped
        exact hskipped.1

/-- In every stream, however it is split into batches, the handlers of all topics are called with the same
payloads in both modes exactly if the split ends clean. -/
theorem samePayloads_iff (loads : Loads) (plain : PlainHandlers) (quits : Call → Bool) (batches : List (List Message)) :
    (∀ topic, payloadsOf topic (receiveBatches loads plain.entries quits batches) =
      payloadsOf topic (receiveSingle loads plain.entries quits batches.flatten)) ↔
      EndsClean loads plain.entries quits batches := by
  induction batches with
  | nil => simp [receiveBatches, receiveSingle, EndsClean]
  | cons batch rest ih =>
    have hsplit := List.takeWhile_append_dropWhile (p := fun m => !stops loads plain.entries quits m) (l := batch)
    have hbefore : ∀ earlier ∈ batch.takeWhile fun m => !stops loads plain.entries quits m,
        stops loads plain.entries quits earlier = false := fun earlier hm => by
      simpa using List.mem_takeWhile_imp hm
    rw [EndsClean]
    cases hrest : batch.dropWhile fun m => !stops loads plain.entries quits m with
    | nil =>
      rw [hrest, List.append_nil] at hsplit
      rw [hsplit] at hbefore
      exact (samePayloads_through rest hbefore).trans ih
    | cons message after =>
      have hstop : stops loads plain.entries quits message = true := by
        have hne : batch.dropWhile (fun m => !stops loads plain.entries quits m) ≠ [] := by simp [hrest]
        have hhead := List.head_dropWhile_not (fun m => !stops loads plain.entries quits m) hne
        simpa [hrest] using hhead
      rw [hrest] at hsplit
      have hboth := samePayloads_stopped after rest hbefore hstop
      rwa [hsplit] at hboth

/-- A message before a bad header reaches its handler in single mode only. -/
theorem samePayloads_badHeader :
    ¬ ∀ topic,
      payloadsOf topic (receiveBatches (fun _ => some .null) [("hits", {})] (fun _ => false)
        [[{ topic := "hits", offset := 0, value := some [110, 117, 108, 108] },
          { topic := "hits", offset := 1, headers := some [("service", some [255])], value := none }]]) =
      payloadsOf topic (receiveSingle (fun _ => some .null) [("hits", {})] (fun _ => false)
        [{ topic := "hits", offset := 0, value := some [110, 117, 108, 108] },
          { topic := "hits", offset := 1, headers := some [("service", some [255])], value := none }]) := by
  intro h
  have hlength := congrArg List.length (h "hits")
  revert hlength
  decide +kernel

section Turns

variable (loads : Loads) (handlers : Handlers) (quits : Call → Bool)

/-- The turn that consumes a batch, in which handlers do not raise and quit the loop as they like. -/
def Turn.consuming (turn : Turn) (batch : List Message) : Turn :=
  { turn with
    consume := some batch.length
    raises := fun _ => false
    quits := ((handleBatchMessages loads handlers (fun _ => false) batch).toOption.getD []).any quits }

variable {loads handlers quits}

theorem batchSuccess_of_plain {batch : List Message} {calls : List Call}
    (h : handleBatchMessages loads handlers (fun _ => false) batch = .ok calls) : batchSuccess calls = true := by
  rw [handleBatchMessages, bind_eq_ok] at h
  obtain ⟨entries, -, h⟩ := h
  simp only [pure, Except.pure, Except.ok.injEq] at h
  rw [batchSuccess, ← h, List.all_eq_true]
  intro call hcall
  obtain ⟨i, hi, rfl⟩ := List.mem_mapIdx.mp hcall
  obtain ⟨group, -, hinvocation⟩ := List.mem_flatMap.mp (List.getElem_mem hi)
  have hraised : ∀ make ∈ invocations handlers group, (make false).raised = false := by
    intro make hmake
    unfold invocations at hmake
    split at hmake
    · rw [List.mem_singleton.mp hmake]
    · obtain ⟨entry, -, rfl⟩ := List.mem_map.mp hmake
      rfl
  rw [hraised _ hinvocation]
  rfl

theorem receive_calls (turn : Turn) (batches : List (List Message)) {s : Loop} (hquit : s.quit = false)
    (hincoming : s.incoming = batches.flatten) :
    (receive loads handlers s (batches.map (turn.consuming loads handlers quits))).history.flatMap Delivery.calls =
      s.history.flatMap Delivery.calls ++ receiveBatches loads handlers quits batches := by
  induction batches generalizing s with
  | nil => simp [receive, receiveBatches]
  | cons batch rest ih =>
    have htake : s.incoming.take batch.length = batch := by simp [hincoming]
    have hdrop : s.incoming.drop batch.length = rest.flatten := by simp [hincoming]
    rw [List.map_cons, receive, List.foldl_cons, ← receive]
    by_cases hempty : batch = []
    · subst hempty
      have hturn : receiveBatch loads handlers s (turn.consuming loads handlers quits []) = { s with quit := false } := by
        rw [receiveBatch, if_neg (by simp [hquit])]
        rfl
      rw [hturn, ih rfl (by simpa using hincoming)]
      rfl
    · cases hresult : handleBatchMessages loads handlers (fun _ => false) batch with
      | error e =>
        have hturn : receiveBatch loads handlers s (turn.consuming loads handlers quits batch) =
            { s with incoming := rest.flatten, history := s.history ++ [⟨batch, .error e⟩], quit := true } := by
          simp [receiveBatch, hquit, Turn.consuming, htake, hdrop, hempty, hresult]
        rw [hturn, receive_quit rfl, receiveBatches, hresult]
        simp [Delivery.calls, Except.toOption]
      | ok calls =>
        obtain ⟨stored, committed, hturn⟩ : ∃ stored committed,
            receiveBatch loads handlers s (turn.consuming loads handlers quits batch) =
              { s with
                incoming := rest.flatten
                history := s.history ++ [⟨batch, .ok calls⟩]
                stored, committed
                quit := calls.any quits } := by
          simp [receiveBatch, hquit, Turn.consuming, htake, hdrop, hempty, hresult, batchSuccess_of_plain hresult,
            Except.toOption]
        rw [hturn, receiveBatches, hresult]
        dsimp only
        by_cases hstop : calls.any quits = true
        · rw [receive_quit hstop, if_pos hstop]
          simp [Delivery.calls, Except.toOption]
        · rw [if_neg hstop, ih (by simpa using hstop) rfl]
          simp [Delivery.calls, Except.toOption]

end Turns

end Runs

end Advisor.Kafka
