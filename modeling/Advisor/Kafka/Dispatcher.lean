import Advisor.Python.Grouping
import Advisor.Python.Json
import Advisor.Streaming.Reading

/-! The dispatcher that hands Kafka messages to the handlers of their topics, in batches. -/

namespace Advisor.Kafka

open Python Streaming

abbrev Bytes := List UInt8

structure Message where
  error : Bool := false
  topic : String
  partition : Nat := 0
  offset : Nat
  headers : Option (List (String × Option Bytes)) := none
  value : Option Bytes
  deriving DecidableEq

def Message.topicPartition (message : Message) : String × Nat := (message.topic, message.partition)

structure HandlerEntry where
  filters : List (String × String) := []
  batch : Bool := false

abbrev Handlers := List (String × HandlerEntry)

abbrev Loads := String → Option Json

def decodeUtf8 (bytes : Bytes) : Option String := String.fromUTF8? ⟨bytes.toArray⟩

def doubleQuote : Char := Char.ofNat 34

def stripQuotes (text : String) : String :=
  let unopened := text.toList.dropWhile (· = doubleQuote)
  String.ofList (unopened.reverse.dropWhile (· = doubleQuote)).reverse

/-- The decoded headers, the last of a name first; values that are not UTF-8 raise. -/
def headerDict (headers : List (String × Option Bytes)) : Except Exception (List (String × String)) := do
  let decoded ← (headers.filter fun header => header.2.any (· ≠ [])).mapM fun header =>
    match decodeUtf8 (header.2.getD []) with
    | some text => .ok (header.1, text)
    | none => .error .valueError
  return decoded.reverse

variable (loads : Loads) (handlers : Handlers)

/-- The topic and the decoded body, or `none` for a message to skip. -/
def prepareMessage (message : Message) : Except Exception (Option (String × Json)) :=
  if message.error then .ok none
  else match handlers.lookup message.topic with
    | none => .ok none
    | some entry => do
      let headers ← headerDict (message.headers.getD [])
      if entry.filters.all fun filter => headers.lookup filter.1 = some filter.2 then
        match message.value.bind decodeUtf8 with
        | none => return none
        | some text => return (loads (stripQuotes text)).map fun body => (message.topic, body)
      else return none

/-- A prepared message, with the message it came from. -/
structure Entry where
  message : Message
  topic : String
  body : Json

def prepareAll : List Message → Except Exception (List Entry)
  | [] => .ok []
  | message :: rest => do
    let prepared ← prepareMessage loads handlers message
    let entries ← prepareAll rest
    match prepared with
    | none => return entries
    | some (topic, body) => return ⟨message, topic, body⟩ :: entries

inductive Payload where
  | body (value : Json)
  | bodies (values : List Json)

/-- A call of a handler, with the messages its payload came from. -/
structure Call where
  topic : String
  payload : Payload
  messages : List Message
  raised : Bool

/-- A batch handler is called once for its topic, another one for every message. -/
def invocations (group : String × List Entry) : List (Bool → Call) :=
  if (handlers.lookup group.1).any (·.batch) then
    [Call.mk group.1 (.bodies (group.2.map (·.body))) (group.2.map (·.message))]
  else group.2.map fun entry => Call.mk group.1 (.body entry.body) [entry.message]

/-- The calls made for a batch. `raises i` says whether the handler raises in the `i`th call;
the loop goes on after an exception. -/
def handleBatchMessages (raises : Nat → Bool) (messages : List Message) : Except Exception (List Call) := do
  let entries ← prepareAll loads handlers messages
  let calls := (groupBy Entry.topic entries).flatMap (invocations handlers)
  return calls.mapIdx fun i call => call (raises i)

def batchSuccess (calls : List Call) : Bool := calls.all fun call => !call.raised

/-- The offsets stored by the client afterwards, and whether a call of `store_offsets` raised. -/
def storeOffsets (storeRaises : Message → Bool) :
    Positions (String × Nat) → List Message → Positions (String × Nat) × Bool
  | stored, [] => (stored, false)
  | stored, message :: rest =>
    if message.error then storeOffsets storeRaises stored rest
    else if storeRaises message then (stored, true)
    else storeOffsets storeRaises (stored.after Message.topicPartition Message.offset message) rest

/-- What happens around the dispatcher in one turn of its loop: `consume` returns that many
messages or raises, handlers and `store_offsets` raise or not, the commit reaches the broker or
not, whether or not it raises, and somebody sets `quit` or not. -/
structure Turn where
  consume : Option Nat
  raises : Nat → Bool
  storeRaises : Message → Bool
  commitReaches : Bool
  quits : Bool

/-- A batch the dispatcher was given, and the calls it made, or the exception it ended with. -/
structure Delivery where
  messages : List Message
  result : Except Exception (List Call)

structure Loop where
  incoming : List Message
  history : List Delivery := []
  stored : Positions (String × Nat) := fun _ => none
  committed : Positions (String × Nat) := fun _ => none
  quit : Bool := false

/-- One turn of `_receive_batch`. An exception that leaves `_handle_batch_messages` ends the loop. -/
def receiveBatch (s : Loop) (turn : Turn) : Loop :=
  if s.quit then s
  else match turn.consume with
    | none => { s with quit := turn.quits }
    | some n =>
      let messages := s.incoming.take n
      if messages.isEmpty then { s with quit := turn.quits }
      else
        let result := handleBatchMessages loads handlers turn.raises messages
        let s := { s with incoming := s.incoming.drop n, history := s.history ++ [Delivery.mk messages result] }
        match result with
        | .error _ => { s with quit := true }
        | .ok calls =>
          if batchSuccess calls then
            let (stored, raised) := storeOffsets turn.storeRaises s.stored messages
            let committed := if !raised && turn.commitReaches then stored else s.committed
            { s with stored, committed, quit := turn.quits }
          else { s with quit := true }

def receive (s : Loop) (turns : List Turn) : Loop := turns.foldl (receiveBatch loads handlers) s

end Advisor.Kafka
