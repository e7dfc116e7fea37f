import Advisor.Kafka.Dispatcher
import Advisor.Python.JsonText
import Mathlib.Data.List.TakeWhile

/-! A value sent with `send_kafka_message` and read back by the two receivers, which take the quotes off a text's
ends before they parse it. -/

namespace Advisor.Kafka

open Python JsonText

variable (floats : FloatFormat)

abbrev Value := { v : Json // Dumpable floats v }

def jsonLoads : Loads := fun text => loads floats text.toList

def encodeUtf8 (text : String) : Bytes := text.toUTF8.data.toList

def sendKafkaMessage (v : Json) : Bytes := encodeUtf8 (String.ofList (dumps floats v))

/-- What `start` of the results service reads from a message of each of its topics; `none` when it logs malformed
JSON. -/
def receivedJson (loads : Loads) (value : Option Bytes) : Option Json :=
  (value.bind decodeUtf8).bind fun text => loads (stripQuotes text)

/-- A message with these bytes that the dispatcher has a handler for. -/
structure Carrier (handlers : Handlers) (value : Bytes) where
  message : Message
  entry : HandlerEntry
  headers : List (String × String)
  value_eq : message.value = some value
  noError : message.error = false
  registered : handlers.lookup message.topic = some entry
  decoded : headerDict (message.headers.getD []) = .ok headers
  matching : (entry.filters.all fun filter => headers.lookup filter.1 = some filter.2) = true

section Bytes

theorem decodeUtf8_encodeUtf8 (text : String) : decodeUtf8 (encodeUtf8 text) = some text := by
  have hbytes : ByteArray.mk (encodeUtf8 text).toArray = text.toByteArray := by
    rw [encodeUtf8, Array.toArray_toList]
    rfl
  have hvalid : (ByteArray.mk (encodeUtf8 text).toArray).IsValidUTF8 := by
    rw [hbytes]
    exact text.isValidUTF8
  rw [decodeUtf8, String.fromUTF8?, dif_pos hvalid]
  exact congrArg some (String.toByteArray_inj.mp hbytes)

variable {floats}

theorem receivedJson_sent (v : Json) :
    receivedJson (jsonLoads floats) (some (sendKafkaMessage floats v)) =
      loads floats (stripQuotes (String.ofList (dumps floats v))).toList := by
  rw [receivedJson, Option.bind_some, sendKafkaMessage, decodeUtf8_encodeUtf8, Option.bind_some, jsonLoads]

theorem prepareMessage_carrier {loads : Loads} {handlers : Handlers} {value : Bytes} (carrier : Carrier handlers value) :
    prepareMessage loads handlers carrier.message =
      .ok ((receivedJson loads (some value)).map fun body => (carrier.message.topic, body)) := by
  obtain ⟨message, entry, headers, hvalue, herror, hregistered, hdecoded, hmatching⟩ := carrier
  rw [prepareMessage, if_neg (by simp [herror]), hregistered, receivedJson, hvalue]
  simp only [hdecoded, bind, Except.bind, hmatching, if_true, Option.bind_some]
  cases decodeUtf8 value with
  | none => rfl
  | some text => rfl

end Bytes

section Stripping

def Bare (text : List Char) : Prop := text.head? ≠ some quote ∧ text.getLast? ≠ some quote

theorem stripQuotes_bare {text : List Char} (h : Bare text) :
    stripQuotes (String.ofList text) = String.ofList text := by
  have hdrop : ∀ cs : List Char, cs.head? ≠ some quote → cs.dropWhile (· = doubleQuote) = cs := by
    intro cs hcs
    cases cs with
    | nil => rfl
    | cons c cs =>
      have hc : c ≠ doubleQuote := fun heq => hcs (congrArg some heq)
      rw [List.dropWhile_cons_of_neg (by simpa using hc)]
  rw [stripQuotes, String.toList_ofList]
  rw [hdrop text h.1, hdrop text.reverse (by rw [List.head?_reverse]; exact h.2), List.reverse_reverse]

theorem bare_of_not_mem {text : List Char} (h : quote ∉ text) : Bare text :=
  ⟨fun hhead => h (List.mem_of_head? hhead), fun hlast => h (List.mem_of_getLast? hlast)⟩

theorem bare_of_ends {first last : Char} (hfirst : first ≠ quote) (hlast : last ≠ quote) (middle : List Char) :
    Bare (first :: (middle ++ [last])) := by
  constructor
  · simpa using hfirst
  · rw [← List.cons_append, List.getLast?_append]
    simpa using hlast

variable {floats}

theorem not_mem_digits {ds : List Char} (h : Digits ds) : quote ∉ ds := by
  intro hmem
  cases h quote hmem

theorem not_mem_natural {ds : List Char} (h : Natural ds) : quote ∉ ds := by
  cases h with
  | zero => decide
  | positive hc _ hds =>
    intro hmem
    rcases List.mem_cons.mp hmem with rfl | h
    · cases hc
    · exact not_mem_digits hds h

theorem not_mem_intPart {int : List Char} (h : IntPart int) : quote ∉ int := by
  cases h with
  | natural h => exact not_mem_natural h
  | negative h =>
    intro hmem
    rcases List.mem_cons.mp hmem with heq | hmem
    · cases heq
    · exact not_mem_natural h hmem

theorem not_mem_fracPart {frac : List Char} (h : FracPart frac) : quote ∉ frac := by
  cases h with
  | absent => simp
  | present _ hds =>
    intro hmem
    rcases List.mem_cons.mp hmem with heq | hmem
    · cases heq
    · exact not_mem_digits hds hmem

theorem not_mem_expPart {exp : List Char} (h : ExpPart exp) : quote ∉ exp := by
  have hmark : ∀ e : Char, e = 'e' ∨ e = 'E' → quote ≠ e := by
    rintro e (rfl | rfl) <;> decide
  have hsign : ∀ sign : Char, sign = '-' ∨ sign = '+' → quote ≠ sign := by
    rintro sign (rfl | rfl) <;> decide
  cases h with
  | absent => simp
  | plain he _ hds =>
    intro hmem
    rcases List.mem_cons.mp hmem with heq | hmem
    · exact hmark _ he heq
    · exact not_mem_digits hds hmem
  | signed he hs _ hds =>
    intro hmem
    rcases List.mem_cons.mp hmem with heq | hmem
    · exact hmark _ he heq
    rcases List.mem_cons.mp hmem with heq | hmem
    · exact hsign _ hs heq
    · exact not_mem_digits hds hmem

theorem dumpsRest_last (floats : FloatFormat) (xs : List Json) : ∃ front, dumpsRest floats xs = front ++ [']'] := by
  induction xs with
  | nil => exact ⟨[], by rw [dumpsRest, List.nil_append]⟩
  | cons x xs ih =>
    obtain ⟨front, hfront⟩ := ih
    exact ⟨',' :: ' ' :: dumps floats x ++ front, by rw [dumpsRest, hfront, List.append_assoc]⟩

theorem dumpsRestPairs_last (floats : FloatFormat) (items : List (String × Json)) :
    ∃ front, dumpsRestPairs floats items = front ++ ['\x7d'] := by
  induction items with
  | nil => exact ⟨[], by rw [dumpsRestPairs, List.nil_append]⟩
  | cons item items ih =>
    obtain ⟨front, hfront⟩ := ih
    obtain ⟨key, x⟩ := item
    exact ⟨',' :: ' ' :: dumpsString key ++ ':' :: ' ' :: dumps floats x ++ front,
      by rw [dumpsRestPairs, hfront]; simp⟩

theorem bare_dumps {v : Json} (h : Dumpable floats v) (hstr : v.isStr = false) : Bare (dumps floats v) := by
  cases v with
  | null =>
    rw [dumps]
    exact bare_of_not_mem (by decide)
  | bool b => cases b <;> (rw [dumps]; exact bare_of_not_mem (by decide))
  | int i =>
    rw [dumps]
    exact bare_of_not_mem (not_mem_intPart (intPart_dumpsInt i))
  | float x =>
    rw [dumps]
    cases x with
    | finite q =>
      have hq : floats.finite q := by simpa [Dumpable] using h
      have hdumps : dumpsFloat floats (.finite q) = floats.repr q := rfl
      obtain ⟨int, frac, exp, hrepr, hint, hfrac, hexp, -⟩ := floats.shape q hq
      rw [hdumps, hrepr]
      refine bare_of_not_mem ?_
      simp only [List.mem_append, not_or]
      exact ⟨⟨not_mem_intPart hint, not_mem_fracPart hfrac⟩, not_mem_expPart hexp⟩
    | infinite negative =>
      have hplus : quote ∉ "Infinity".toList := by decide
      have hminus : quote ∉ "-Infinity".toList := by decide
      cases negative with
      | true => exact bare_of_not_mem hminus
      | false => exact bare_of_not_mem hplus
    | nan =>
      have hnan : quote ∉ "NaN".toList := by decide
      exact bare_of_not_mem hnan
  | str s => cases hstr
  | list xs =>
    cases xs with
    | nil =>
      rw [dumps, dumpsItems]
      exact bare_of_not_mem (by decide)
    | cons x xs =>
      obtain ⟨front, hfront⟩ := dumpsRest_last floats xs
      rw [dumps, dumpsItems, hfront, ← List.append_assoc]
      exact bare_of_ends (by decide) (by decide) _
  | dict items =>
    cases items with
    | nil =>
      rw [dumps, dumpsPairs]
      exact bare_of_not_mem (by decide)
    | cons item items =>
      obtain ⟨key, x⟩ := item
      obtain ⟨front, hfront⟩ := dumpsRestPairs_last floats items
      rw [dumps, dumpsPairs, hfront, ← List.append_assoc]
      exact bare_of_ends (by decide) (by decide) _

end Stripping

section Strings

/-- Every quote of the text stands behind a backslash. -/
def Guarded (text : List Char) : Prop :=
  ∀ front back, text = front ++ quote :: back → ∃ before, front = before ++ [backslash]

theorem guarded_of_not_mem {text : List Char} (h : quote ∉ text) : Guarded text := by
  rintro front back rfl
  simp at h

theorem Guarded.append {left right : List Char} (hleft : Guarded left) (hright : Guarded right) :
    Guarded (left ++ right) := by
  intro front back h
  rcases List.append_eq_append_iff.mp h with ⟨more, hfront, hback⟩ | ⟨more, hfront, hback⟩
  · obtain ⟨before, hbefore⟩ := hright more back hback
    exact ⟨left ++ before, by rw [hfront, hbefore, List.append_assoc]⟩
  · cases more with
    | nil =>
      obtain ⟨before, hbefore⟩ := hright [] back hback.symm
      simp at hbefore
    | cons c more =>
      rw [List.cons_append] at hback
      obtain ⟨rfl, -⟩ := List.cons.inj hback
      exact hleft front more hfront

theorem Guarded.left {left right : List Char} (h : Guarded (left ++ right)) : Guarded left := by
  rintro front back rfl
  exact h front (back ++ right) (by simp)

theorem guarded_escapeChar (c : Char) : Guarded (escapeChar c) := by
  unfold escapeChar
  split
  · rintro front back heq
    cases front with
    | nil => cases heq
    | cons c front =>
      cases front with
      | nil =>
        obtain ⟨rfl, -⟩ := List.cons.inj heq
        exact ⟨[], rfl⟩
      | cons d front => simp at heq
  · rename_i hfind
    split
    · refine guarded_of_not_mem fun hmem => ?_
      have hnone := List.find?_eq_none.mp hfind (quote, quote) (by decide)
      obtain rfl := List.mem_singleton.mp hmem
      simp at hnone
    · refine guarded_of_not_mem fun hmem => ?_
      have hhex : ∀ d < 16, Uuid.hexDigit d ≠ quote := by decide
      obtain ⟨unit, -, hunit⟩ := List.mem_flatMap.mp hmem
      rw [unicodeEscape] at hunit
      rcases List.mem_cons.mp hunit with heq | hunit
      · cases heq
      rcases List.mem_cons.mp hunit with heq | hunit
      · cases heq
      obtain ⟨d, hd, heq⟩ := List.mem_map.mp hunit
      exact hhex d (Uuid.nibbles_lt 4 unit d hd) heq

theorem guarded_escaped (cs : List Char) : Guarded (cs.flatMap escapeChar) := by
  induction cs with
  | nil => exact guarded_of_not_mem (by simp)
  | cons c cs ih =>
    rw [List.flatMap_cons]
    exact (guarded_escapeChar c).append ih

/-- The quotes around a string go, and with them at most quotes at its end. -/
theorem stripQuotes_dumpsString (s : String) : Guarded (stripQuotes (String.ofList (dumpsString s))).toList := by
  have hguarded := guarded_escaped s.toList
  generalize hinner : s.toList.flatMap escapeChar = inner at hguarded
  have hopen : (quote :: (inner ++ [quote])).dropWhile (· = doubleQuote) = inner ++ [quote] ∨ inner = [] := by
    cases inner with
    | nil => exact Or.inr rfl
    | cons c inner =>
      left
      have hc : c ≠ doubleQuote := by
        rintro rfl
        obtain ⟨before, hbefore⟩ := hguarded [] inner rfl
        simp at hbefore
      rw [List.dropWhile_cons_of_pos (by decide), List.cons_append, List.dropWhile_cons_of_neg (by simpa using hc)]
  rw [stripQuotes, String.toList_ofList, String.toList_ofList, dumpsString, hinner]
  rcases hopen with hopen | rfl
  · obtain ⟨dropped, hdropped⟩ := List.dropWhile_suffix (l := inner.reverse) (· = doubleQuote)
    rw [hopen, List.reverse_append, List.reverse_singleton, List.singleton_append,
      List.dropWhile_cons_of_pos (by decide)]
    have hinner' : inner = (inner.reverse.dropWhile (· = doubleQuote)).reverse ++ dropped.reverse := by
      rw [← List.reverse_append, hdropped, List.reverse_reverse]
    rw [hinner'] at hguarded
    exact hguarded.left
  · exact guarded_of_not_mem (by decide)

variable {floats}

theorem isStr_scanNumber {text rest : List Char} {v : Json} (h : scanNumber floats text = some (v, rest)) :
    v.isStr = false := by
  obtain ⟨found, -, h⟩ := Option.bind_eq_some_iff.mp h
  dsimp only at h
  split at h
  · split at h
    · obtain ⟨rfl, -⟩ := Prod.mk.inj (Option.some.inj h)
      rfl
    · cases h
  · obtain ⟨rfl, -⟩ := Prod.mk.inj (Option.some.inj h)
    rfl

theorem isStr_scanScalar {text rest : List Char} {v : Json} (h : scanScalar floats text = some (v, rest)) :
    v.isStr = false := by
  unfold scanScalar at h
  split at h
  · cases h
    rfl
  split at h
  · cases h
    rfl
  split at h
  · cases h
    rfl
  split at h
  · rename_i found hnumber
    cases h
    exact isStr_scanNumber hnumber
  split at h
  · cases h
    rfl
  split at h
  · cases h
    rfl
  · obtain ⟨after, -, h⟩ := Option.map_eq_some_iff.mp h
    cases h
    rfl

theorem scanOnce_str {fuel : Nat} {text rest : List Char} {s : String}
    (h : scanOnce floats fuel text = some (.str s, rest)) : text.head? = some quote := by
  cases fuel with
  | zero => cases h
  | succ fuel =>
    cases text with
    | nil => cases h
    | cons c text =>
      rw [scanOnce] at h
      by_cases hquote : c = quote
      · rw [hquote]
        rfl
      rw [if_neg hquote] at h
      by_cases hdict : c = '\x7b'
      · rw [if_pos hdict] at h
        split at h
        · cases h
        · obtain ⟨found, -, h⟩ := Option.map_eq_some_iff.mp h
          cases h
      rw [if_neg hdict] at h
      by_cases hlist : c = '['
      · rw [if_pos hlist] at h
        split at h
        · cases h
        · obtain ⟨found, -, h⟩ := Option.map_eq_some_iff.mp h
          cases h
      rw [if_neg hlist] at h
      cases isStr_scanScalar h

theorem loads_guarded {text : List Char} (h : Guarded text) (s : String) : loads floats text ≠ some (.str s) := by
  intro hloads
  rw [loads] at hloads
  split at hloads
  · cases hloads
  split at hloads
  · rename_i x rest hscan
    split at hloads
    · obtain rfl := Option.some.inj hloads
      obtain ⟨back, hback⟩ := List.head?_eq_some_iff.mp (scanOnce_str hscan)
      have htext : text = text.takeWhile isSpace ++ quote :: back := by
        rw [← hback]
        exact (List.takeWhile_append_dropWhile (p := isSpace)).symm
      obtain ⟨before, hbefore⟩ := h _ _ htext
      have hspace : isSpace backslash = true := List.mem_takeWhile_imp (l := text) (by rw [hbefore]; simp)
      cases hspace
    · cases hloads
  · cases hloads

end Strings

/-- The dispatcher and the results service read a value back exactly when it is not a string. -/
theorem roundTrip_iff (floats : FloatFormat) (handlers : Handlers) (v : Value floats)
    (carrier : Carrier handlers (sendKafkaMessage floats v)) :
    (prepareMessage (jsonLoads floats) handlers carrier.message = .ok (some (carrier.message.topic, v.1)) ↔
      v.1.isStr = false) ∧
    (receivedJson (jsonLoads floats) (some (sendKafkaMessage floats v)) = some v.1 ↔ v.1.isStr = false) := by
  obtain ⟨v, hv⟩ := v
  have hreceived : receivedJson (jsonLoads floats) (some (sendKafkaMessage floats v)) = some v ↔ v.isStr = false := by
    rw [receivedJson_sent]
    constructor
    · intro hloads
      by_contra hstr
      obtain ⟨s, rfl⟩ := Json.isStr_iff.mp (eq_true_of_ne_false hstr)
      rw [dumps] at hloads
      exact loads_guarded (stripQuotes_dumpsString s) s hloads
    · intro hstr
      rw [stripQuotes_bare (bare_dumps hv hstr), String.toList_ofList, loads_dumps hv]
  refine ⟨?_, hreceived⟩
  rw [← hreceived, prepareMessage_carrier]
  simp

section StringSent

def halves : FloatFormat where
  finite q := q = 1 / 2
  repr _ := ['0', '.', '5']
  parse text := if text = ['0', '.', '5'] then .finite (1 / 2) else .nan
  shape _ _ := by
    have hdigits : Digits ['5'] := fun c hc => by rw [List.mem_singleton.mp hc]; rfl
    exact ⟨['0'], ['.', '5'], [], rfl, .natural .zero, .present (by simp) hdigits, .absent, Or.inl (by simp)⟩
  parse_repr q hq := by rw [hq]; rfl

def sentText : Value halves := ⟨.str "1", trivial⟩

theorem roundTrip_digit :
    prepareMessage (jsonLoads halves) [("platform.notifications.ingress", {})]
        { topic := "platform.notifications.ingress", offset := 0, value := some (sendKafkaMessage halves sentText.1) } =
      .ok (some ("platform.notifications.ingress", .int 1)) ∧
    receivedJson (jsonLoads halves) (some (sendKafkaMessage halves sentText.1)) = some (.int 1) := by
  decide +kernel

end StringSent

end Advisor.Kafka
