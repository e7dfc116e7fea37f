import Advisor.Python.Json
import Advisor.Python.Uuid
import Mathlib.Tactic.IntervalCases

/-! `json.dumps` and `json.loads` with their default arguments, on lists of characters. Values nested deeper than
the interpreter recurses are not told apart from others. -/

namespace Python

namespace JsonText

def quote : Char := Char.ofNat 34

def backslash : Char := Char.ofNat 92

def maxDigits : Nat := 4300

section Shapes

def isSpace (c : Char) : Bool := c = ' ' || c = '\t' || c = '\n' || c = '\r'

def skipSpace (text : List Char) : List Char := text.dropWhile isSpace

def after (word : String) (text : List Char) : Option (List Char) :=
  if word.toList.isPrefixOf text then some (text.drop word.length) else none

def Digits (ds : List Char) : Prop := ∀ c ∈ ds, c.isDigit = true

inductive Natural : List Char → Prop where
  | zero : Natural ['0']
  | positive {c : Char} {ds : List Char} (hc : c.isDigit = true) (hne : c ≠ '0') (hds : Digits ds) : Natural (c :: ds)

inductive IntPart : List Char → Prop where
  | natural {ds : List Char} (h : Natural ds) : IntPart ds
  | negative {ds : List Char} (h : Natural ds) : IntPart ('-' :: ds)

inductive FracPart : List Char → Prop where
  | absent : FracPart []
  | present {ds : List Char} (hne : ds ≠ []) (hds : Digits ds) : FracPart ('.' :: ds)

inductive ExpPart : List Char → Prop where
  | absent : ExpPart []
  | plain {e : Char} {ds : List Char} (he : e = 'e' ∨ e = 'E') (hne : ds ≠ []) (hds : Digits ds) : ExpPart (e :: ds)
  | signed {e sign : Char} {ds : List Char} (he : e = 'e' ∨ e = 'E') (hs : sign = '-' ∨ sign = '+') (hne : ds ≠ [])
      (hds : Digits ds) : ExpPart (e :: sign :: ds)

end Shapes

end JsonText

/-- `repr` of a float and `float` of a text, on the finite values that a float takes. -/
structure FloatFormat where
  finite : ℚ → Prop
  repr : ℚ → List Char
  parse : List Char → Floating
  shape : ∀ q, finite q → ∃ int frac exp, repr q = int ++ frac ++ exp ∧ JsonText.IntPart int ∧
    JsonText.FracPart frac ∧ JsonText.ExpPart exp ∧ (frac ≠ [] ∨ exp ≠ [])
  parse_repr : ∀ q, finite q → parse (repr q) = .finite q

namespace JsonText

variable (floats : FloatFormat)

def unicodeEscape (unit : Nat) : List Char := backslash :: 'u' :: (Uuid.nibbles 4 unit).map Uuid.hexDigit

def unitsOf (c : Char) : List Nat :=
  if c.toNat < 0x10000 then [c.toNat]
  else [0xD800 + (c.toNat - 0x10000) / 1024, 0xDC00 + (c.toNat - 0x10000) % 1024]

def shortEscapes : List (Char × Char) :=
  [(quote, quote), (backslash, backslash), ('n', '\n'), ('r', '\r'), ('t', '\t'), ('f', Char.ofNat 12),
    ('b', Char.ofNat 8)]

/-- `ensure_ascii` leaves what is printable in ASCII. -/
def escapeChar (c : Char) : List Char :=
  match shortEscapes.find? fun escape => escape.2 = c with
  | some escape => [backslash, escape.1]
  | none => if 32 ≤ c.toNat ∧ c.toNat < 127 then [c] else (unitsOf c).flatMap unicodeEscape

def dumpsString (s : String) : List Char := quote :: (s.toList.flatMap escapeChar ++ [quote])

def dumpsInt (i : Int) : List Char :=
  if i < 0 then '-' :: Nat.toDigits 10 i.natAbs else Nat.toDigits 10 i.natAbs

def dumpsFloat : Floating → List Char
  | .finite q => floats.repr q
  | .infinite false => "Infinity".toList
  | .infinite true => "-Infinity".toList
  | .nan => "NaN".toList

mutual

def dumps : Json → List Char
  | .null => "null".toList
  | .bool true => "true".toList
  | .bool false => "false".toList
  | .int i => dumpsInt i
  | .float x => dumpsFloat floats x
  | .str s => dumpsString s
  | .list xs => '[' :: dumpsItems xs
  | .dict items => '{' :: dumpsPairs items

def dumpsItems : List Json → List Char
  | [] => [']']
  | x :: xs => dumps x ++ dumpsRest xs

def dumpsRest : List Json → List Char
  | [] => [']']
  | x :: xs => ',' :: ' ' :: dumps x ++ dumpsRest xs

def dumpsPairs : List (String × Json) → List Char
  | [] => ['}']
  | (key, x) :: items => dumpsString key ++ ':' :: ' ' :: dumps x ++ dumpsRestPairs items

def dumpsRestPairs : List (String × Json) → List Char
  | [] => ['}']
  | (key, x) :: items => ',' :: ' ' :: dumpsString key ++ ':' :: ' ' :: dumps x ++ dumpsRestPairs items

end

section Strings

def hexUnit (digits : List Char) : Option Nat := (digits.mapM Uuid.hexValue?).map Uuid.ofNibbles

def shortUnit (e : Char) : Option Nat :=
  if e = '/' then some '/'.toNat else (shortEscapes.find? fun escape => escape.1 = e).map (·.2.toNat)

def scanUnits : List Char → Option (List Nat × List Char)
  | [] => none
  | c :: rest =>
    if c = quote then some ([], rest)
    else if c = backslash then
      match rest with
      | 'u' :: d₁ :: d₂ :: d₃ :: d₄ :: rest => do
        let unit ← hexUnit [d₁, d₂, d₃, d₄]
        let (units, rest) ← scanUnits rest
        return (unit :: units, rest)
      | e :: rest => do
        let unit ← shortUnit e
        let (units, rest) ← scanUnits rest
        return (unit :: units, rest)
      | [] => none
    else if c.toNat < 32 then none
    else do
      let (units, rest) ← scanUnits rest
      return (c.toNat :: units, rest)

def isHigh (unit : Nat) : Bool := 0xD800 ≤ unit && unit < 0xDC00

def isLow (unit : Nat) : Bool := 0xDC00 ≤ unit && unit < 0xE000

/-- A surrogate without its partner is not a character of Lean: U+FFFD stands for it. -/
def charOf (unit : Nat) : Char := if unit.isValidChar then Char.ofNat unit else Char.ofNat 0xFFFD

def joinUnits : List Nat → List Char
  | [] => []
  | [unit] => [charOf unit]
  | high :: low :: units =>
    if isHigh high && isLow low then
      Char.ofNat (0x10000 + (high - 0xD800) * 1024 + (low - 0xDC00)) :: joinUnits units
    else charOf high :: joinUnits (low :: units)

def scanString (text : List Char) : Option (String × List Char) :=
  (scanUnits text).map fun (units, rest) => (String.ofList (joinUnits units), rest)

end Strings

section Numbers

def scanNatural (sign : List Char) : List Char → Option (List Char × List Char)
  | [] => none
  | c :: rest =>
    if c = '0' then some (sign ++ ['0'], rest)
    else if c.isDigit then some (sign ++ c :: rest.takeWhile Char.isDigit, rest.dropWhile Char.isDigit)
    else none

def scanInt : List Char → Option (List Char × List Char)
  | [] => none
  | c :: rest => if c = '-' then scanNatural ['-'] rest else scanNatural [] (c :: rest)

/-- Digits after a sign or a mark; without any, the mark is not part of the number. -/
def scanDigits (mark text whole : List Char) : List Char × List Char :=
  if (text.takeWhile Char.isDigit).isEmpty then ([], whole)
  else (mark ++ text.takeWhile Char.isDigit, text.dropWhile Char.isDigit)

def scanFrac : List Char → List Char × List Char
  | c :: rest => if c = '.' then scanDigits [c] rest (c :: rest) else ([], c :: rest)
  | [] => ([], [])

def scanExp : List Char → List Char × List Char
  | e :: rest =>
    if e = 'e' ∨ e = 'E' then
      match rest with
      | [] => ([], [e])
      | sign :: digits =>
        if sign = '-' ∨ sign = '+' then scanDigits [e, sign] digits (e :: rest) else scanDigits [e] rest (e :: rest)
    else ([], e :: rest)
  | [] => ([], [])

def intOf : List Char → Int
  | [] => 0
  | c :: ds => if c = '-' then -Nat.ofDigitChars 10 ds 0 else Nat.ofDigitChars 10 (c :: ds) 0

/-- `_match_number`: an `int` with too many digits raises. -/
def scanNumber (text : List Char) : Option (Json × List Char) := do
  let (int, rest) ← scanInt text
  let (frac, rest) := scanFrac rest
  let (exp, rest) := scanExp rest
  if frac.isEmpty && exp.isEmpty then
    if (int.filter Char.isDigit).length ≤ maxDigits then some (.int (intOf int), rest) else none
  else some (.float (floats.parse (int ++ frac ++ exp)), rest)

end Numbers

def scanScalar (text : List Char) : Option (Json × List Char) :=
  match after "null" text with
  | some rest => some (.null, rest)
  | none =>
  match after "true" text with
  | some rest => some (.bool true, rest)
  | none =>
  match after "false" text with
  | some rest => some (.bool false, rest)
  | none =>
  match scanNumber floats text with
  | some found => some found
  | none =>
  match after "NaN" text with
  | some rest => some (.float .nan, rest)
  | none =>
  match after "Infinity" text with
  | some rest => some (.float (.infinite false), rest)
  | none => (after "-Infinity" text).map fun rest => (.float (.infinite true), rest)

mutual

/-- `_scan_once`. Two turns in a row read a character, so the fuel `loads` gives lasts. -/
def scanOnce : Nat → List Char → Option (Json × List Char)
  | 0, _ => none
  | _ + 1, [] => none
  | fuel + 1, c :: rest =>
    if c = quote then (scanString rest).map fun (s, rest) => (.str s, rest)
    else if c = '{' then
      match after "\x7d" (skipSpace rest) with
      | some rest => some (.dict [], rest)
      | none => (scanPairs fuel (skipSpace rest)).map fun (pairs, rest) =>
          (.dict (pairs.foldl (fun items pair => Json.setKey pair.1 pair.2 items) []), rest)
    else if c = '[' then
      match after "]" (skipSpace rest) with
      | some rest => some (.list [], rest)
      | none => (scanItems fuel (skipSpace rest)).map fun (xs, rest) => (.list xs, rest)
    else scanScalar floats (c :: rest)

def scanItems : Nat → List Char → Option (List Json × List Char)
  | 0, _ => none
  | fuel + 1, text => do
    let (x, rest) ← scanOnce fuel text
    match skipSpace rest with
    | ']' :: rest => return ([x], rest)
    | ',' :: rest => do
      let (xs, rest) ← scanItems fuel (skipSpace rest)
      return (x :: xs, rest)
    | _ => none

def scanPairs : Nat → List Char → Option (List (String × Json) × List Char)
  | 0, _ => none
  | fuel + 1, text => do
    let (key, rest) ← scanString (← after (String.singleton quote) text)
    let rest ← after ":" (skipSpace rest)
    let (x, rest) ← scanOnce fuel (skipSpace rest)
    match skipSpace rest with
    | '}' :: rest => return ([(key, x)], rest)
    | ',' :: rest => do
      let (pairs, rest) ← scanPairs fuel (skipSpace rest)
      return ((key, x) :: pairs, rest)
    | _ => none

end

def loads (text : List Char) : Option Json :=
  if text.head? = some (Char.ofNat 0xFEFF) then none
  else
    match scanOnce floats (2 * text.length + 2) (skipSpace text) with
    | some (x, rest) => if skipSpace rest = [] then some x else none
    | none => none

variable {floats : FloatFormat}

section Texts

theorem after_append (word : String) (rest : List Char) : after word (word.toList ++ rest) = some rest := by
  simp [after, ← String.length_toList]

theorem after_ne {word : String} {w c : Char} (hword : word.toList.head? = some w) (h : w ≠ c) (rest : List Char) :
    after word (c :: rest) = none := by
  obtain ⟨ws, hws⟩ := List.head?_eq_some_iff.mp hword
  simp [after, hws, h]

theorem skipSpace_of_not {c : Char} (h : isSpace c = false) (rest : List Char) : skipSpace (c :: rest) = c :: rest := by
  simp [skipSpace, h]

def Ends (rest : List Char) : Prop := ∀ c, rest.head? = some c → c = ',' ∨ c = ']' ∨ c = '}'

end Texts

section StringProofs

theorem hexUnit_nibbles {unit : Nat} (h : unit < 0x10000) :
    hexUnit ((Uuid.nibbles 4 unit).map Uuid.hexDigit) = some unit := by
  have hvalues : ∀ ds : List Nat, (∀ d ∈ ds, d < 16) → (ds.map Uuid.hexDigit).mapM Uuid.hexValue? = some ds := by
    intro ds
    induction ds with
    | nil => simp
    | cons d ds ih =>
      intro hds
      simp [Uuid.hexValue?_hexDigit (hds d (by simp)), ih fun x hx => hds x (by simp [hx])]
  rw [hexUnit, hvalues _ (Uuid.nibbles_lt 4 unit), Option.map_some, Uuid.ofNibbles_nibbles]
  exact congrArg some (Nat.mod_eq_of_lt h)

theorem scanUnits_unicodeEscape {unit : Nat} (h : unit < 0x10000) (rest : List Char) :
    scanUnits (unicodeEscape unit ++ rest) = (scanUnits rest).map fun found => (unit :: found.1, found.2) := by
  have hunit := hexUnit_nibbles h
  have hlength := Uuid.nibbles_length 4 unit
  generalize hds : (Uuid.nibbles 4 unit).map Uuid.hexDigit = ds at hunit
  have hfour : ds.length = 4 := by rw [← hds, List.length_map, hlength]
  obtain ⟨a, b, c, d, rfl⟩ : ∃ a b c d, ds = [a, b, c, d] := by
    match ds, hfour with
    | [a, b, c, d], _ => exact ⟨a, b, c, d, rfl⟩
  rw [unicodeEscape, hds]
  cases hrest : scanUnits rest <;>
    simp [scanUnits, show backslash ≠ quote by decide, hunit, hrest]

theorem scanUnits_short {e : Char} {unit : Nat} (he : e ≠ 'u') (h : shortUnit e = some unit) (rest : List Char) :
    scanUnits (backslash :: e :: rest) = (scanUnits rest).map fun found => (unit :: found.1, found.2) := by
  rw [scanUnits, if_neg (by decide), if_pos rfl]
  · cases scanUnits rest <;> simp [h]
  · intro d₁ d₂ d₃ d₄ rest' heq
    exact absurd heq he

theorem scanUnits_quote (rest : List Char) : scanUnits (quote :: rest) = some ([], rest) := by
  rw [scanUnits.eq_def]
  simp

theorem scanUnits_plain {c : Char} (hquote : c ≠ quote) (hback : c ≠ backslash) (h : 32 ≤ c.toNat) (rest : List Char) :
    scanUnits (c :: rest) = (scanUnits rest).map fun found => (c.toNat :: found.1, found.2) := by
  rw [scanUnits.eq_def]
  cases hrest : scanUnits rest <;> simp [hquote, hback, hrest, show ¬ c.toNat < 32 by omega]

theorem unitsOf_lt {c : Char} : ∀ unit ∈ unitsOf c, unit < 0x10000 := by
  have hc : c.toNat < 0x110000 := by
    rcases c.valid with h | h
    · exact Nat.lt_trans h (by decide)
    · exact h.2
  intro unit h
  unfold unitsOf at h
  split at h
  · rw [List.mem_singleton.mp h]
    assumption
  · simp only [List.mem_cons, List.not_mem_nil, or_false] at h
    omega

theorem scanUnits_escapeChar (c : Char) (rest : List Char) :
    scanUnits (escapeChar c ++ rest) = (scanUnits rest).map fun found => (unitsOf c ++ found.1, found.2) := by
  unfold escapeChar
  split
  · rename_i escape hfind
    have hmem := List.mem_of_find?_eq_some hfind
    have hc : escape.2 = c := by simpa using List.find?_some hfind
    have hshort : ∀ escape ∈ shortEscapes, escape.1 ≠ 'u' ∧ shortUnit escape.1 = some escape.2.toNat ∧
        unitsOf escape.2 = [escape.2.toNat] := by decide
    obtain ⟨hu, hunit, hunits⟩ := hshort escape hmem
    rw [hc] at hunit hunits
    rw [hunits]
    exact scanUnits_short hu hunit rest
  · rename_i hfind
    split
    · rename_i hprintable
      have hquote : c ≠ quote := fun h => by
        have hnone := List.find?_eq_none.mp hfind (quote, quote) (by decide)
        simp [h] at hnone
      have hback : c ≠ backslash := fun h => by
        have hnone := List.find?_eq_none.mp hfind (backslash, backslash) (by decide)
        simp [h] at hnone
      have hunits : unitsOf c = [c.toNat] := by
        rw [unitsOf, if_pos (by omega)]
      rw [hunits]
      exact scanUnits_plain hquote hback hprintable.1 rest
    · have hall : ∀ units : List Nat, (∀ unit ∈ units, unit < 0x10000) →
          scanUnits (units.flatMap unicodeEscape ++ rest) =
            (scanUnits rest).map fun found => (units ++ found.1, found.2) := by
        intro units
        induction units with
        | nil =>
          intro _
          simp
        | cons unit units ih =>
          intro hunits
          rw [List.flatMap_cons, List.append_assoc, scanUnits_unicodeEscape (hunits unit (by simp)),
            ih fun x hx => hunits x (by simp [hx]), Option.map_map]
          rfl
      exact hall _ unitsOf_lt

theorem charOf_toNat (c : Char) : charOf c.toNat = c := by
  have hvalid : c.toNat.isValidChar := c.valid
  rw [charOf, if_pos hvalid, Char.ofNat_toNat]

theorem joinUnits_unitsOf (c : Char) (units : List Nat) : joinUnits (unitsOf c ++ units) = c :: joinUnits units := by
  unfold unitsOf
  split
  · have hhigh : isHigh c.toNat = false := by
      rcases c.valid with h | h
      · have hlow : c.toNat < 0xD800 := h
        simp only [isHigh, Bool.and_eq_false_iff, decide_eq_false_iff_not]
        omega
      · have hhigh : 0xDFFF < c.toNat := h.1
        simp only [isHigh, Bool.and_eq_false_iff, decide_eq_false_iff_not]
        omega
    cases units with
    | nil => simp [joinUnits, charOf_toNat]
    | cons unit units => simp [joinUnits, hhigh, charOf_toNat]
  · have hc : c.toNat < 0x110000 := by
      rcases c.valid with h | h
      · exact Nat.lt_trans h (by decide)
      · exact h.2
    have hpair : (isHigh (0xD800 + (c.toNat - 0x10000) / 1024) &&
        isLow (0xDC00 + (c.toNat - 0x10000) % 1024)) = true := by
      simp only [isHigh, isLow, Bool.and_eq_true, decide_eq_true_eq]
      omega
    have hjoin : 0x10000 + (0xD800 + (c.toNat - 0x10000) / 1024 - 0xD800) * 1024 +
        (0xDC00 + (c.toNat - 0x10000) % 1024 - 0xDC00) = c.toNat := by omega
    rw [List.cons_append, List.singleton_append, joinUnits, if_pos hpair, hjoin, Char.ofNat_toNat]

/-- A string is read back from its text. -/
theorem scanString_dumpsString (s : String) (rest : List Char) :
    scanString (s.toList.flatMap escapeChar ++ quote :: rest) = some (s, rest) := by
  have hunits : ∀ cs : List Char, scanUnits (cs.flatMap escapeChar ++ quote :: rest) =
      some (cs.flatMap unitsOf, rest) := by
    intro cs
    induction cs with
    | nil => exact scanUnits_quote rest
    | cons c cs ih => rw [List.flatMap_cons, List.append_assoc, scanUnits_escapeChar, ih]; rfl
  have hjoin : ∀ cs : List Char, joinUnits (cs.flatMap unitsOf) = cs := by
    intro cs
    induction cs with
    | nil => rfl
    | cons c cs ih => rw [List.flatMap_cons, joinUnits_unitsOf, ih]
  simp only [scanString, hunits, Option.map_some, hjoin, String.ofList_toList]

end StringProofs

section NumberProofs

def NoDigit (rest : List Char) : Prop := ∀ c, rest.head? = some c → c.isDigit = false

theorem Ends.noDigit {rest : List Char} (h : Ends rest) : NoDigit rest := by
  intro c hc
  rcases h c hc with rfl | rfl | rfl <;> rfl

theorem takeWhile_digits {ds rest : List Char} (hds : Digits ds) (hrest : NoDigit rest) :
    (ds ++ rest).takeWhile Char.isDigit = ds := by
  rw [List.takeWhile_append_of_pos hds]
  cases rest with
  | nil => simp
  | cons c rest => simp [hrest c rfl]

theorem dropWhile_digits {ds rest : List Char} (hds : Digits ds) (hrest : NoDigit rest) :
    (ds ++ rest).dropWhile Char.isDigit = rest := by
  rw [List.dropWhile_append_of_pos hds]
  cases rest with
  | nil => simp
  | cons c rest => simp [hrest c rfl]

theorem scanDigits_digits {ds rest : List Char} (mark whole : List Char) (hne : ds ≠ []) (hds : Digits ds)
    (hrest : NoDigit rest) : scanDigits mark (ds ++ rest) whole = (mark ++ ds, rest) := by
  rw [scanDigits, takeWhile_digits hds hrest, dropWhile_digits hds hrest]
  simp [hne]

theorem scanNatural_natural {ds rest : List Char} (sign : List Char) (h : Natural ds) (hrest : NoDigit rest) :
    scanNatural sign (ds ++ rest) = some (sign ++ ds, rest) := by
  cases h with
  | zero => simp [scanNatural]
  | positive hc hne hds =>
    rw [List.cons_append, scanNatural, if_neg hne, if_pos hc, takeWhile_digits hds hrest, dropWhile_digits hds hrest]

theorem Natural.head {ds : List Char} (h : Natural ds) : ∃ c cs, ds = c :: cs ∧ c.isDigit = true := by
  cases h with
  | zero => exact ⟨'0', [], rfl, rfl⟩
  | positive hc => exact ⟨_, _, rfl, hc⟩

theorem IntPart.head {int : List Char} (h : IntPart int) : ∃ c cs, int = c :: cs ∧ (c.isDigit = true ∨ c = '-') := by
  cases h with
  | natural h =>
    obtain ⟨c, cs, rfl, hc⟩ := h.head
    exact ⟨c, cs, rfl, Or.inl hc⟩
  | negative => exact ⟨'-', _, rfl, Or.inr rfl⟩

theorem scanInt_intPart {int rest : List Char} (h : IntPart int) (hrest : NoDigit rest) :
    scanInt (int ++ rest) = some (int, rest) := by
  cases h with
  | natural h =>
    have hscan := scanNatural_natural [] h hrest
    obtain ⟨c, cs, rfl, hc⟩ := h.head
    have hminus : c ≠ '-' := by
      rintro rfl
      cases hc
    rw [List.cons_append, scanInt, if_neg hminus]
    exact hscan
  | negative h =>
    rw [List.cons_append, scanInt, if_pos rfl]
    exact scanNatural_natural ['-'] h hrest

theorem FracPart.noDigit {frac rest : List Char} (h : FracPart frac) (hrest : NoDigit rest) :
    NoDigit (frac ++ rest) := by
  cases h with
  | absent => exact hrest
  | present =>
    intro c hc
    obtain rfl : '.' = c := Option.some.inj hc
    rfl

theorem ExpPart.noDigit {exp rest : List Char} (h : ExpPart exp) (hrest : NoDigit rest) : NoDigit (exp ++ rest) := by
  have hmark : ∀ e : Char, e = 'e' ∨ e = 'E' → e.isDigit = false := by
    rintro e (rfl | rfl) <;> rfl
  cases h with
  | absent => exact hrest
  | plain he | signed he =>
    intro c hc
    obtain rfl := Option.some.inj hc
    exact hmark _ he

theorem scanFrac_fracPart {frac rest : List Char} (h : FracPart frac) (hrest : NoDigit rest)
    (hdot : ∀ c, rest.head? = some c → c ≠ '.') : scanFrac (frac ++ rest) = (frac, rest) := by
  cases h with
  | absent =>
    cases rest with
    | nil => rfl
    | cons c rest => rw [List.nil_append, scanFrac, if_neg (hdot c rfl)]
  | present hne hds =>
    rw [List.cons_append, scanFrac, if_pos rfl]
    exact scanDigits_digits ['.'] _ hne hds hrest

theorem scanExp_expPart {exp rest : List Char} (h : ExpPart exp) (hrest : Ends rest) :
    scanExp (exp ++ rest) = (exp, rest) := by
  cases h with
  | absent =>
    cases rest with
    | nil => rfl
    | cons c rest =>
      have hmark : ¬ (c = 'e' ∨ c = 'E') := by
        rcases hrest c rfl with rfl | rfl | rfl <;> decide
      rw [List.nil_append, scanExp.eq_def]
      simp only [if_neg hmark]
  | plain he hne hds =>
    rename_i e ds
    obtain ⟨d, ds, rfl⟩ := List.exists_cons_of_ne_nil hne
    have hsign : ¬ (d = '-' ∨ d = '+') := by
      have hd := hds d (by simp)
      rintro (rfl | rfl) <;> cases hd
    rw [List.cons_append, List.cons_append, scanExp.eq_def]
    simp only [if_pos he, if_neg hsign]
    exact scanDigits_digits [e] _ hne hds hrest.noDigit
  | signed he hs hne hds =>
    rename_i e sign ds
    rw [List.cons_append, List.cons_append, scanExp.eq_def]
    simp only [if_pos he, if_pos hs]
    exact scanDigits_digits [e, sign] _ hne hds hrest.noDigit

theorem natural_toDigits (n : Nat) : Natural (Nat.toDigits 10 n) := by
  induction n using Nat.strongRecOn with
  | ind n ih =>
    by_cases hn : n < 10
    · rw [Nat.toDigits_of_lt_base hn]
      have hdigit : ∀ d < 10, Natural [d.digitChar] := by
        intro d hd
        by_cases hzero : d = 0
        · rw [hzero]
          exact Natural.zero
        · have hpos : 0 < d := by omega
          exact Natural.positive (by interval_cases d <;> rfl) (by interval_cases d <;> decide) (by simp [Digits])
      exact hdigit n hn
    · rw [Nat.toDigits_of_base_le (by omega) (by omega)]
      have hlast : Digits [(n % 10).digitChar] := by
        intro c hc
        rw [← Nat.toDigits_of_lt_base (show n % 10 < 10 by omega)] at hc
        exact Nat.isDigit_of_mem_toDigits (by omega) (by omega) hc
      have hfront := ih (n / 10) (by omega)
      generalize hds : Nat.toDigits 10 (n / 10) = ds at hfront ⊢
      cases hfront with
      | zero =>
        have hback : Nat.ofDigitChars 10 (Nat.toDigits 10 (n / 10)) 0 = n / 10 := Nat.ofDigitChars_ten_toDigits
        rw [hds] at hback
        have hzero : Nat.ofDigitChars 10 ['0'] 0 = 0 := rfl
        omega
      | positive hc hne htail =>
        refine Natural.positive hc hne fun c hmem => ?_
        rcases List.mem_append.mp hmem with h | h
        · exact htail c h
        · exact hlast c h

theorem intPart_dumpsInt (i : Int) : IntPart (dumpsInt i) := by
  unfold dumpsInt
  split
  · exact IntPart.negative (natural_toDigits _)
  · exact IntPart.natural (natural_toDigits _)

theorem intOf_dumpsInt (i : Int) : intOf (dumpsInt i) = i := by
  have hback : Nat.ofDigitChars 10 (Nat.toDigits 10 i.natAbs) 0 = i.natAbs := Nat.ofDigitChars_ten_toDigits
  unfold dumpsInt
  split
  · rw [intOf, if_pos rfl, hback]
    omega
  · obtain ⟨c, cs, hds, hc⟩ := (natural_toDigits i.natAbs).head
    have hminus : c ≠ '-' := by
      rintro rfl
      cases hc
    rw [hds, intOf, if_neg hminus, ← hds, hback]
    omega

def FewDigits (i : Int) : Prop := (Nat.toDigits 10 i.natAbs).length ≤ maxDigits

theorem filter_dumpsInt (i : Int) : (dumpsInt i).filter Char.isDigit = Nat.toDigits 10 i.natAbs := by
  have hds : (Nat.toDigits 10 i.natAbs).filter Char.isDigit = Nat.toDigits 10 i.natAbs :=
    List.filter_eq_self.mpr fun c hc => Nat.isDigit_of_mem_toDigits (by omega) (by omega) hc
  unfold dumpsInt
  split
  · rw [List.filter_cons_of_neg (by decide), hds]
  · exact hds

theorem scanNumber_dumpsInt {i : Int} (hi : FewDigits i) {rest : List Char} (hrest : Ends rest) :
    scanNumber floats (dumpsInt i ++ rest) = some (.int i, rest) := by
  have hdot : ∀ c, rest.head? = some c → c ≠ '.' := by
    intro c hc
    rcases hrest c hc with rfl | rfl | rfl <;> decide
  have hfrac := scanFrac_fracPart FracPart.absent hrest.noDigit hdot
  have hexp := scanExp_expPart ExpPart.absent hrest
  simp only [List.nil_append] at hfrac hexp
  have hfew : (Nat.toDigits 10 i.natAbs).length ≤ maxDigits := hi
  simp [scanNumber, scanInt_intPart (intPart_dumpsInt i) hrest.noDigit, hfrac, hexp, filter_dumpsInt, hfew,
    intOf_dumpsInt]

theorem scanNumber_repr {q : ℚ} (hq : floats.finite q) {rest : List Char} (hrest : Ends rest) :
    scanNumber floats (floats.repr q ++ rest) = some (.float (.finite q), rest) := by
  obtain ⟨int, frac, exp, hrepr, hint, hfrac, hexp, hmark⟩ := floats.shape q hq
  have hparse := floats.parse_repr q hq
  have hafter : NoDigit (exp ++ rest) := hexp.noDigit hrest.noDigit
  have hdot : ∀ c, (exp ++ rest).head? = some c → c ≠ '.' := by
    intro c hc
    cases hexp with
    | absent => rcases hrest c hc with rfl | rfl | rfl <;> decide
    | plain he | signed he =>
      obtain rfl := Option.some.inj hc
      rcases he with rfl | rfl <;> decide
  have hscan : scanInt (floats.repr q ++ rest) = some (int, frac ++ (exp ++ rest)) := by
    rw [hrepr, List.append_assoc, List.append_assoc]
    exact scanInt_intPart hint (hfrac.noDigit hafter)
  have hnotInt : (frac.isEmpty && exp.isEmpty) = false := by
    rcases hmark with h | h <;> simp [h]
  rw [hrepr] at hparse
  simp only [scanNumber, hscan, Option.bind_eq_bind, Option.bind_some, scanFrac_fracPart hfrac hafter hdot,
    scanExp_expPart hexp hrest, hnotInt, hparse]
  rfl

end NumberProofs

section ValueProofs

mutual

/-- A value Python can hold and write: a dict has each key once, a float is one of the machine's, and an `int` has
few enough digits for `str`. -/
def Dumpable (floats : FloatFormat) : Json → Prop
  | .int i => FewDigits i
  | .float (.finite q) => floats.finite q
  | .list xs => DumpableItems floats xs
  | .dict items => (items.map Prod.fst).Nodup ∧ DumpablePairs floats items
  | .null | .bool _ | .str _ | .float (.infinite _) | .float .nan => True

def DumpableItems (floats : FloatFormat) : List Json → Prop
  | [] => True
  | x :: xs => Dumpable floats x ∧ DumpableItems floats xs

def DumpablePairs (floats : FloatFormat) : List (String × Json) → Prop
  | [] => True
  | (_, x) :: items => Dumpable floats x ∧ DumpablePairs floats items

end

/-- What a value's text begins with: nothing that is skipped or that ends a list or a dict, nor a byte order mark. -/
def Begins (c : Char) : Prop := isSpace c = false ∧ c ≠ ']' ∧ c ≠ '}' ∧ c ≠ Char.ofNat 0xFEFF

theorem IntPart.begins {int : List Char} (h : IntPart int) : ∃ c cs, int = c :: cs ∧ Begins c ∧ c ≠ quote := by
  obtain ⟨c, cs, rfl, hc | rfl⟩ := h.head
  · refine ⟨c, cs, rfl, ⟨?_, ?_, ?_, ?_⟩, ?_⟩
    · by_contra hspace
      simp only [isSpace, Bool.not_eq_false, Bool.or_eq_true, decide_eq_true_eq] at hspace
      rcases hspace with ((rfl | rfl) | rfl) | rfl <;> cases hc
    all_goals
      rintro rfl
      cases hc
  · exact ⟨'-', cs, rfl, ⟨rfl, by decide, by decide, by decide⟩, by decide⟩

theorem dumps_begins {v : Json} (h : Dumpable floats v) : ∃ c cs, dumps floats v = c :: cs ∧ Begins c := by
  cases v with
  | null => exact ⟨'n', ['u', 'l', 'l'], by rw [dumps]; rfl, rfl, by decide, by decide, by decide⟩
  | bool b =>
    cases b with
    | true => exact ⟨'t', ['r', 'u', 'e'], by rw [dumps]; rfl, rfl, by decide, by decide, by decide⟩
    | false => exact ⟨'f', ['a', 'l', 's', 'e'], by rw [dumps]; rfl, rfl, by decide, by decide, by decide⟩
  | int i =>
    obtain ⟨c, cs, hint, hc, -⟩ := (intPart_dumpsInt i).begins
    exact ⟨c, cs, by rw [dumps, hint], hc⟩
  | float x =>
    cases x with
    | finite q =>
      have hq : floats.finite q := by simpa [Dumpable] using h
      obtain ⟨int, frac, exp, hrepr, hint, -⟩ := floats.shape q hq
      obtain ⟨c, cs, rfl, hc, -⟩ := hint.begins
      have hdumps : dumpsFloat floats (.finite q) = floats.repr q := rfl
      refine ⟨c, cs ++ frac ++ exp, ?_, hc⟩
      rw [dumps, hdumps, hrepr, List.cons_append, List.cons_append]
    | infinite negative =>
      cases negative with
      | true => exact ⟨'-', "Infinity".toList, by rw [dumps]; rfl, rfl, by decide, by decide, by decide⟩
      | false => exact ⟨'I', "nfinity".toList, by rw [dumps]; rfl, rfl, by decide, by decide, by decide⟩
    | nan => exact ⟨'N', ['a', 'N'], by rw [dumps]; rfl, rfl, by decide, by decide, by decide⟩
  | str s => exact ⟨quote, _, by rw [dumps]; rfl, rfl, by decide, by decide, by decide⟩
  | list xs => exact ⟨'[', dumpsItems floats xs, by rw [dumps], rfl, by decide, by decide, by decide⟩
  | dict items => exact ⟨'\x7b', dumpsPairs floats items, by rw [dumps], rfl, by decide, by decide, by decide⟩

theorem ends_dumpsRest (floats : FloatFormat) (xs : List Json) (rest : List Char) : Ends (dumpsRest floats xs ++ rest) := by
  intro c hc
  cases xs with
  | nil =>
    obtain rfl : ']' = c := by simpa [dumpsRest] using hc
    exact Or.inr (Or.inl rfl)
  | cons x xs =>
    obtain rfl : ',' = c := by simpa [dumpsRest] using hc
    exact Or.inl rfl

theorem ends_dumpsRestPairs (floats : FloatFormat) (items : List (String × Json)) (rest : List Char) :
    Ends (dumpsRestPairs floats items ++ rest) := by
  intro c hc
  cases items with
  | nil =>
    obtain rfl : '\x7d' = c := by simpa [dumpsRestPairs] using hc
    exact Or.inr (Or.inr rfl)
  | cons item items =>
    obtain rfl : ',' = c := by simpa [dumpsRestPairs] using hc
    exact Or.inl rfl

theorem foldl_setKey {items kept : List (String × Json)} (h : ((kept ++ items).map Prod.fst).Nodup) :
    items.foldl (fun dict pair => Json.setKey pair.1 pair.2 dict) kept = kept ++ items := by
  have hnew : ∀ (key : String) (x : Json) (kept : List (String × Json)), key ∉ kept.map Prod.fst →
      Json.setKey key x kept = kept ++ [(key, x)] := by
    intro key x kept
    induction kept with
    | nil =>
      intro _
      rfl
    | cons head kept ih =>
      intro hkey
      simp only [List.map_cons, List.mem_cons, not_or] at hkey
      rw [Json.setKey, if_neg fun heq => hkey.1 heq.symm, ih hkey.2, List.cons_append]
  induction items generalizing kept with
  | nil => simp
  | cons item items ih =>
    have hkey : item.1 ∉ kept.map Prod.fst := by
      intro hmem
      rw [List.map_append, List.map_cons] at h
      exact (List.nodup_append.mp h).2.2 _ hmem _ (by simp) rfl
    have hrest : kept ++ item :: items = kept ++ [(item.1, item.2)] ++ items := by simp
    rw [List.foldl_cons, hnew item.1 item.2 kept hkey, hrest]
    exact ih (by rwa [← hrest])

theorem scanScalar_of_number {c : Char} {text rest : List Char} {v : Json} (hc : c.isDigit = true ∨ c = '-')
    (h : scanNumber floats (c :: text) = some (v, rest)) : scanScalar floats (c :: text) = some (v, rest) := by
  have hword : ∀ (w : Char), w.isDigit = false → w ≠ '-' → w ≠ c := by
    rintro w hw hminus rfl
    rcases hc with hc | hc
    · rw [hw] at hc
      cases hc
    · exact hminus hc
  rw [scanScalar, after_ne rfl (hword 'n' rfl (by decide)),
    after_ne rfl (hword 't' rfl (by decide)),
    after_ne rfl (hword 'f' rfl (by decide)), h]

theorem scanOnce_scalar {c : Char} (hquote : c ≠ quote) (hdict : c ≠ '\x7b') (hlist : c ≠ '[') (fuel : Nat)
    (rest : List Char) : scanOnce floats (fuel + 1) (c :: rest) = scanScalar floats (c :: rest) := by
  rw [scanOnce, if_neg hquote, if_neg hdict, if_neg hlist]

theorem skipSpace_begins {c : Char} (h : Begins c) (rest : List Char) : skipSpace (c :: rest) = c :: rest :=
  skipSpace_of_not h.1 rest

theorem skipSpace_dumps {v : Json} (h : Dumpable floats v) (rest : List Char) :
    skipSpace (dumps floats v ++ rest) = dumps floats v ++ rest := by
  obtain ⟨c, cs, hdumps, hc⟩ := dumps_begins h
  rw [hdumps]
  exact skipSpace_begins hc (cs ++ rest)

theorem skipSpace_blank (text : List Char) : skipSpace (' ' :: text) = skipSpace text := rfl

theorem scanNumber_of_not (floats : FloatFormat) {c : Char} (hdigit : c.isDigit = false) (hminus : c ≠ '-') (rest : List Char) :
    scanNumber floats (c :: rest) = none := by
  have hzero : c ≠ '0' := by
    rintro rfl
    cases hdigit
  simp [scanNumber, scanInt, scanNatural, hminus, hzero, hdigit]

theorem scanScalar_null (rest : List Char) : scanScalar floats ("null".toList ++ rest) = some (.null, rest) := by
  rw [scanScalar, after_append]

theorem scanScalar_bool (floats : FloatFormat) (b : Bool) (rest : List Char) :
    scanScalar floats (dumps floats (.bool b) ++ rest) = some (.bool b, rest) := by
  cases b with
  | true =>
    have htext : "true".toList ++ rest = 't' :: (['r', 'u', 'e'] ++ rest) := rfl
    rw [dumps, scanScalar, after_append, htext, after_ne rfl (by decide)]
  | false =>
    have htext : "false".toList ++ rest = 'f' :: (['a', 'l', 's', 'e'] ++ rest) := rfl
    rw [dumps, scanScalar, after_append, htext, after_ne rfl (by decide),
      after_ne rfl (by decide)]

theorem scanScalar_infinity (rest : List Char) :
    scanScalar floats ("Infinity".toList ++ rest) = some (.float (.infinite false), rest) := by
  have htext : "Infinity".toList ++ rest = 'I' :: ("nfinity".toList ++ rest) := rfl
  have hnumber := scanNumber_of_not floats (c := 'I') rfl (by decide) ("nfinity".toList ++ rest)
  rw [scanScalar, after_append, htext, hnumber, after_ne rfl (by decide),
    after_ne rfl (by decide), after_ne rfl (by decide),
    after_ne rfl (by decide)]

theorem scanScalar_minusInfinity (rest : List Char) :
    scanScalar floats ("-Infinity".toList ++ rest) = some (.float (.infinite true), rest) := by
  have htext : "-Infinity".toList ++ rest = '-' :: 'I' :: ("nfinity".toList ++ rest) := rfl
  have hnumber : scanNumber floats ('-' :: 'I' :: ("nfinity".toList ++ rest)) = none := by
    simp [scanNumber, scanInt, scanNatural]
  rw [scanScalar, after_append, htext, hnumber, after_ne rfl (by decide),
    after_ne rfl (by decide), after_ne rfl (by decide),
    after_ne rfl (by decide), after_ne rfl (by decide), Option.map_some]

theorem scanScalar_nan (rest : List Char) :
    scanScalar floats ("NaN".toList ++ rest) = some (.float .nan, rest) := by
  have htext : "NaN".toList ++ rest = 'N' :: (['a', 'N'] ++ rest) := rfl
  have hnumber := scanNumber_of_not floats (c := 'N') rfl (by decide) (['a', 'N'] ++ rest)
  rw [scanScalar, after_append, htext, hnumber, after_ne rfl (by decide),
    after_ne rfl (by decide), after_ne rfl (by decide)]

theorem scanOnce_word {word : String} {c : Char} {v : Json} (hword : word.toList.head? = some c) (hquote : c ≠ quote)
    (hdict : c ≠ '\x7b') (hlist : c ≠ '[') {rest : List Char}
    (h : scanScalar floats (word.toList ++ rest) = some (v, rest)) (fuel : Nat) :
    scanOnce floats (fuel + 1) (word.toList ++ rest) = some (v, rest) := by
  obtain ⟨cs, hcs⟩ := List.head?_eq_some_iff.mp hword
  rw [hcs, List.cons_append] at h ⊢
  rw [scanOnce_scalar hquote hdict hlist, h]

theorem scanOnce_number {int tail rest : List Char} {v : Json} (hint : IntPart int)
    (h : scanNumber floats (int ++ tail) = some (v, rest)) (fuel : Nat) :
    scanOnce floats (fuel + 1) (int ++ tail) = some (v, rest) := by
  obtain ⟨c, cs, rfl, hc⟩ := hint.head
  have hother : ∀ w : Char, w.isDigit = false → w ≠ '-' → c ≠ w := by
    rintro w hw hminus rfl
    rcases hc with hc | hc
    · rw [hw] at hc
      cases hc
    · exact hminus hc
  rw [List.cons_append] at h ⊢
  rw [scanOnce_scalar (hother quote rfl (by decide)) (hother '\x7b' rfl (by decide)) (hother '[' rfl (by decide))]
  exact scanScalar_of_number hc h

theorem scanOnce_list {c : Char} (hc : Begins c) (fuel : Nat) (text : List Char) :
    scanOnce floats (fuel + 1) ('[' :: c :: text) =
      (scanItems floats fuel (c :: text)).map fun found => (.list found.1, found.2) := by
  rw [scanOnce, if_neg (by decide), if_neg (by decide), if_pos rfl, skipSpace_begins hc,
    after_ne rfl hc.2.1.symm]

theorem scanOnce_dict (fuel : Nat) (text : List Char) :
    scanOnce floats (fuel + 1) ('\x7b' :: quote :: text) =
      (scanPairs floats fuel (quote :: text)).map fun found =>
        (.dict (found.1.foldl (fun items pair => Json.setKey pair.1 pair.2 items) []), found.2) := by
  rw [scanOnce, if_neg (by decide), if_pos rfl, skipSpace_of_not rfl, after_ne rfl (by decide)]

theorem after_quote (rest : List Char) : after (String.singleton quote) (quote :: rest) = some rest := by
  have h := after_append (String.singleton quote) rest
  rwa [String.toList_singleton] at h

theorem after_colon (rest : List Char) : after ":" (':' :: rest) = some rest := after_append ":" rest

theorem colon_notSpace : isSpace ':' = false := rfl

theorem pairText (key : String) (x : Json) (text rest : List Char) :
    dumpsString key ++ ':' :: ' ' :: dumps floats x ++ text ++ rest =
      quote :: (key.toList.flatMap escapeChar ++ quote :: ':' :: ' ' :: (dumps floats x ++ (text ++ rest))) := by
  simp [dumpsString]

mutual

theorem scanOnce_dumps : ∀ (v : Json), Dumpable floats v → ∀ (fuel : Nat) (rest : List Char),
    2 * (dumps floats v).length ≤ fuel → Ends rest → scanOnce floats fuel (dumps floats v ++ rest) = some (v, rest)
  | v, hv, 0, rest, hfuel, _ => by
    obtain ⟨c, cs, hdumps, -⟩ := dumps_begins hv
    simp [hdumps] at hfuel
  | .null, _, fuel + 1, rest, _, _ => by
    rw [dumps]
    exact scanOnce_word rfl (by decide) (by decide) (by decide) (scanScalar_null rest) fuel
  | .bool true, _, fuel + 1, rest, _, _ => by
    have hscan := scanScalar_bool floats true rest
    rw [dumps] at hscan ⊢
    exact scanOnce_word rfl (by decide) (by decide) (by decide) hscan fuel
  | .bool false, _, fuel + 1, rest, _, _ => by
    have hscan := scanScalar_bool floats false rest
    rw [dumps] at hscan ⊢
    exact scanOnce_word rfl (by decide) (by decide) (by decide) hscan fuel
  | .int i, hv, fuel + 1, rest, _, hrest => by
    rw [Dumpable] at hv
    rw [dumps]
    exact scanOnce_number (intPart_dumpsInt i) (scanNumber_dumpsInt hv hrest) fuel
  | .float (.finite q), hv, fuel + 1, rest, _, hrest => by
    have hq : floats.finite q := by simpa [Dumpable] using hv
    have hdumps : dumpsFloat floats (.finite q) = floats.repr q := rfl
    have hscan := scanNumber_repr hq hrest
    obtain ⟨int, frac, exp, hrepr, hint, -⟩ := floats.shape q hq
    rw [dumps, hdumps, hrepr, List.append_assoc, List.append_assoc]
    rw [hrepr, List.append_assoc, List.append_assoc] at hscan
    exact scanOnce_number hint hscan fuel
  | .float (.infinite false), _, fuel + 1, rest, _, _ => by
    have hdumps : dumpsFloat floats (.infinite false) = "Infinity".toList := rfl
    rw [dumps, hdumps]
    exact scanOnce_word rfl (by decide) (by decide) (by decide) (scanScalar_infinity rest) fuel
  | .float (.infinite true), _, fuel + 1, rest, _, _ => by
    have hdumps : dumpsFloat floats (.infinite true) = "-Infinity".toList := rfl
    rw [dumps, hdumps]
    exact scanOnce_word rfl (by decide) (by decide) (by decide)
      (scanScalar_minusInfinity rest) fuel
  | .float .nan, _, fuel + 1, rest, _, _ => by
    have hdumps : dumpsFloat floats .nan = "NaN".toList := rfl
    rw [dumps, hdumps]
    exact scanOnce_word rfl (by decide) (by decide) (by decide) (scanScalar_nan rest) fuel
  | .str s, _, fuel + 1, rest, _, _ => by
    rw [dumps, dumpsString, List.cons_append, List.append_assoc, List.singleton_append, scanOnce, if_pos rfl,
      scanString_dumpsString, Option.map_some]
  | .list [], _, fuel + 1, rest, _, _ => by
    rw [dumps, dumpsItems, List.cons_append, List.singleton_append, scanOnce, if_neg (by decide), if_neg (by decide),
      if_pos rfl, skipSpace_of_not rfl]
    rfl
  | .list (x :: xs), hv, fuel + 1, rest, hfuel, _ => by
    have hitems : DumpableItems floats (x :: xs) := by simpa only [Dumpable] using hv
    rw [dumps, List.length_cons] at hfuel
    have hscan := scanItems_dumpsItems x xs hitems fuel rest (by omega)
    rw [DumpableItems] at hitems
    obtain ⟨c, cs, hdumps, hc⟩ := dumps_begins hitems.1
    have hbegins : dumpsItems floats (x :: xs) ++ rest = c :: (cs ++ dumpsRest floats xs ++ rest) := by
      rw [dumpsItems, hdumps, List.cons_append, List.cons_append]
    rw [dumps, List.cons_append, hbegins, scanOnce_list hc, ← hbegins, hscan, Option.map_some]
  | .dict [], _, fuel + 1, rest, _, _ => by
    rw [dumps, dumpsPairs, List.cons_append, List.singleton_append, scanOnce, if_neg (by decide), if_pos rfl,
      skipSpace_of_not rfl]
    rfl
  | .dict ((key, x) :: items), hv, fuel + 1, rest, hfuel, _ => by
    have hpairs : (((key, x) :: items).map Prod.fst).Nodup ∧ DumpablePairs floats ((key, x) :: items) := by
      simpa only [Dumpable] using hv
    rw [dumps, List.length_cons] at hfuel
    have hscan := scanPairs_dumpsPairs key x items hpairs.2 fuel rest (by omega)
    obtain ⟨text, htext⟩ : ∃ text, dumpsPairs floats ((key, x) :: items) ++ rest = quote :: text := by
      rw [dumpsPairs, dumpsString]
      exact ⟨_, rfl⟩
    rw [dumps, List.cons_append, htext, scanOnce_dict, ← htext, hscan, Option.map_some, foldl_setKey (by simpa using hpairs.1),
      List.nil_append]

theorem scanItems_dumpsItems : ∀ (x : Json) (xs : List Json), DumpableItems floats (x :: xs) →
    ∀ (fuel : Nat) (rest : List Char), 2 * (dumpsItems floats (x :: xs)).length ≤ fuel →
      scanItems floats fuel (dumpsItems floats (x :: xs) ++ rest) = some (x :: xs, rest)
  | x, xs, hv, 0, rest, hfuel => by
    rw [DumpableItems] at hv
    obtain ⟨c, cs, hdumps, -⟩ := dumps_begins hv.1
    simp [dumpsItems, hdumps] at hfuel
  | x, [], hv, fuel + 1, rest, hfuel => by
    rw [DumpableItems] at hv
    rw [dumpsItems, dumpsRest, List.length_append, List.length_singleton] at hfuel
    have hfirst := scanOnce_dumps x hv.1 fuel (']' :: rest) (by omega) (by simpa [dumpsRest] using ends_dumpsRest floats [] rest)
    rw [dumpsItems, dumpsRest, List.append_assoc, List.singleton_append, scanItems, hfirst]
    rfl
  | x, y :: ys, hv, fuel + 1, rest, hfuel => by
    rw [DumpableItems] at hv
    have hy : Dumpable floats y := by
      have hrest := hv.2
      rw [DumpableItems] at hrest
      exact hrest.1
    have hlength : (dumpsItems floats (x :: y :: ys)).length =
        (dumps floats x).length + 2 + (dumpsItems floats (y :: ys)).length := by
      simp [dumpsItems, dumpsRest]
      omega
    have hfirst := scanOnce_dumps x hv.1 fuel (dumpsRest floats (y :: ys) ++ rest) (by omega) (ends_dumpsRest floats _ rest)
    have hnext := scanItems_dumpsItems y ys hv.2 fuel rest (by omega)
    have htext : dumpsRest floats (y :: ys) ++ rest = ',' :: ' ' :: (dumpsItems floats (y :: ys) ++ rest) := by
      simp [dumpsRest, dumpsItems]
    have hskip : skipSpace (dumpsItems floats (y :: ys) ++ rest) = dumpsItems floats (y :: ys) ++ rest := by
      rw [dumpsItems, List.append_assoc, skipSpace_dumps hy]
    have hcomma : isSpace ',' = false := rfl
    rw [dumpsItems, List.append_assoc, scanItems, hfirst]
    simp only [Option.bind_eq_bind, Option.bind_some, htext, skipSpace_of_not hcomma, skipSpace_blank, hskip, hnext]
    rfl

theorem scanPairs_dumpsPairs : ∀ (key : String) (x : Json) (items : List (String × Json)),
    DumpablePairs floats ((key, x) :: items) → ∀ (fuel : Nat) (rest : List Char),
      2 * (dumpsPairs floats ((key, x) :: items)).length ≤ fuel →
        scanPairs floats fuel (dumpsPairs floats ((key, x) :: items) ++ rest) = some ((key, x) :: items, rest)
  | key, x, items, hv, 0, rest, hfuel => by
    simp [dumpsPairs, dumpsString] at hfuel
  | key, x, [], hv, fuel + 1, rest, hfuel => by
    rw [DumpablePairs] at hv
    have hlength : (dumpsPairs floats [(key, x)]).length =
        (dumpsString key).length + 2 + (dumps floats x).length + 1 := by
      simp [dumpsPairs, dumpsRestPairs]
      omega
    have hends := ends_dumpsRestPairs floats [] rest
    have hvalue := scanOnce_dumps x hv.1 fuel (dumpsRestPairs floats [] ++ rest) (by omega) hends
    rw [dumpsPairs, scanPairs, pairText, after_quote]
    simp only [Option.bind_eq_bind, Option.bind_some, scanString_dumpsString, skipSpace_of_not colon_notSpace, after_colon,
      skipSpace_blank, skipSpace_dumps hv.1, hvalue]
    rfl
  | key, x, (next, y) :: items, hv, fuel + 1, rest, hfuel => by
    rw [DumpablePairs] at hv
    have hlength : (dumpsPairs floats ((key, x) :: (next, y) :: items)).length =
        (dumpsString key).length + 2 + (dumps floats x).length + 2 +
          (dumpsPairs floats ((next, y) :: items)).length := by
      simp [dumpsPairs, dumpsRestPairs]
      omega
    have hends := ends_dumpsRestPairs floats ((next, y) :: items) rest
    have hvalue := scanOnce_dumps x hv.1 fuel (dumpsRestPairs floats ((next, y) :: items) ++ rest) (by omega) hends
    have hnext := scanPairs_dumpsPairs next y items hv.2 fuel rest (by omega)
    have htext : dumpsRestPairs floats ((next, y) :: items) ++ rest =
        ',' :: ' ' :: (dumpsPairs floats ((next, y) :: items) ++ rest) := by
      simp [dumpsRestPairs, dumpsPairs]
    have hkey : skipSpace (dumpsPairs floats ((next, y) :: items) ++ rest) =
        dumpsPairs floats ((next, y) :: items) ++ rest := by
      rw [dumpsPairs, dumpsString]
      exact skipSpace_of_not rfl _
    have hcomma : isSpace ',' = false := rfl
    rw [htext] at hvalue
    rw [dumpsPairs, scanPairs, pairText, after_quote]
    simp only [Option.bind_eq_bind, Option.bind_some, scanString_dumpsString, skipSpace_of_not colon_notSpace, after_colon,
      skipSpace_blank, skipSpace_dumps hv.1, htext, hvalue, skipSpace_of_not hcomma, hkey, hnext]
    rfl

end

theorem loads_dumps {v : Json} (h : Dumpable floats v) : loads floats (dumps floats v) = some v := by
  obtain ⟨c, cs, hdumps, hc⟩ := dumps_begins h
  have hends : Ends [] := by
    intro c hc
    cases hc
  have hscan := scanOnce_dumps v h (2 * (dumps floats v).length + 2) [] (by omega) hends
  have hmark : (dumps floats v).head? ≠ some (Char.ofNat 0xFEFF) := by
    rw [hdumps]
    exact fun heq => hc.2.2.2 (Option.some.inj heq)
  have hskip := skipSpace_dumps h []
  rw [List.append_nil] at hscan hskip
  rw [loads, if_neg hmark, hskip, hscan]
  rfl

end ValueProofs

end JsonText

end Python
