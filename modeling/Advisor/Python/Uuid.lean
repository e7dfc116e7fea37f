import Mathlib.Algebra.GroupWithZero.Nat
import Mathlib.Data.List.Basic

/-! `uuid.UUID`: the spellings the constructor accepts and the one `str` gives back. -/

namespace Python

abbrev Uuid := Fin (2 ^ 128)

instance neZero_size : NeZero (2 ^ 128) := ⟨by decide⟩

namespace Uuid

def hexDigits : List Char :=
  ['0', '1', '2', '3', '4', '5', '6', '7', '8', '9', 'a', 'b', 'c', 'd', 'e', 'f']

def hexDigit (d : Nat) : Char := hexDigits.getD d '0'

def hexValue? (c : Char) : Option Nat :=
  if '0' ≤ c ∧ c ≤ '9' then some (c.toNat - '0'.toNat)
  else if 'a' ≤ c ∧ c ≤ 'f' then some (c.toNat - 'a'.toNat + 10)
  else if 'A' ≤ c ∧ c ≤ 'F' then some (c.toNat - 'A'.toNat + 10)
  else none

def nibbles : Nat → Nat → List Nat
  | 0, _ => []
  | k + 1, n => nibbles k (n / 16) ++ [n % 16]

def ofNibbles (ds : List Nat) : Nat := ds.foldl (fun n d => 16 * n + d) 0

/-- `text.replace(pattern, '')`; `skip` counts the characters of a match still to be dropped. -/
def dropAll (pattern : List Char) : Nat → List Char → List Char
  | _, [] => []
  | skip + 1, _ :: cs => dropAll pattern skip cs
  | 0, c :: cs =>
    if pattern.isPrefixOf (c :: cs) then dropAll pattern (pattern.length - 1) cs
    else c :: dropAll pattern 0 cs

def stripBraces (cs : List Char) : List Char :=
  let brace := fun c => c = '{' || c = '}'
  ((cs.dropWhile brace).reverse.dropWhile brace).reverse

/-- `uuid.UUID(text)`: a URN prefix, braces and hyphens are optional, 32 digits are not. -/
def ofText (text : String) : Option Uuid :=
  let cs := dropAll "urn:".toList 0 text.toList
  let hex := (stripBraces (dropAll "uuid:".toList 0 cs)).filter (· ≠ '-')
  if hex.length = 32 then (hex.mapM hexValue?).map fun ds => Fin.ofNat _ (ofNibbles ds)
  else none

def hyphenate (cs : List Char) : List Char :=
  cs.take 8 ++ '-' :: (cs.drop 8).take 4 ++ '-' :: (cs.drop 12).take 4 ++
    '-' :: (cs.drop 16).take 4 ++ '-' :: cs.drop 20

def toText (u : Uuid) : String := String.ofList (hyphenate ((nibbles 32 u).map hexDigit))

theorem nibbles_length (k n : Nat) : (nibbles k n).length = k := by
  induction k generalizing n with
  | zero => rfl
  | succ k ih => simp [nibbles, ih]

theorem length_hyphenate {cs : List Char} (h : cs.length = 32) : (hyphenate cs).length = 36 := by
  simp only [hyphenate, List.length_append, List.length_cons, List.length_take, List.length_drop]
  omega

theorem toText_length (u : Uuid) : (toText u).length = 36 := by
  rw [toText, String.length_ofList, length_hyphenate (by rw [List.length_map, nibbles_length])]

theorem nibbles_lt (k n : Nat) : ∀ d ∈ nibbles k n, d < 16 := by
  induction k generalizing n with
  | zero => simp [nibbles]
  | succ k ih =>
    intro d hd
    rcases List.mem_append.mp hd with h | h
    · exact ih _ d h
    · rw [List.mem_singleton.mp h]
      exact Nat.mod_lt _ (by omega)

theorem ofNibbles_nibbles (k n : Nat) : ofNibbles (nibbles k n) = n % 16 ^ k := by
  induction k generalizing n with
  | zero => simp [nibbles, ofNibbles, Nat.mod_one]
  | succ k ih =>
    have hs : ofNibbles (nibbles (k + 1) n) = 16 * ofNibbles (nibbles k (n / 16)) + n % 16 := by
      simp [nibbles, ofNibbles]
    rw [hs, ih, Nat.pow_succ, Nat.mul_comm (16 ^ k) 16, Nat.mod_mul]
    omega

theorem hexValue?_hexDigit {d : Nat} (h : d < 16) : hexValue? (hexDigit d) = some d := by
  have hall : ∀ d < 16, hexValue? (hexDigit d) = some d := by decide
  exact hall d h

theorem hexDigit_plain {d : Nat} (h : d < 16) :
    hexDigit d ≠ '-' ∧ hexDigit d ≠ ':' ∧ hexDigit d ≠ '{' ∧ hexDigit d ≠ '}' := by
  have hall : ∀ d < 16,
      hexDigit d ≠ '-' ∧ hexDigit d ≠ ':' ∧ hexDigit d ≠ '{' ∧ hexDigit d ≠ '}' := by decide
  exact hall d h

theorem dropAll_of_not_mem {pattern : List Char} {c : Char} (hc : c ∈ pattern) {cs : List Char}
    (h : c ∉ cs) : dropAll pattern 0 cs = cs := by
  induction cs with
  | nil => rfl
  | cons x xs ih =>
    have hno : pattern.isPrefixOf (x :: xs) = false := by
      apply Bool.eq_false_iff.mpr
      intro hp
      exact h ((List.isPrefixOf_iff_prefix.mp hp).subset hc)
    simp [dropAll, hno, ih (fun hx => h (List.mem_cons_of_mem _ hx))]

theorem dropWhile_of_none {p : Char → Bool} {cs : List Char} (h : ∀ c ∈ cs, p c = false) :
    cs.dropWhile p = cs := by
  cases cs with
  | nil => rfl
  | cons c cs => simp [h c (by simp)]

theorem stripBraces_of_none {cs : List Char} (h : ∀ c ∈ cs, c ≠ '{' ∧ c ≠ '}') :
    stripBraces cs = cs := by
  have hp : ∀ c ∈ cs, (decide (c = '{') || decide (c = '}')) = false := by
    intro c hc
    simp [h c hc]
  have hr : ∀ c ∈ cs.reverse, (decide (c = '{') || decide (c = '}')) = false :=
    fun c hc => hp c (List.mem_reverse.mp hc)
  simp only [stripBraces]
  rw [dropWhile_of_none hp, dropWhile_of_none hr, List.reverse_reverse]

theorem filter_hyphenate {cs : List Char} (h : ∀ c ∈ cs, c ≠ '-') :
    (hyphenate cs).filter (· ≠ '-') = cs := by
  have hself {l : List Char} (hl : ∀ c ∈ l, c ∈ cs) : l.filter (· ≠ '-') = l := by
    apply List.filter_eq_self.mpr
    intro c hc
    simp [h c (hl c hc)]
  have ht (k m : Nat) : ((cs.drop k).take m).filter (· ≠ '-') = (cs.drop k).take m :=
    hself fun c hc => List.mem_of_mem_drop (List.mem_of_mem_take hc)
  have hd : (cs.drop 20).filter (· ≠ '-') = cs.drop 20 := hself fun c hc => List.mem_of_mem_drop hc
  have h0 : (cs.take 8).filter (· ≠ '-') = cs.take 8 := hself fun c hc => List.mem_of_mem_take hc
  have hjoin (k m : Nat) : (cs.drop k).take m ++ cs.drop (k + m) = cs.drop k := by
    rw [← List.drop_drop, List.take_append_drop]
  simp only [hyphenate, List.filter_append, List.filter_cons, ht, hd, h0]
  simp only [ne_eq, not_true_eq_false, decide_false, Bool.false_eq_true, if_false, List.append_assoc]
  rw [show cs.drop 20 = cs.drop (16 + 4) from rfl, hjoin 16 4, show cs.drop 16 = cs.drop (12 + 4) from rfl,
    hjoin 12 4, show cs.drop 12 = cs.drop (8 + 4) from rfl, hjoin 8 4, List.take_append_drop]

theorem mem_hyphenate {cs : List Char} {c : Char} (h : c ∈ hyphenate cs) : c ∈ cs ∨ c = '-' := by
  simp only [hyphenate, List.mem_append, List.mem_cons] at h
  rcases h with (((h | h | h) | h | h) | h | h) | h | h
  all_goals first
    | exact Or.inr h
    | exact Or.inl (List.mem_of_mem_take h)
    | exact Or.inl (List.mem_of_mem_drop (List.mem_of_mem_take h))
    | exact Or.inl (List.mem_of_mem_drop h)

/-- The text form of a UUID is one of the spellings of that UUID. -/
theorem ofText_toText (u : Uuid) : ofText (toText u) = some u := by
  let cs := (nibbles 32 u).map hexDigit
  have hplain : ∀ c ∈ cs, c ≠ '-' ∧ c ≠ ':' ∧ c ≠ '{' ∧ c ≠ '}' := by
    intro c hc
    obtain ⟨d, hd, rfl⟩ := List.mem_map.mp hc
    exact hexDigit_plain (nibbles_lt 32 u d hd)
  have hcolon : ':' ∉ hyphenate cs := by
    intro hm
    rcases mem_hyphenate hm with h | h
    · exact (hplain _ h).2.1 rfl
    · simp at h
  have hbrace : ∀ c ∈ hyphenate cs, c ≠ '{' ∧ c ≠ '}' := by
    intro c hc
    rcases mem_hyphenate hc with h | rfl
    · exact (hplain c h).2.2
    · decide
  have htext : (toText u).toList = hyphenate cs := String.toList_ofList
  have hurn : dropAll "urn:".toList 0 (hyphenate cs) = hyphenate cs :=
    dropAll_of_not_mem (by decide : ':' ∈ "urn:".toList) hcolon
  have huuid : dropAll "uuid:".toList 0 (hyphenate cs) = hyphenate cs :=
    dropAll_of_not_mem (by decide : ':' ∈ "uuid:".toList) hcolon
  have hclean : (stripBraces (dropAll "uuid:".toList 0 (dropAll "urn:".toList 0
      (toText u).toList))).filter (· ≠ '-') = cs := by
    rw [htext, hurn, huuid, stripBraces_of_none hbrace,
      filter_hyphenate fun c hc => (hplain c hc).1]
  have hlen : cs.length = 32 := by simp [cs, nibbles_length]
  have hvalues : cs.mapM hexValue? = some (nibbles 32 u) := by
    have hall : ∀ ds : List Nat, (∀ d ∈ ds, d < 16) → (ds.map hexDigit).mapM hexValue? = some ds := by
      intro ds
      induction ds with
      | nil => intro; rfl
      | cons d ds ih =>
        intro hds
        simp [hexValue?_hexDigit (hds d (by simp)), ih fun x hx => hds x (by simp [hx])]
    exact hall _ (nibbles_lt 32 u)
  simp only [ofText, hclean, hlen, if_true, hvalues, Option.map_some, Option.some.injEq]
  apply Fin.ext
  simp only [Fin.ofNat, ofNibbles_nibbles]
  have hu := u.isLt
  omega

theorem mem_toText {u : Uuid} {c : Char} (h : c ∈ (toText u).toList) : c ∈ hexDigits ∨ c = '-' := by
  rw [toText, String.toList_ofList] at h
  rcases mem_hyphenate h with hm | rfl
  · obtain ⟨d, hd, rfl⟩ := List.mem_map.mp hm
    have hall : ∀ d < 16, hexDigit d ∈ hexDigits := by decide
    exact Or.inl (hall d (nibbles_lt 32 u d hd))
  · exact Or.inr rfl

def canonical (text : String) : Bool :=
  match ofText text with
  | some u => toText u = text
  | none => false

theorem canonical_iff {text : String} : canonical text = true ↔ ∃ u, toText u = text := by
  constructor
  · intro h
    cases hu : ofText text with
    | none => simp [canonical, hu] at h
    | some u => exact ⟨u, by simpa [canonical, hu] using h⟩
  · rintro ⟨u, rfl⟩
    simp [canonical, ofText_toText]

theorem toText_injective : Function.Injective toText := by
  intro u v h
  have hh := congrArg ofText h
  simpa only [ofText_toText, Option.some.injEq] using hh

end Uuid

end Python
