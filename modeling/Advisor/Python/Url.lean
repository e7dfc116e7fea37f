import Mathlib.Data.List.TakeWhile

/-! The query string of a URL, and the dictionary a request reads from it. -/

namespace Python

/-- Percent decoding; text without its two escape characters stays as it is. -/
structure Quoting where
  unquote : String → String
  unquote_plain : ∀ s : String, '%' ∉ s.toList → '+' ∉ s.toList → unquote s = s

/-- What stands after the first `?`, up to the fragment. -/
def queryPart (url : List Char) : List Char := ((url.takeWhile (· ≠ '#')).dropWhile (· ≠ '?')).drop 1

def nameValue (part : List Char) : List Char × List Char :=
  (part.takeWhile (· ≠ '='), (part.dropWhile (· ≠ '=')).drop 1)

variable (quoting : Quoting)

/-- `QueryDict`: the pairs of a query string, blank values included. -/
def queryDict (query : List Char) : List (String × String) :=
  ((query.splitOn '&').filter fun part => !part.isEmpty).map fun part =>
    (quoting.unquote (String.ofList (nameValue part).1), quoting.unquote (String.ofList (nameValue part).2))

def queryParams (url : String) : List (String × String) := queryDict quoting (queryPart url.toList)

def param (params : List (String × String)) (name : String) : Option String := params.reverse.lookup name

def Literal (s : List Char) : Prop := ∀ c ∈ s, c ≠ '#' ∧ c ≠ '&' ∧ c ≠ '%' ∧ c ≠ '+'

theorem literal_of_all {s : List Char} (h : s.all (fun c => c ≠ '#' ∧ c ≠ '&' ∧ c ≠ '%' ∧ c ≠ '+') = true) :
    Literal s :=
  fun c hc => of_decide_eq_true (List.all_eq_true.mp h c hc)

theorem Literal.append {s t : List Char} (hs : Literal s) (ht : Literal t) : Literal (s ++ t) := by
  intro c hc
  rcases List.mem_append.mp hc with h | h
  · exact hs c h
  · exact ht c h

theorem unquote_literal {s : List Char} (h : Literal s) :
    quoting.unquote (String.ofList s) = String.ofList s := by
  apply quoting.unquote_plain
  · intro hc
    exact (h _ (by simpa using hc)).2.2.1 rfl
  · intro hc
    exact (h _ (by simpa using hc)).2.2.2 rfl

theorem queryPart_append {base query : List Char} (hbase : ∀ c ∈ base, c ≠ '?' ∧ c ≠ '#')
    (hquery : Literal query) : queryPart (base ++ '?' :: query) = query := by
  have hfragment : (base ++ '?' :: query).takeWhile (· ≠ '#') = base ++ '?' :: query := by
    rw [List.takeWhile_eq_self_iff]
    intro c hc
    rcases List.mem_append.mp hc with h | h
    · simpa using (hbase c h).2
    · rcases List.mem_cons.mp h with rfl | h
      · decide
      · simpa using (hquery c h).1
  rw [queryPart, hfragment, List.dropWhile_append_of_pos fun c hc => by simpa using (hbase c hc).1]
  simp

theorem queryPart_base {base : List Char} (hbase : ∀ c ∈ base, c ≠ '?' ∧ c ≠ '#') : queryPart base = [] := by
  have hfragment : base.takeWhile (· ≠ '#') = base := by
    rw [List.takeWhile_eq_self_iff]
    intro c hc
    simpa using (hbase c hc).2
  have hnone : base.dropWhile (· ≠ '?') = [] := by
    rw [List.dropWhile_eq_nil_iff]
    intro c hc
    simpa using (hbase c hc).1
  rw [queryPart, hfragment, hnone, List.drop_nil]

theorem nameValue_append {name value : List Char} (hname : '=' ∉ name) :
    nameValue (name ++ '=' :: value) = (name, value) := by
  have hne : ∀ c ∈ name, (decide (c ≠ '=')) = true := by
    intro c hc
    simpa using fun h : c = '=' => hname (h ▸ hc)
  rw [nameValue, List.takeWhile_append_of_pos hne, List.dropWhile_append_of_pos hne]
  simp

/-- A query of one name and a literal value has one pair; further `?` and `=` belong to the value. -/
theorem queryDict_single {name value : List Char} (hname : Literal name) (hvalue : Literal value)
    (heq : '=' ∉ name) :
    queryDict quoting (name ++ '=' :: value) = [(String.ofList name, String.ofList value)] := by
  have hall : Literal (name ++ '=' :: value) := by
    refine hname.append ?_
    intro c hc
    rcases List.mem_cons.mp hc with rfl | h
    · decide
    · exact hvalue c h
  have hsplit : (name ++ '=' :: value).splitOn '&' = [name ++ '=' :: value] :=
    List.splitOn_eq_singleton fun h => (hall _ h).2.1 rfl
  rw [queryDict, hsplit]
  simp [nameValue_append heq, unquote_literal quoting hname, unquote_literal quoting hvalue]

end Python
