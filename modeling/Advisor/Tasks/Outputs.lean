import Advisor.Python.JsonText
import Advisor.Python.Search
import Advisor.Tasks.Aggregate

/-! The texts that are outputs of jobs: which of them settle their job, and when the results that are
embedded in one are found again. -/

namespace Advisor.Tasks

open Python Procedure Django Relational

variable {lib : TaskLibrary} {type : TaskType} {job : Job} {s : State}

theorem indexOf_eq (part l : List Char) : indexOf part l = searchFirst part.isPrefixOf l := by
  induction l with
  | nil => cases part <;> rfl
  | cons c cs ih => rw [indexOf, searchFirst, ih]

theorem recapStart_eq (l : List Char) : recapStart l = searchFirst recapAt l := by
  induction l with
  | nil => rfl
  | cons c cs ih => rw [recapStart, searchFirst, ih]

def TaskType.endsAt : TaskType → List Char → Bool
  | ansible => recapAt
  | script => scriptSuffix.toList.isPrefixOf

/-- What is read as JSON: the end of a playbook's results is looked for from the start of the output. -/
def slice (type : TaskType) (stdout : List Char) : Option String :=
  (indexOf type.jsonPrefix.toList stdout).bind fun found =>
    let start := found + type.jsonPrefix.length
    let between := fun finish => String.ofList ((stdout.drop start).take (finish - start))
    match type with
    | .ansible => (recapStart stdout).map between
    | .script => (indexOf scriptSuffix.toList (stdout.drop start)).map fun length => between (start + length)

theorem parsedText_of_slice {stdout : List Char} {text : String} (h : slice type stdout = some text) :
    parsedText lib type stdout = parsedJson lib text := by
  obtain ⟨found, hfound, h⟩ := Option.bind_eq_some_iff.mp h
  simp only [parsedText, hfound]
  cases type with
  | ansible =>
    obtain ⟨finish, hfinish, rfl⟩ := Option.map_eq_some_iff.mp h
    simp only [hfinish]
  | script =>
    obtain ⟨length, hlength, rfl⟩ := Option.map_eq_some_iff.mp h
    simp only [hlength]

/-- A line that explains a failure, and that its columns take. -/
structure Explains (line : String) : Prop where
  length : line.length ≤ 255
  storable : jsonStorable (errorResults line) = true

variable (lib) in
theorem parsedText_of_none {stdout : List Char} (h : slice type stdout = none) :
    ∃ line, parsedText lib type stdout = .failed line ∧ line ≠ "" ∧ Explains line := by
  unfold parsedText
  unfold slice at h
  cases hfound : indexOf type.jsonPrefix.toList stdout with
  | none => exact ⟨_, rfl, by cases type <;> decide, by cases type <;> decide, by cases type <;> decide⟩
  | some found =>
    rw [hfound, Option.bind_some] at h
    cases type with
    | ansible =>
      rw [Option.map_eq_none_iff] at h
      simp only [h]
      exact ⟨_, rfl, by decide, by decide, by decide⟩
    | script =>
      rw [Option.map_eq_none_iff] at h
      simp only [h]
      exact ⟨_, rfl, by decide, by decide, by decide⟩

/-- The output is gone through without an exception, and the job has the status and the results. -/
def Stores (lib : TaskLibrary) (type : TaskType) (stdout : String) (job : Job) (s : State) (status : JobStatus)
    (results : Json) : Prop :=
  ∃ job' s', parseJsonFromStdout lib job (.str stdout) type s = (.ok job', s') ∧ job' ∈ s'.jobs ∧ job'.id = job.id ∧
    job'.status = status ∧ job'.results = results

theorem run_save_eq_ok {s' : State} : job.save s = (.ok (), s') ↔ ∃ h : job.storable, s' = s.withJob job h := by
  by_cases h : job.storable = true
  · rw [save_of_storable h, Prod.mk.injEq]
    simp [h, eq_comm]
  · obtain ⟨e, he⟩ := save_of_not_storable (s := s) h
    simp [he, h]

theorem record_ok_iff {parsed : Parsed} {status : JobStatus} {results : Json} (hstdout : '\x00' ∉ job.stdout.toList) :
    (∃ job' s', record job parsed s = (.ok job', s') ∧ job' ∈ s'.jobs ∧ job'.id = job.id ∧ job'.status = status ∧
        job'.results = results) ↔
      parsed.line.length ≤ 255 ∧ parsed.outcome = .ok (status, results) ∧ jsonStorable results = true := by
  unfold record
  by_cases hline : parsed.line.length ≤ 255
  · obtain ⟨s₁, hs₁, -⟩ := newLog_of_le job parsed.isOk s hline
    rw [bind_of_ok hs₁]
    cases houtcome : parsed.outcome with
    | error e => simp [hline]
    | ok found =>
      obtain ⟨status', results'⟩ := found
      simp only [lift_ok_bind, hline, true_and, Except.ok.injEq, Prod.mk.injEq]
      constructor
      · rintro ⟨job', s', hrun, -, -, hstatus, hresults⟩
        obtain ⟨_, s₂, hsave, hjob'⟩ := run_bind_eq_ok.mp hrun
        obtain ⟨hstorable, -⟩ := run_save_eq_ok.mp hsave
        obtain ⟨rfl, -⟩ : _ = job' ∧ _ := by simpa using hjob'
        exact ⟨⟨hstatus, hresults⟩, hresults ▸ (Job.storable_iff.mp hstorable).2⟩
      · rintro ⟨⟨rfl, rfl⟩, hresults⟩
        have hstorable : ({ job with status := status', results := results' } : Job).storable :=
          Job.storable_iff.mpr ⟨hstdout, hresults⟩
        refine ⟨_, _, bind_of_ok (save_of_storable hstorable), ?_, rfl, rfl, rfl⟩
        exact mem_overwrite.mpr (Or.inl rfl)
  · have hfails : job.newLog parsed.isOk parsed.line s = (.error .dataError, s) := newLog_of_lt hline
    refine iff_of_false ?_ fun h => hline h.1
    rintro ⟨job', s', hrun, -⟩
    rw [bind_of_error hfails] at hrun
    cases congrArg Prod.fst hrun

theorem stores_iff (hjob : job ∈ s.jobs) {stdout : String} {status : JobStatus} {results : Json} :
    Stores lib type stdout job s status results ↔
      '\x00' ∉ stdout.toList ∧ (parsedText lib type stdout.toList).line.length ≤ 255 ∧
        (parsedText lib type stdout.toList).outcome = .ok (status, results) ∧ jsonStorable results = true := by
  unfold Stores parseJsonFromStdout
  by_cases hnul : '\x00' ∈ stdout.toList
  · refine iff_of_false ?_ fun h => h.1 hnul
    rintro ⟨job', s', hrun, -⟩
    obtain ⟨_, s₁, hsave, -⟩ := run_bind_eq_ok.mp hrun
    obtain ⟨hstorable, -⟩ := run_save_eq_ok.mp hsave
    exact (Job.storable_iff.mp hstorable).1 hnul
  · have hstorable : ({ job with stdout } : Job).storable :=
      Job.storable_iff.mpr ⟨hnul, (Job.storable_iff.mp (s.storable job hjob)).2⟩
    obtain ⟨s₂, hs₂, -⟩ := newLog_of_le { job with stdout } true (s.withJob _ hstorable) (sourceLine_length type)
    have hrun : ∀ job' s', (do
        let job : Job := { job with stdout }
        job.save
        job.newLog true ("got stdout from " ++ type.source ++ " for this job")
        let parsed ← lift (parsedStdout lib type (.str stdout))
        record job parsed : Run Job) s = (.ok job', s') ↔
        record { job with stdout } (parsedText lib type stdout.toList) s₂ = (.ok job', s') := by
      intro job' s'
      rw [bind_of_ok (save_of_storable hstorable), bind_of_ok hs₂, parsedStdout, lift_ok_bind]
    simp only [stdoutText, hrun, hnul, not_false_eq_true, true_and]
    exact record_ok_iff hnul

/-- What is said of any text `json.loads` takes: it begins as a value does, and an object ends with its brace,
up to white space. -/
structure ReadsJson (lib : TaskLibrary) : Prop where
  starts : ∀ text v, lib.loads text = .ok v → ∃ c rest, JsonText.skipSpace text.toList = c :: rest ∧
    c ∈ ['\x7b', '[', '"', '-', '0', '1', '2', '3', '4', '5', '6', '7', '8', '9', 't', 'f', 'n', 'N', 'I']
  closes : ∀ text items, lib.loads text = .ok (.dict items) → (JsonText.skipSpace text.toList.reverse).head? = some '\x7d'

theorem ReadsJson.empty (h : ReadsJson lib) (v : Json) : lib.loads "" ≠ .ok v := by
  intro hv
  obtain ⟨c, rest, hskip, -⟩ := h.starts "" v hv
  cases hskip

def withAlert (items : List (String × Json)) : List (String × Json) :=
  if (items.lookup "alert").isSome then items else items ++ [("alert", (items.lookup "error").getD (.bool false))]

theorem successLine_length : "Parsed JSON output successfully".length ≤ 255 := by decide

theorem parsedJson_dict {text : String} {items : List (String × Json)} (h : lib.loads text = .ok (.dict items)) :
    parsedJson lib text = ⟨true, "Parsed JSON output successfully", .ok (.success, .dict (withAlert items))⟩ := by
  simp only [parsedJson, h, Json.hasKey, withAlert]
  cases (items.lookup "alert").isSome <;> rfl

theorem parsedJson_error {text message : String} (h : lib.loads text = .error message) :
    parsedJson lib text = .failed ("Error in parsing JSON between delimiters (" ++ message) := by
  simp only [parsedJson, h]

theorem parsedJson_other {text : String} {v : Json} (h : lib.loads text = .ok v) (hv : ∀ items, v ≠ .dict items)
    {status : JobStatus} {results : Json} (hout : (parsedJson lib text).outcome = .ok (status, results)) :
    status = .success ∧ results = v := by
  simp only [parsedJson, h] at hout
  split at hout
  · cases hout
    exact ⟨rfl, rfl⟩
  · cases v with
    | dict items => exact absurd rfl (hv items)
    | _ => cases hout
  · cases hout

def Between (type : TaskType) (stdout text : List Char) : Prop :=
  ∃ before after, stdout = before ++ (type.jsonPrefix.toList ++ (text ++ after)) ∧ type.endsAt after = true

theorem drop_of_prefix {part l : List Char} {n : Nat} (h : part <+: l.drop n) :
    l = l.take n ++ (part ++ l.drop (n + part.length)) := by
  obtain ⟨rest, hrest⟩ := h
  have hdrop : l.drop (n + part.length) = rest := by rw [← List.drop_drop, ← hrest, List.drop_left]
  rw [hdrop, hrest, List.take_append_drop]

theorem between_of_slice {stdout : List Char} {text : String} (h : slice type stdout = some text) (hne : text ≠ "") :
    Between type stdout text.toList := by
  obtain ⟨found, hfound, h⟩ := Option.bind_eq_some_iff.mp h
  rw [indexOf_eq] at hfound
  obtain ⟨-, hbegins, -⟩ := searchFirst_eq_some.mp hfound
  have hsplit := drop_of_prefix (List.isPrefixOf_iff_prefix.mp hbegins)
  rw [String.length_toList] at hsplit
  generalize hstart : found + type.jsonPrefix.length = start at h hsplit
  cases type with
  | ansible =>
    obtain ⟨finish, hfinish, rfl⟩ := Option.map_eq_some_iff.mp h
    rw [recapStart_eq] at hfinish
    obtain ⟨-, hrecap, -⟩ := searchFirst_eq_some.mp hfinish
    have hle : start ≤ finish := by
      by_contra hlt
      have hzero : finish - start = 0 := by omega
      exact hne (by simp [hzero])
    refine ⟨stdout.take found, stdout.drop finish, ?_, hrecap⟩
    have hrest : stdout.drop finish = (stdout.drop start).drop (finish - start) := by
      rw [List.drop_drop]
      congr 1
      omega
    rw [String.toList_ofList, hrest, List.take_append_drop]
    exact hsplit
  | script =>
    obtain ⟨length, hlength, rfl⟩ := Option.map_eq_some_iff.mp h
    rw [indexOf_eq] at hlength
    obtain ⟨-, hend, -⟩ := searchFirst_eq_some.mp hlength
    refine ⟨stdout.take found, (stdout.drop start).drop length, ?_, hend⟩
    have htake : start + length - start = length := by omega
    rw [String.toList_ofList, htake, List.take_append_drop]
    exact hsplit

/-- The job succeeds with an object from between the delimiters, or fails and says why. -/
def SettlesJob (lib : TaskLibrary) (type : TaskType) (stdout : String) (job : Job) (s : State) : Prop :=
  (∃ text items, Between type stdout.toList text.toList ∧ lib.loads text = .ok (.dict items) ∧
      Stores lib type stdout job s .success (.dict (withAlert items))) ∨
    ∃ line, line ≠ "" ∧ Stores lib type stdout job s .failure (errorResults line)

/-- What is between the delimiters, if both are there, is an object or no JSON at all. -/
structure Readable (lib : TaskLibrary) (type : TaskType) (stdout : String) : Prop where
  noNul : '\x00' ∉ stdout.toList
  read : ∀ text v, slice type stdout.toList = some text → lib.loads text = .ok v →
    ∃ items, v = .dict items ∧ jsonStorable (.dict (withAlert items)) = true
  refused : ∀ text message, slice type stdout.toList = some text → lib.loads text = .error message →
    Explains ("Error in parsing JSON between delimiters (" ++ message)

theorem settlesJob_iff (hlib : ReadsJson lib) (hjob : job ∈ s.jobs) (stdout : String) :
    SettlesJob lib type stdout job s ↔ Readable lib type stdout := by
  unfold SettlesJob
  simp only [stores_iff hjob]
  cases hslice : slice type stdout.toList with
  | none =>
    obtain ⟨line, hline, hne, hexplains⟩ := parsedText_of_none lib hslice
    rw [hline]
    constructor
    · intro h
      have hnul : '\x00' ∉ stdout.toList := by
        rcases h with ⟨_, _, -, -, h⟩ | ⟨_, -, h⟩
        · exact h.1
        · exact h.1
      exact ⟨hnul, by simp [hslice], by simp [hslice]⟩
    · intro h
      exact Or.inr ⟨line, hne, h.noNul, hexplains.length, rfl, hexplains.storable⟩
  | some text =>
    rw [parsedText_of_slice hslice]
    cases hloads : lib.loads text with
    | error message =>
      rw [parsedJson_error hloads]
      constructor
      · rintro (⟨_, _, -, -, -, -, hout, -⟩ | ⟨line, -, hnul, hlength, hout, hstorable⟩)
        · cases hout
        · have hline : errorResults _ = errorResults line := (Prod.mk.inj (Except.ok.inj hout)).2
          rw [← hline] at hstorable
          refine ⟨hnul, ?_, ?_⟩
          · rintro text' v htext hv
            obtain rfl : text = text' := by simpa [hslice] using htext
            simp [hloads] at hv
          · rintro text' message' htext hmessage
            obtain rfl : text = text' := by simpa [hslice] using htext
            obtain rfl : message = message' := by simpa [hloads] using hmessage
            exact ⟨hlength, hstorable⟩
      · intro h
        have hexplains := h.refused text message hslice hloads
        refine Or.inr ⟨_, ?_, h.noNul, hexplains.length, rfl, hexplains.storable⟩
        intro hempty
        have hlength := congrArg String.length hempty
        rw [String.length_append] at hlength
        exact absurd hlength (by simp)
    | ok v =>
      have hne : text ≠ "" := fun hempty => hlib.empty v (hempty ▸ hloads)
      by_cases hv : ∃ items, v = .dict items
      · obtain ⟨items, rfl⟩ := hv
        rw [parsedJson_dict hloads]
        constructor
        · rintro (⟨text', items', -, -, hnul, -, hout, hstorable⟩ | ⟨_, -, -, -, hout, -⟩)
          · have hitems : Json.dict (withAlert items) = .dict (withAlert items') := (Prod.mk.inj (Except.ok.inj hout)).2
            rw [← hitems] at hstorable
            refine ⟨hnul, ?_, ?_⟩
            · rintro other v htext hv
              obtain rfl : text = other := by simpa [hslice] using htext
              obtain rfl : Json.dict items = v := by simpa [hloads] using hv
              exact ⟨items, rfl, hstorable⟩
            · rintro other message htext hmessage
              obtain rfl : text = other := by simpa [hslice] using htext
              simp [hloads] at hmessage
          · cases hout
        · intro h
          obtain ⟨items', hitems, hstorable⟩ := h.read text _ hslice hloads
          obtain rfl := Json.dict.inj hitems
          exact Or.inl ⟨text, items, between_of_slice hslice hne, hloads, h.noNul, successLine_length, rfl, hstorable⟩
      · have hother : ∀ items, v ≠ .dict items := fun items he => hv ⟨items, he⟩
        constructor
        · rintro (⟨_, items, -, -, -, -, hout, -⟩ | ⟨_, -, -, -, hout, -⟩)
          · exact absurd (parsedJson_other hloads hother hout).2.symm (hother _)
          · cases (parsedJson_other hloads hother hout).1
        · intro h
          obtain ⟨items, he, -⟩ := h.read text v hslice hloads
          exact absurd he (hother items)

def bracketLibrary : TaskLibrary := { sampleLibrary with
  loads := fun text =>
    if text = "[]" then .ok (.list [])
    else if text = "\x7b\x7d" then .ok (.dict [])
    else .error "Expecting value: line 1 column 1 (char 0)" }

theorem bracketLibrary_readsJson : ReadsJson bracketLibrary := by
  constructor
  · intro text v h
    simp only [bracketLibrary] at h
    split_ifs at h with hlist hdict
    · exact ⟨'[', [']'], by rw [hlist]; rfl, by decide⟩
    · exact ⟨'\x7b', ['\x7d'], by rw [hdict]; rfl, by decide⟩
  · intro text items h
    by_cases hdict : text = "\x7b\x7d"
    · rw [hdict]
      rfl
    · simp only [bracketLibrary, hdict, if_false] at h
      split_ifs at h
      cases h

theorem settlesJob_object :
    SettlesJob bracketLibrary .script "### JSON START ###\x7b\x7d### JSON END ###" (sampleJob 1 .running) sampleState ↔
      Readable bracketLibrary .script "### JSON START ###\x7b\x7d### JSON END ###" :=
  settlesJob_iff bracketLibrary_readsJson (Table.mem_single.mpr rfl) _

/-- A list between the delimiters leaves the job without results. -/
theorem list_not_settled :
    ¬SettlesJob bracketLibrary .script "### JSON START ###[]### JSON END ###" (sampleJob 1 .running) sampleState := by
  have hjob : sampleJob 1 .running ∈ sampleState.jobs := Table.mem_single.mpr rfl
  have hout : (parsedText bracketLibrary .script "### JSON START ###[]### JSON END ###".toList).outcome =
      .error .typeError := by decide +kernel
  unfold SettlesJob
  simp only [stores_iff hjob, hout]
  rintro (⟨_, _, -, -, -, -, hok, -⟩ | ⟨_, -, -, -, hok, -⟩)
  · cases hok
  · cases hok

end Advisor.Tasks
