import Advisor.Tasks.Model

/-! Reading the results of a job from its output: the text between the delimiters of the task
type is JSON, or the job has failed. -/

namespace Advisor.Tasks

open Python Procedure Django

namespace TaskType

def jsonPrefix : TaskType → String
  | ansible => "\"task_results\": "
  | script => "### JSON START ###"

def source : TaskType → String
  | ansible => "Playbook Dispatcher"
  | script => "Cloud Connector"

end TaskType

def scriptSuffix : String := "### JSON END ###"

def indexOf (part : List Char) : List Char → Option Nat
  | [] => if part.isEmpty then some 0 else none
  | c :: cs => if part.isPrefixOf (c :: cs) then some 0 else (indexOf part cs).map (· + 1)

def isSpace (c : Char) : Bool :=
  let n := c.toNat
  (9 ≤ n && n ≤ 13) || (28 ≤ n && n ≤ 32) || n = 0x85 || n = 0xa0 || n = 0x1680 ||
    (0x2000 ≤ n && n ≤ 0x200a) || n = 0x2028 || n = 0x2029 || n = 0x202f || n = 0x205f || n = 0x3000

/-- The pattern `\x7d\s+PLAY RECAP \*` at the start of a text. -/
def recapAt : List Char → Bool
  | '\x7d' :: c :: cs => isSpace c && "PLAY RECAP *".toList.isPrefixOf (cs.dropWhile isSpace)
  | _ => false

def recapStart : List Char → Option Nat
  | [] => none
  | c :: cs => if recapAt (c :: cs) then some 0 else (recapStart cs).map (· + 1)

def errorResults (message : String) : Json :=
  .dict [("error", .bool true), ("alert", .bool true), ("message", .str message)]

/-- The log line written, and the status and results stored after it. -/
structure Parsed where
  isOk : Bool
  line : String
  outcome : Except Exception (JobStatus × Json)

def Parsed.failed (line : String) : Parsed := ⟨false, line, .ok (.failure, errorResults line)⟩

/-- What Python says of `'alert' in results` and `results.get('error', False)` for other values. -/
def notObjectText : Json → String
  | .list _ => "'list' object has no attribute 'get'"
  | .str _ => "'str' object has no attribute 'get'"
  | .null => "argument of type 'NoneType' is not iterable"
  | .bool _ => "argument of type 'bool' is not iterable"
  | .int _ => "argument of type 'int' is not iterable"
  | .float _ => "argument of type 'float' is not iterable"
  | .dict _ => ""

variable (lib : TaskLibrary)

/-- Setting `results['message']` of a value that is no object raises once more. -/
def parsedJson (text : String) : Parsed :=
  match lib.loads text with
  | .error message => .failed ("Error in parsing JSON between delimiters (" ++ message)
  | .ok results =>
    let success := "Parsed JSON output successfully"
    let line := "Error in parsing JSON between delimiters (" ++ notObjectText results
    match results.hasKey "alert" with
    | .ok true => ⟨true, success, .ok (.success, results)⟩
    | .ok false =>
      match results with
      | .dict items =>
        let alert := (items.lookup "error").getD (.bool false)
        ⟨true, success, .ok (.success, .dict (items ++ [("alert", alert)]))⟩
      | _ => ⟨false, line, .error .typeError⟩
    | .error _ => ⟨false, line, .error .typeError⟩

def noPrefix (type : TaskType) : Parsed :=
  .failed ("Could not find JSON prefix '" ++ type.jsonPrefix ++ "' in stdout")

def noRecap : Parsed :=
  .failed ("Could not find regular expression re.compile('\x7d\\\\s+PLAY RECAP \\\\*', re.MULTILINE) " ++
    "in stdout after prefix")

def noSuffix : Parsed :=
  .failed ("Could not find any of JSON suffix ['" ++ scriptSuffix ++ "'] in stdout after prefix")

def parsedText (type : TaskType) (stdout : List Char) : Parsed :=
  match indexOf type.jsonPrefix.toList stdout with
  | none => noPrefix type
  | some found =>
    let start := found + type.jsonPrefix.length
    let between := fun finish => parsedJson lib (String.ofList ((stdout.drop start).take (finish - start)))
    match type with
    | .ansible =>
      match recapStart stdout with
      | none => noRecap
      | some finish => between finish
    | .script =>
      match indexOf scriptSuffix.toList (stdout.drop start) with
      | none => noSuffix
      | some length => between (start + length)

/-- `get_results` on any value: the searches also work on a list, up to the pattern. -/
def parsedStdout (type : TaskType) (stdout : Json) : Except Exception Parsed :=
  match stdout with
  | .str text => .ok (parsedText lib type text.toList)
  | value => do
    if !(← value.hasKey type.jsonPrefix) then return noPrefix type
    match value, type with
    | .list xs, .script =>
      let after := (xs.dropWhile fun x => !x.eq (.str type.jsonPrefix)).drop type.jsonPrefix.length
      if after.any fun x => x.eq (.str scriptSuffix) then
        return .failed "Error in parsing JSON between delimiters (the JSON object must be str, bytes or bytearray, not list"
      else return noSuffix
    | .list _, .ansible => throw .typeError
    | _, _ => throw .attributeError

def stdoutText : Json → String
  | .str text => text
  | value => lib.django.render value

def record (job : Job) (parsed : Parsed) : Run Job := do
  job.newLog parsed.isOk parsed.line
  let (status, results) ← lift parsed.outcome
  let job := { job with status, results }
  job.save
  return job

def parseJsonFromStdout (job : Job) (stdout : Json) (type : TaskType) : Run Job := do
  let job := { job with stdout := stdoutText lib stdout }
  job.save
  job.newLog true ("got stdout from " ++ type.source ++ " for this job")
  let parsed ← lift (parsedStdout lib type stdout)
  record job parsed

end Advisor.Tasks
