import ArchChange.Json.Reader
import ArchChange.Text.Blank
import ArchChange.Text.Utf8
/-!
Finding the plan in what a producer answers. The answer is the plan itself, or an envelope that
holds it as structured output or in its result text, or prose with the plan somewhere in it. In
a text the plan may stand inside a fenced block.
-/
namespace ArchChange.Plan

/-- Where a plan was found. -/
inductive Source where
  | bare
  | structuredOutput
  | resultText
deriving DecidableEq, Repr

/-- A plan as found; always an object. -/
structure Extracted where
  value : Json
  source : Source

/-- Why no plan was found. Whichever way to a plan fails, it gives exactly one reason, and no other
way is tried after it. -/
inductive NoPlan where
  | responseUnreadable
  | resultUnreadable
  | notAnObject (found : Json.Kind)
deriving DecidableEq, Repr

def NoPlan.message : NoPlan → String
  | responseUnreadable => "response JSON failed to parse"
  | resultUnreadable => "result JSON failed to parse"
  | notAnObject found => s!"plan must be a JSON object (found {found.name})"

def fence : List Char := ['\x60', '\x60', '\x60']

/-- What a fenced block holds, without the word after the opening fence and with or without a
closing fence; a text that starts with no fence is only trimmed. -/
def unfence (s : List Char) : List Char :=
  let s := Text.trim s
  match Text.dropLead? fence s with
  | none => s
  | some rest =>
    let body := Text.trimEnd ((Text.after? '\n' rest).getD [])
    Text.trim ((Text.dropTail? fence body).getD body)

/-- The first value that can be read from some opening brace on. -/
def firstEmbedded? : List Char → Option Json
  | [] => none
  | c :: s =>
    if c = '{' then (Json.firstOfText? (c :: s)).orElse fun _ => firstEmbedded? s
    else firstEmbedded? s

def requireObject (value : Json) (source : Source) : Except NoPlan Extracted :=
  match value with
  | .obj _ => .ok ⟨value, source⟩
  | _ => .error (.notAnObject value.kind)

/-- The plan in a result text. -/
def extractResult (result : String) : Except NoPlan Extracted :=
  let text := unfence result.toList
  match (Json.ofText? text).orElse fun _ => firstEmbedded? text with
  | some value => requireObject value .resultText
  | none => .error .resultUnreadable

/-- The plan in an answer that is JSON. -/
def extractValue (value : Json) : Except NoPlan Extracted :=
  match value.get? "structured_output" with
  | some structured => requireObject structured .structuredOutput
  | none =>
    match (value.get? "result").bind Json.text? with
    | some result => extractResult result
    | none => requireObject value .bare

/-- The plan in an answer. -/
def extractText (response : List Char) : Except NoPlan Extracted :=
  match Json.ofText? (Text.trim response) with
  | some value => extractValue value
  | none =>
    match firstEmbedded? (unfence response) with
    | some value => requireObject value .resultText
    | none => .error .responseUnreadable

/-- The plan in an answer given as octets. -/
def extract (response : List UInt8) : Except NoPlan Extracted :=
  extractText (Text.decodeLossy response)

end ArchChange.Plan
