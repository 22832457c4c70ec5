import ArchChange.Json.Basic
import ArchChange.Json.Shortest
/-!
The text of a value, with one item or field a line and two spaces for each level. Only quotes,
backslashes and control characters are escaped.
-/
namespace ArchChange

def Number.render : Number → String
  | .int n => toString n
  | .double v => v.render

namespace Json

def hexDigit (n : Nat) : Char :=
  Char.ofNat (if n < 10 then '0'.toNat + n else 'a'.toNat + (n - 10))

/-- A character inside a string. -/
def escape (c : Char) : List Char :=
  match c with
  | '"' => ['\\', '"']
  | '\\' => ['\\', '\\']
  | '\x08' => ['\\', 'b']
  | '\x0c' => ['\\', 'f']
  | '\n' => ['\\', 'n']
  | '\r' => ['\\', 'r']
  | '\t' => ['\\', 't']
  | c =>
    if c < ' ' then ['\\', 'u', '0', '0', hexDigit (c.toNat / 16), hexDigit (c.toNat % 16)]
    else [c]

/-- A string with its quotes. -/
def quote (s : String) : String :=
  String.ofList ('"' :: (s.toList.flatMap escape ++ ['"']))

/-- The lines between two brackets, one level deeper than the brackets. -/
def block (opening closing indent : String) (entries : List String) : String :=
  match entries with
  | [] => opening ++ closing
  | entries =>
    let line := "\n" ++ indent ++ "  "
    opening ++ line ++ ("," ++ line).intercalate entries ++ "\n" ++ indent ++ closing

mutual

/-- A value whose brackets stand at `indent`. -/
def prettyAt (indent : String) : Json → String
  | null => "null"
  | bool b => if b then "true" else "false"
  | num n => n.render
  | str s => quote s
  | arr items => block "[" "]" indent (prettyItems (indent ++ "  ") items)
  | obj fields => block "\x7b" "\x7d" indent (prettyFields (indent ++ "  ") fields)
termination_by structural v => v

def prettyItems (indent : String) : List Json → List String
  | [] => []
  | v :: vs => prettyAt indent v :: prettyItems indent vs
termination_by structural vs => vs

def prettyFields (indent : String) : List (String × Json) → List String
  | [] => []
  | (k, v) :: fs => (quote k ++ ": " ++ prettyAt indent v) :: prettyFields indent fs
termination_by structural fs => fs

end

/-- A value on several lines. -/
def pretty (v : Json) : String :=
  prettyAt "" v

end Json

end ArchChange
