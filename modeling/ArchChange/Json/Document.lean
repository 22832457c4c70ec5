/-!
The syntax of JSON texts. A document is what a text says before its numbers are rounded, its
strings are held to be characters and its repeated keys are settled; `Document.read?` accepts
exactly the grammar of RFC 8259, and strings with faults in them.
-/
namespace ArchChange

/-- A number as written. -/
structure NumberText where
  negative : Bool
  /-- The digits before the decimal point. -/
  whole : List Nat
  /-- The digits after the decimal point, if there is one. -/
  fraction : Option (List Nat)
  /-- The exponent, if there is one. -/
  exponent : Option Int
deriving DecidableEq, Repr

/-- A JSON text as a tree. A string that has half a surrogate pair or a fault is `none`. -/
inductive Document where
  | null
  | bool (value : Bool)
  | number (text : NumberText)
  | string (text : Option String)
  | array (items : List Document)
  | object (fields : List (Option String × Document))
deriving Repr

namespace Document

/-- The blanks of JSON: space, tab, line feed and carriage return. -/
def isSpace (c : Char) : Bool :=
  c == ' ' || c == '\t' || c == '\n' || c == '\r'

def skipSpace (s : List Char) : List Char :=
  s.dropWhile isSpace

def digit? (c : Char) : Option Nat :=
  if c.isDigit then some (c.toNat - '0'.toNat) else none

/-- The digits at the start, and what follows them. -/
def digits : List Char → List Nat × List Char
  | [] => ([], [])
  | c :: s =>
    match digit? c with
    | none => ([], c :: s)
    | some d => (d :: (digits s).1, (digits s).2)

def ofDigits (base : Nat) (ds : List Nat) : Nat :=
  ds.foldl (fun n d => n * base + d) 0

/-- The digits before the decimal point: a zero, or digits that start with another one. -/
def whole? (s : List Char) : Option (List Nat × List Char) :=
  match digits s with
  | ([], _) => none
  | ([0], rest) => some ([0], rest)
  | (0 :: _ :: _, _) => none
  | (ds, rest) => some (ds, rest)

/-- A decimal point with at least one digit, or nothing. -/
def fraction? : List Char → Option (Option (List Nat) × List Char)
  | '.' :: s =>
    match digits s with
    | ([], _) => none
    | (ds, rest) => some (some ds, rest)
  | s => some (none, s)

/-- An exponent mark, a sign if there is one and at least one digit, or nothing. -/
def exponent? (s : List Char) : Option (Option Int × List Char) :=
  match s with
  | c :: s' =>
    if c = 'e' ∨ c = 'E' then
      match s' with
      | '-' :: t => amount t fun n => -(n : Int)
      | '+' :: t => amount t fun n => n
      | t => amount t fun n => n
    else some (none, s)
  | [] => some (none, [])
where
  amount (t : List Char) (sign : Nat → Int) : Option (Option Int × List Char) :=
    match digits t with
    | ([], _) => none
    | (ds, rest) => some (some (sign (ofDigits 10 ds)), rest)

def number? (s : List Char) : Option (NumberText × List Char) := do
  let (negative, s) := match s with
    | '-' :: t => (true, t)
    | t => (false, t)
  let (whole, s) ← whole? s
  let (fraction, s) ← fraction? s
  let (exponent, s) ← exponent? s
  some (⟨negative, whole, fraction, exponent⟩, s)

def hexDigit? (c : Char) : Option Nat :=
  if c.isDigit then some (c.toNat - '0'.toNat)
  else if 'a' ≤ c ∧ c ≤ 'f' then some (c.toNat - 'a'.toNat + 10)
  else if 'A' ≤ c ∧ c ≤ 'F' then some (c.toNat - 'A'.toNat + 10)
  else none

/-- The 16-bit unit that four hexadecimal digits spell. -/
def unit? (a b c d : Char) : Option Nat := do
  some (ofDigits 16 [← hexDigit? a, ← hexDigit? b, ← hexDigit? c, ← hexDigit? d])

def isHighSurrogate (n : Nat) : Bool :=
  0xd800 ≤ n && n < 0xdc00

def isLowSurrogate (n : Nat) : Bool :=
  0xdc00 ≤ n && n < 0xe000

def pairOf (high low : Nat) : Char :=
  Char.ofNat (0x10000 + (high - 0xd800) * 0x400 + (low - 0xdc00))

/-- The character of an escape of one letter. -/
def shortEscape? : Char → Option Char
  | '"' => some '"'
  | '\\' => some '\\'
  | '/' => some '/'
  | 'b' => some '\x08'
  | 'f' => some '\x0c'
  | 'n' => some '\n'
  | 'r' => some '\r'
  | 't' => some '\t'
  | _ => none

/-- What a string holds when `c` comes before the rest of it. -/
def push (c : Char) : Option (Option (List Char) × List Char) →
    Option (Option (List Char) × List Char) :=
  Option.map fun r => (r.1.map (c :: ·), r.2)

/-- Stands in a text for octets that are no character. The grammar has no place for this
character itself. -/
def fault : Char := '\x00'

/-- What a string holds when something that is no character comes before the rest of it. -/
def spoil : Option (Option (List Char) × List Char) → Option (Option (List Char) × List Char) :=
  Option.map fun r => (none, r.2)

/-- The rest of a string after its opening quote, and what follows the closing quote. -/
def stringBody? : List Char → Option (Option (List Char) × List Char)
  | [] => none
  | '"' :: s => some (some [], s)
  | '\\' :: 'u' :: a :: b :: c :: d :: s =>
    match unit? a b c d with
    | none => none
    | some n =>
      if isHighSurrogate n then
        match s with
        | '\\' :: 'u' :: e :: f :: g :: h :: t =>
          match unit? e f g h with
          | none => none
          | some m =>
            if isLowSurrogate m then push (pairOf n m) (stringBody? t)
            else spoil (stringBody? ('\\' :: 'u' :: e :: f :: g :: h :: t))
        | s => spoil (stringBody? s)
      else if isLowSurrogate n then spoil (stringBody? s)
      else push (Char.ofNat n) (stringBody? s)
  | '\\' :: c :: s =>
    match shortEscape? c with
    | none => none
    | some e => push e (stringBody? s)
  | c :: s =>
    if c = fault then spoil (stringBody? s)
    else if c < ' ' then none
    else push c (stringBody? s)

def string? (s : List Char) : Option (Option String × List Char) :=
  (stringBody? s).map fun r => (r.1.map String.ofList, r.2)

mutual

/-- A value and what follows it. The fuel bounds the number of values and brackets in turn. -/
def value? : Nat → List Char → Option (Document × List Char)
  | 0, _ => none
  | fuel + 1, s =>
    match skipSpace s with
    | 'n' :: 'u' :: 'l' :: 'l' :: rest => some (null, rest)
    | 't' :: 'r' :: 'u' :: 'e' :: rest => some (bool true, rest)
    | 'f' :: 'a' :: 'l' :: 's' :: 'e' :: rest => some (bool false, rest)
    | '"' :: rest => (string? rest).map fun r => (string r.1, r.2)
    | '[' :: rest =>
      match skipSpace rest with
      | ']' :: rest => some (array [], rest)
      | rest => (items? fuel rest).map fun r => (array r.1, r.2)
    | '{' :: rest =>
      match skipSpace rest with
      | '}' :: rest => some (object [], rest)
      | rest => (fields? fuel rest).map fun r => (object r.1, r.2)
    | rest => (number? rest).map fun r => (number r.1, r.2)

/-- At least one item, up to the closing bracket. -/
def items? : Nat → List Char → Option (List Document × List Char)
  | 0, _ => none
  | fuel + 1, s => do
    let (v, rest) ← value? fuel s
    match skipSpace rest with
    | ',' :: rest => (items? fuel rest).map fun r => (v :: r.1, r.2)
    | ']' :: rest => some ([v], rest)
    | _ => none

/-- At least one field, up to the closing brace. -/
def fields? : Nat → List Char → Option (List (Option String × Document) × List Char)
  | 0, _ => none
  | fuel + 1, s =>
    match skipSpace s with
    | '"' :: rest => do
      let (key, rest) ← string? rest
      match skipSpace rest with
      | ':' :: rest => do
        let (v, rest) ← value? fuel rest
        match skipSpace rest with
        | ',' :: rest => (fields? fuel rest).map fun r => ((key, v) :: r.1, r.2)
        | '}' :: rest => some ([(key, v)], rest)
        | _ => none
      | _ => none
    | _ => none

end

/-- The document at the start of a text, and what follows it. -/
def readFirst? (s : List Char) : Option (Document × List Char) :=
  value? (2 * s.length + 2) s

/-- The document that a text consists of, blanks around it apart. -/
def read? (s : List Char) : Option Document := do
  let (d, rest) ← readFirst? s
  if (skipSpace rest).isEmpty then some d else none

end Document

end ArchChange
