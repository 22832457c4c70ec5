/-!
Text as people write it: blank characters, trimming, letter case and the cutting of a text at a
separator. All functions work on lists of characters; `String` versions stand at the end.
-/
namespace ArchChange.Text

/-- The characters with the Unicode property `White_Space`. -/
def isBlankChar (c : Char) : Bool :=
  let n := c.toNat
  (0x09 ≤ n && n ≤ 0x0d) || n == 0x20 || n == 0x85 || n == 0xa0 || n == 0x1680 ||
    (0x2000 ≤ n && n ≤ 0x200a) || n == 0x2028 || n == 0x2029 || n == 0x202f || n == 0x205f ||
    n == 0x3000

/-- Drops the blanks at the start. -/
def trimStart (s : List Char) : List Char :=
  s.dropWhile isBlankChar

/-- Drops the blanks at the end. -/
def trimEnd (s : List Char) : List Char :=
  (trimStart s.reverse).reverse

/-- Drops the blanks at both ends. -/
def trim (s : List Char) : List Char :=
  trimEnd (trimStart s)

/-- The rest of `s` after `lead`, if `s` starts with it. -/
def dropLead? : (lead s : List Char) → Option (List Char)
  | [], s => some s
  | _ :: _, [] => none
  | a :: lead, c :: s => if a = c then dropLead? lead s else none

/-- What stands before `tail`, if `s` ends with it. -/
def dropTail? (tail s : List Char) : Option (List Char) :=
  (dropLead? tail.reverse s.reverse).map List.reverse

/-- What follows the first `c`. -/
def after? (c : Char) : List Char → Option (List Char)
  | [] => none
  | d :: s => if d = c then some s else after? c s

/-- The pieces between the occurrences of `c`; there is always at least one. -/
def pieces (c : Char) : List Char → List (List Char)
  | [] => [[]]
  | d :: s =>
    if d = c then [] :: pieces c s
    else match pieces c s with
      | [] => [[d]]
      | p :: ps => (d :: p) :: ps

/-- The text with its ASCII letters in lower case. -/
def lowerCase (s : String) : String :=
  String.ofList (s.toList.map Char.toLower)

/-- Equality up to the case of ASCII letters. -/
def sameLetters (s t : String) : Bool :=
  lowerCase s == lowerCase t

/-- The text without the blanks at its ends. -/
def trimmed (s : String) : String :=
  String.ofList (trim s.toList)

/-- Whether a text holds nothing but blanks. -/
def isBlank (s : String) : Bool :=
  s.toList.all isBlankChar

/-- A text holds nothing but blanks iff trimming leaves nothing of it. -/
theorem trimStart_eq_nil_iff (s : List Char) : trimStart s = [] ↔ s.all isBlankChar = true := by
  induction s with
  | nil => simp [trimStart]
  | cons c s ih =>
    rw [trimStart] at ih ⊢
    by_cases h : isBlankChar c = true
    · rw [List.dropWhile_cons_of_pos h, ih, List.all_cons, h, Bool.true_and]
    · simp [h]

end ArchChange.Text
