/-!
UTF-8 as a state machine over octets. Every maximal run of octets that starts a character but
does not complete it counts as one fault, as does every octet that can start none.
-/
namespace ArchChange.Text

namespace Utf8

/-- A character begun and not yet complete. -/
structure Pending where
  /-- The bits read so far. -/
  bits : Nat
  /-- How many octets are still to come; at least one. -/
  missing : Nat
  /-- The least next octet that continues the character. -/
  low : Nat
  /-- The greatest next octet that continues the character. -/
  high : Nat

/-- What an octet at the start of a character means: a whole character or fault, or the start
of a longer one. The bounds on the next octet refuse overlong forms, surrogates and values
above the last code point. -/
def start (b : Nat) : Option Char ⊕ Pending :=
  if b < 0x80 then .inl (some (Char.ofNat b))
  else if b < 0xc2 then .inl none
  else if b < 0xe0 then .inr ⟨b - 0xc0, 1, 0x80, 0xbf⟩
  else if b = 0xe0 then .inr ⟨0, 2, 0xa0, 0xbf⟩
  else if b = 0xed then .inr ⟨0xd, 2, 0x80, 0x9f⟩
  else if b < 0xf0 then .inr ⟨b - 0xe0, 2, 0x80, 0xbf⟩
  else if b = 0xf0 then .inr ⟨0, 3, 0x90, 0xbf⟩
  else if b < 0xf4 then .inr ⟨b - 0xf0, 3, 0x80, 0xbf⟩
  else if b = 0xf4 then .inr ⟨4, 3, 0x80, 0x8f⟩
  else .inl none

/-- The characters of an octet sequence, a fault as `none`. -/
def units : Option Pending → List UInt8 → List (Option Char)
  | none, [] => []
  | some _, [] => [none]
  | none, b :: bs =>
    match start b.toNat with
    | .inl c => c :: units none bs
    | .inr p => units (some p) bs
  | some p, b :: bs =>
    if p.low ≤ b.toNat ∧ b.toNat ≤ p.high then
      let bits := p.bits * 64 + (b.toNat - 0x80)
      if p.missing = 1 then some (Char.ofNat bits) :: units none bs
      else units (some ⟨bits, p.missing - 1, 0x80, 0xbf⟩) bs
    else
      match start b.toNat with
      | .inl c => none :: c :: units none bs
      | .inr q => none :: units (some q) bs

end Utf8

/-- Reads octets as UTF-8 and puts a character of its own for every fault. -/
def decodeMarking (mark : Char) (bytes : List UInt8) : List Char :=
  (Utf8.units none bytes).map (·.getD mark)

/-- Reads octets as UTF-8 and puts U+FFFD for every fault. -/
def decodeLossy (bytes : List UInt8) : List Char :=
  decodeMarking '\ufffd' bytes

/-- Reads octets as UTF-8; any fault refuses them all. -/
def decode? (bytes : List UInt8) : Option (List Char) :=
  (Utf8.units none bytes).mapM id

/-- The UTF-8 octets of a text. -/
def encode (s : String) : List UInt8 :=
  s.toUTF8.toList

end ArchChange.Text
