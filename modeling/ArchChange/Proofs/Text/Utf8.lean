import ArchChange.Text.Utf8
import Mathlib.Data.List.Basic
/-!
Reading the UTF-8 octets of a text gives the text again. The octets of one character take the state
machine from the start to that character and back.
-/
namespace ArchChange.Text

open String (utf8EncodeChar)

namespace Utf8

theorem units_pending (p : Pending) (b : UInt8) (bs : List UInt8)
    (h : p.low ≤ b.toNat ∧ b.toNat ≤ p.high) : units (some p) (b :: bs) =
      if p.missing = 1 then some (Char.ofNat (p.bits * 64 + (b.toNat - 0x80))) :: units none bs
      else units (some ⟨p.bits * 64 + (b.toNat - 0x80), p.missing - 1, 0x80, 0xbf⟩) bs := by
  rw [units, if_pos h]

theorem units_start {p : Pending} {b : UInt8} (bs : List UInt8) (h : start b.toNat = .inr p) :
    units none (b :: bs) = units (some p) bs := by
  rw [units, h]

/-- The octets after the first one carry six bits each. -/
theorem units_last (bits : Nat) (low high : Nat) (v : Nat) (bs : List UInt8) (c : Char)
    (hc : bits * 64 + v % 64 = c.toNat) (hlow : low ≤ v % 64 + 128) (hhigh : v % 64 + 128 ≤ high) :
    units (some ⟨bits, 1, low, high⟩) (UInt8.ofNat (v % 64 + 128) :: bs) =
      some c :: units none bs := by
  have hv : (UInt8.ofNat (v % 64 + 128)).toNat = v % 64 + 128 := by
    rw [UInt8.toNat_ofNat']
    omega
  rw [units_pending _ _ _ (by rw [hv]; exact ⟨hlow, hhigh⟩), hv, if_pos rfl, Nat.add_sub_cancel, hc,
    Char.ofNat_toNat]

theorem units_middle (bits missing : Nat) (low high : Nat) (v : Nat) (bs : List UInt8)
    (hlow : low ≤ v % 64 + 128) (hhigh : v % 64 + 128 ≤ high) :
    units (some ⟨bits, missing + 2, low, high⟩) (UInt8.ofNat (v % 64 + 128) :: bs) =
      units (some ⟨bits * 64 + v % 64, missing + 1, 0x80, 0xbf⟩) bs := by
  have hv : (UInt8.ofNat (v % 64 + 128)).toNat = v % 64 + 128 := by
    rw [UInt8.toNat_ofNat']
    omega
  rw [units_pending _ _ _ (by rw [hv]; exact ⟨hlow, hhigh⟩), hv, if_neg (by simp),
    Nat.add_sub_cancel]
  rfl

/-- The first octet tells how many follow, and bounds the second one so that no character has two
forms. -/
theorem start_lead (n : Nat) : start n =
    if n < 0x80 then .inl (some (Char.ofNat n))
    else if n < 0xc2 then .inl none
    else if n < 0xe0 then .inr ⟨n - 0xc0, 1, 0x80, 0xbf⟩
    else if n < 0xf0 then
      .inr ⟨n - 0xe0, 2, if n = 0xe0 then 0xa0 else 0x80, if n = 0xed then 0x9f else 0xbf⟩
    else if n < 0xf5 then
      .inr ⟨n - 0xf0, 3, if n = 0xf0 then 0x90 else 0x80, if n = 0xf4 then 0x8f else 0xbf⟩
    else .inl none := by
  unfold start
  grind

theorem units_utf8EncodeChar (c : Char) (bs : List UInt8) :
    units none (utf8EncodeChar c ++ bs) = some c :: units none bs := by
  have hvalid : c.toNat < 0xd800 ∨ 0xdfff < c.toNat ∧ c.toNat < 0x110000 := c.valid
  have hoctet : ∀ n < 256, (UInt8.ofNat n).toNat = n := fun n hn => by
    rw [UInt8.toNat_ofNat', Nat.mod_eq_of_lt hn]
  have hval : c.val.toNat = c.toNat := rfl
  unfold utf8EncodeChar
  simp only [hval]
  generalize hv : c.toNat = v at *
  split
  · have hstart : start (UInt8.ofNat v).toNat = .inl (some c) := by
      rw [hoctet _ (by omega), start_lead, if_pos (by omega), ← hv, Char.ofNat_toNat]
    rw [List.singleton_append, units, hstart]
  · split
    · have hlead : v / 64 % 32 + 192 - 0xc0 = v / 64 := by omega
      have hstart : start (UInt8.ofNat (v / 64 % 32 + 192)).toNat =
          .inr ⟨v / 64, 1, 0x80, 0xbf⟩ := by
        rw [hoctet _ (by omega), start_lead, if_neg (by omega), if_neg (by omega),
          if_pos (by omega), hlead]
      rw [List.cons_append, List.singleton_append, units_start _ hstart]
      exact units_last _ _ _ _ _ c (by omega) (by omega) (by omega)
    · split
      · have hlead : v / 4096 % 16 + 224 - 0xe0 = v / 4096 := by omega
        have hstart := start_lead (v / 4096 % 16 + 224)
        rw [if_neg (by omega), if_neg (by omega), if_neg (by omega), if_pos (by omega), hlead,
          ← hoctet (v / 4096 % 16 + 224) (by omega)] at hstart
        rw [List.cons_append, List.cons_append, List.singleton_append, units_start _ hstart,
          hoctet _ (by omega), units_middle _ _ _ _ _ _ (by split <;> omega) (by split <;> omega)]
        exact units_last _ _ _ _ _ c (by omega) (by omega) (by omega)
      · have hlead : v / 262144 % 8 + 240 - 0xf0 = v / 262144 := by omega
        have hstart := start_lead (v / 262144 % 8 + 240)
        rw [if_neg (by omega), if_neg (by omega), if_neg (by omega), if_neg (by omega),
          if_pos (by omega), hlead, ← hoctet (v / 262144 % 8 + 240) (by omega)] at hstart
        rw [List.cons_append, List.cons_append, List.cons_append, List.singleton_append,
          units_start _ hstart, hoctet _ (by omega),
          units_middle _ _ _ _ _ _ (by split <;> omega) (by split <;> omega),
          units_middle _ _ _ _ _ _ (by omega) (by omega)]
        exact units_last _ _ _ _ _ c (by omega) (by omega) (by omega)

theorem units_flatMap (cs : List Char) : units none (cs.flatMap utf8EncodeChar) = cs.map some := by
  induction cs with
  | nil => rfl
  | cons c cs ih => rw [List.flatMap_cons, units_utf8EncodeChar, ih, List.map_cons]

end Utf8

theorem toList_loop (bs : ByteArray) (i : Nat) (r : List UInt8) :
    ByteArray.toList.loop bs i r = r.reverse ++ bs.data.toList.drop i := by
  fun_induction ByteArray.toList.loop bs i r with
  | case1 i r hlt ih =>
    have hlength : i < bs.data.toList.length := hlt
    have hget : bs.get! i = bs.data.toList[i] := getElem!_pos bs.data i hlt
    rw [ih, hget, List.reverse_cons, List.append_assoc, List.singleton_append,
      ← List.drop_eq_getElem_cons hlength]
  | case2 i r hlt =>
    rw [List.drop_eq_nil_of_le (by simpa using Nat.le_of_not_lt hlt), List.append_nil]

theorem encode_eq (s : String) : encode s = s.toList.flatMap utf8EncodeChar := by
  have hbytes : s.toUTF8 = s.toList.utf8Encode := by
    rw [← String.toByteArray_ofList, String.ofList_toList]
    rfl
  rw [encode, hbytes, ByteArray.toList, toList_loop, List.utf8Encode, List.data_toByteArray]
  rfl

theorem units_encode (s : String) : Utf8.units none (encode s) = s.toList.map some := by
  rw [encode_eq, Utf8.units_flatMap]

/-- What is encoded has no fault, and is decoded as it was. -/
theorem decodeMarking_encode (mark : Char) (s : String) :
    decodeMarking mark (encode s) = s.toList := by
  rw [decodeMarking, units_encode, List.map_map]
  exact List.map_id _

theorem decodeLossy_encode (s : String) : decodeLossy (encode s) = s.toList :=
  decodeMarking_encode _ s

end ArchChange.Text
