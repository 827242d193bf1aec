import Mathlib.Data.Nat.Digits.Lemmas
import Eggserve.Rust.Integer

/-! Integers as decimal text and as little-endian bytes, and text as UTF-16 code units. -/
namespace Rust

/-- `to_string` of a signed integer. -/
def displayInt (n : Int) : Str :=
  if n < 0 then '-' :: decimal n.natAbs else decimal n.natAbs

/-- `from_le_bytes`. -/
def fromLeBytes (bytes : List UInt8) : Nat := Nat.ofDigits 256 (bytes.map UInt8.toNat)

/-- `to_le_bytes` of an integer of `count` bytes. -/
def toLeBytes : Nat → Nat → List UInt8
  | 0, _ => []
  | count + 1, n => UInt8.ofNat n :: toLeBytes count (n / 256)

@[simp] theorem length_toLeBytes (count n : Nat) : (toLeBytes count n).length = count := by
  induction count generalizing n with
  | zero => rfl
  | succ count ih => rw [toLeBytes, List.length_cons, ih]

theorem fromLeBytes_toLeBytes (count : Nat) {n : Nat} (h : n < 256 ^ count) :
    fromLeBytes (toLeBytes count n) = n := by
  induction count generalizing n with
  | zero =>
      have hZero : n = 0 := by simpa using h
      rw [hZero]
      rfl
  | succ count ih =>
      have hRest : n / 256 < 256 ^ count := Nat.div_lt_of_lt_mul (by rwa [Nat.pow_succ'] at h)
      rw [toLeBytes, fromLeBytes, List.map_cons, Nat.ofDigits_cons, ← fromLeBytes, ih hRest,
        UInt8.toNat_ofNat']
      exact Nat.mod_add_div n 256

/-- `char::encode_utf16`: one unit, or a pair of surrogates. -/
def encodeUtf16Char (c : Char) : List Nat :=
  if c.toNat < 0x10000 then [c.toNat]
  else [0xd800 + (c.toNat - 0x10000) / 0x400, 0xdc00 + (c.toNat - 0x10000) % 0x400]

def encodeUtf16 (s : Str) : List Nat := s.flatMap encodeUtf16Char

/-- `String::from_utf16`. A surrogate that is not part of a pair is an error. -/
def fromUtf16 : List Nat → Option Str
  | [] => some []
  | unit :: rest =>
      if unit < 0xd800 ∨ 0xdfff < unit then (fromUtf16 rest).map (Char.ofNat unit :: ·)
      else if 0xdc00 ≤ unit then none
      else
        match rest with
        | [] => none
        | low :: rest =>
            if 0xdc00 ≤ low ∧ low ≤ 0xdfff then
              (fromUtf16 rest).map
                (Char.ofNat (0x10000 + (unit - 0xd800) * 0x400 + (low - 0xdc00)) :: ·)
            else none

theorem fromUtf16_encodeUtf16Char (c : Char) (rest : List Nat) :
    fromUtf16 (encodeUtf16Char c ++ rest) = (fromUtf16 rest).map (c :: ·) := by
  have hValid : c.toNat < 0xd800 ∨ 0xdfff < c.toNat ∧ c.toNat < 0x110000 := c.valid
  unfold encodeUtf16Char
  split_ifs with hOne
  · rw [List.singleton_append, fromUtf16.eq_def]
    dsimp only
    rw [if_pos (by omega), Char.ofNat_toNat]
  · have hChar : 0x10000 + (0xd800 + (c.toNat - 0x10000) / 0x400 - 0xd800) * 0x400 +
        (0xdc00 + (c.toNat - 0x10000) % 0x400 - 0xdc00) = c.toNat := by omega
    rw [List.cons_append, List.singleton_append, fromUtf16.eq_def]
    dsimp only
    rw [if_neg (by omega), if_neg (by omega), if_pos (by omega), hChar, Char.ofNat_toNat]

theorem fromUtf16_encodeUtf16 (s : Str) : fromUtf16 (encodeUtf16 s) = some s := by
  induction s with
  | nil => rfl
  | cons c s ih =>
      rw [encodeUtf16, List.flatMap_cons, fromUtf16_encodeUtf16Char, ← encodeUtf16, ih]
      rfl

/-- Every unit is of sixteen bits. -/
theorem lt_of_mem_encodeUtf16 {s : Str} {unit : Nat} (h : unit ∈ encodeUtf16 s) :
    unit < 2 ^ 16 := by
  obtain ⟨c, -, hUnit⟩ := List.mem_flatMap.mp h
  have hValid : c.toNat < 0xd800 ∨ 0xdfff < c.toNat ∧ c.toNat < 0x110000 := c.valid
  unfold encodeUtf16Char at hUnit
  split_ifs at hUnit with hOne
  · rw [List.mem_singleton] at hUnit
    omega
  · rw [List.mem_cons, List.mem_singleton] at hUnit
    omega

end Rust
