import Eggserve.Rust.Text

/-! `String::from_utf8_lossy`. What is no UTF-8 becomes a replacement character,
one for each maximal part of a sequence that is broken off. -/
namespace Rust

/-- The character that the octets start with, if they do. -/
def decodeFirst (bytes : List UInt8) : Option Char := bytes.toByteArray.utf8DecodeChar? 0

theorem decodeFirst_eq_some {bytes : List UInt8} {c : Char} :
    decodeFirst bytes = some c ↔ ∃ rest, bytes = String.utf8EncodeChar c ++ rest := by
  constructor
  · intro h
    obtain ⟨rest, hRest⟩ := ByteArray.exists_of_utf8DecodeChar?_eq_some h
    refine ⟨rest.data.toList, List.toByteArray_inj.mp ?_⟩
    have hData : rest.data.toList.toByteArray = rest := by
      apply ByteArray.ext
      rw [List.data_toByteArray, Array.toArray_toList]
    rw [hRest, List.toByteArray_append, hData]
  · rintro ⟨rest, rfl⟩
    rw [decodeFirst, List.toByteArray_append]
    exact ByteArray.utf8DecodeChar?_utf8EncodeChar_append

/-- A second octet that a sequence of three or four can have after its first. -/
def continuesFirst (first second : UInt8) : Bool :=
  if first = 0xe0 then 0xa0 ≤ second && second ≤ 0xbf
  else if first = 0xed then 0x80 ≤ second && second ≤ 0x9f
  else if first = 0xf0 then 0x90 ≤ second && second ≤ 0xbf
  else if first = 0xf4 then 0x80 ≤ second && second ≤ 0x8f
  else 0xe1 ≤ first && first ≤ 0xf3 && 0x80 ≤ second && second ≤ 0xbf

def isContinuation (byte : UInt8) : Bool := 0x80 ≤ byte && byte ≤ 0xbf

/-- The length of the broken part that octets without a first character start
with. -/
def brokenLength : List UInt8 → Nat
  | first :: second :: rest =>
      if continuesFirst first second then
        if 0xf0 ≤ first && isContinuation (rest.headD 0) then 3 else 2
      else 1
  | _ => 1

/-- One character for each turn; `fuel` bounds the turns. -/
def lossyChars : Nat → List UInt8 → Str
  | 0, _ => []
  | _ + 1, [] => []
  | fuel + 1, byte :: rest =>
      match decodeFirst (byte :: rest) with
      | some c => c :: lossyChars fuel ((byte :: rest).drop (String.utf8EncodeChar c).length)
      | none => '\uFFFD' :: lossyChars fuel ((byte :: rest).drop (brokenLength (byte :: rest)))

/-- Every turn takes an octet, so that there are never more turns than octets. -/
def fromUtf8Lossy (bytes : List UInt8) : Str := lossyChars bytes.length bytes

theorem lossyChars_utf8 (s : Str) (fuel : Nat) (h : (utf8 s).length ≤ fuel) :
    lossyChars fuel (utf8 s) = s := by
  induction s generalizing fuel with
  | nil => cases fuel <;> rfl
  | cons c s ih =>
      have hFirst : decodeFirst (utf8 (c :: s)) = some c := decodeFirst_eq_some.mpr ⟨utf8 s, rfl⟩
      have hPos : 0 < (String.utf8EncodeChar c).length := by
        rw [String.length_utf8EncodeChar]
        exact c.utf8Size_pos
      rw [utf8_cons, List.length_append] at h
      cases fuel with
      | zero => omega
      | succ fuel =>
          cases hBytes : utf8 (c :: s) with
          | nil =>
              rw [utf8_cons, List.append_eq_nil_iff] at hBytes
              rw [hBytes.1] at hPos
              exact absurd hPos (Nat.lt_irrefl 0)
          | cons byte rest =>
              rw [hBytes] at hFirst
              simp only [lossyChars, hFirst]
              rw [← hBytes, utf8_cons, List.drop_left, ih fuel (by omega)]

/-- UTF-8 is decoded without loss. -/
theorem fromUtf8Lossy_utf8 (s : Str) : fromUtf8Lossy (utf8 s) = s :=
  lossyChars_utf8 s _ (Nat.le_refl _)

theorem mem_lossyChars_ascii {c : Char} {fuel : Nat} {bytes : List UInt8}
    (h : c ∈ lossyChars fuel bytes) (hAscii : c.toNat < 128) : UInt8.ofNat c.toNat ∈ bytes := by
  induction fuel generalizing bytes with
  | zero => simp [lossyChars] at h
  | succ fuel ih =>
      cases bytes with
      | nil => simp [lossyChars] at h
      | cons byte rest =>
          cases hFirst : decodeFirst (byte :: rest) with
          | some d =>
              simp only [lossyChars, hFirst, List.mem_cons] at h
              rcases h with rfl | hLater
              · obtain ⟨tail, hTail⟩ := decodeFirst_eq_some.mp hFirst
                rw [hTail, utf8EncodeChar_ascii hAscii]
                exact List.mem_append_left _ List.mem_cons_self
              · exact List.mem_of_mem_drop (ih hLater)
          | none =>
              simp only [lossyChars, hFirst, List.mem_cons] at h
              rcases h with rfl | hLater
              · exact absurd hAscii (by decide)
              · exact List.mem_of_mem_drop (ih hLater)

/-- An ASCII character of the text was an octet. -/
theorem mem_fromUtf8Lossy_ascii {c : Char} {bytes : List UInt8} (h : c ∈ fromUtf8Lossy bytes)
    (hAscii : c.toNat < 128) : UInt8.ofNat c.toNat ∈ bytes :=
  mem_lossyChars_ascii h hAscii

end Rust
