import Eggserve.Rust.Result
import Eggserve.Rust.Text

/-! Percent decoding of request-target paths. The decoder works on bytes and
reassembles UTF-8 at the end, so an escape may contribute only part of a
character. It refuses escapes of separators, NUL and control octets. -/
namespace Eggserve.Static
open Rust

/-- The reason a request target was refused before filesystem resolution. -/
inductive PathRejection where
  | empty
  | tooLong
  | unsupportedUriForm
  | malformedPercentEncoding
  | invalidUtf8
  | nulByte
  | controlCharacter
  | absolutePath
  | parentComponent
  | currentComponent
  | separatorAmbiguity
  | dotfileDenied
  | windowsPrefixDenied
  | windowsReservedNameDenied
  | windowsAlternateStreamDenied
  | symlinkDenied
  | rootEscapeDenied
  deriving DecidableEq, Repr

def hexDigit (b : UInt8) : Option UInt8 :=
  if 0x30 ≤ b && b ≤ 0x39 then some (b - 0x30)
  else if 0x61 ≤ b && b ≤ 0x66 then some (b - 0x61 + 10)
  else if 0x41 ≤ b && b ≤ 0x46 then some (b - 0x41 + 10)
  else none

/-- The octet an escape stands for, unless it is one a path must not alias. -/
def decodeEscape (first second : UInt8) : Except PathRejection UInt8 :=
  match hexDigit first, hexDigit second with
  | some hi, some lo =>
      let byte := hi <<< 4 ||| lo
      if byte = 0 then .error .nulByte
      else if asciiControl byte.toNat then .error .controlCharacter
      else if byte = 0x2f ∨ byte = 0x5c then .error .separatorAmbiguity
      else .ok byte
  | _, _ => .error .malformedPercentEncoding

/-- The loop of `percent_decode` over the remaining bytes. -/
def decodeBytes : List UInt8 → Except PathRejection (List UInt8)
  | [] => .ok []
  | b :: rest =>
      if b = 0x25 then
        match rest with
        | first :: second :: rest => do
            let byte ← decodeEscape first second
            let decoded ← decodeBytes rest
            return byte :: decoded
        | _ => .error .malformedPercentEncoding
      else if asciiControl b.toNat then
        .error (if b = 0 then .nulByte else .controlCharacter)
      else do
        let decoded ← decodeBytes rest
        return b :: decoded

def percentDecode (input : Str) : Except PathRejection Str := do
  let result ← decodeBytes (utf8 input)
  match fromUtf8 result with
  | some decoded => .ok decoded
  | none => .error .invalidUtf8

theorem decodeBytes_cons_literal {b : UInt8} (rest : List UInt8) (h : b ≠ 0x25) :
    decodeBytes (b :: rest) =
      if asciiControl b.toNat then .error (if b = 0 then .nulByte else .controlCharacter)
      else (decodeBytes rest >>= fun decoded => .ok (b :: decoded)) := by
  rw [decodeBytes.eq_def]
  simp only [h, ↓reduceIte]
  rfl

/-- Bytes without an escape pass through unchanged, or a control byte stops them. -/
theorem decodeBytes_of_not_mem {bytes decoded : List UInt8} (h : (0x25 : UInt8) ∉ bytes) :
    decodeBytes bytes = .ok decoded ↔
      decoded = bytes ∧ bytes.any (fun b => asciiControl b.toNat) = false := by
  induction bytes generalizing decoded with
  | nil => simp [decodeBytes, eq_comm]
  | cons b rest ih =>
      rw [List.mem_cons, not_or] at h
      rw [decodeBytes_cons_literal rest (Ne.symm h.1), List.any_cons, Bool.or_eq_false_iff]
      cases hControl : asciiControl b.toNat with
      | true => simp
      | false =>
          simp only [Bool.false_eq_true, ↓reduceIte, bind_eq_ok, ih h.2, Except.ok.injEq,
            true_and]
          constructor
          · rintro ⟨tail, ⟨rfl, hRest⟩, rfl⟩
            exact ⟨rfl, hRest⟩
          · rintro ⟨rfl, hRest⟩
            exact ⟨rest, ⟨rfl, hRest⟩, rfl⟩

/-- Decoding never grows the byte string. -/
theorem length_le_of_decodeBytes {bytes decoded : List UInt8}
    (h : decodeBytes bytes = .ok decoded) : decoded.length ≤ bytes.length := by
  fun_induction decodeBytes bytes generalizing decoded with
  | case1 =>
      cases h
      exact Nat.le_refl _
  | case2 first second rest ih =>
      obtain ⟨byte, _, h⟩ := bind_eq_ok.mp h
      obtain ⟨tail, hTail, h⟩ := bind_eq_ok.mp h
      cases h
      have hRest := ih hTail
      simp only [List.length_cons]
      omega
  | case3 => cases h
  | case4 => cases h
  | case5 b rest hPercent hControl ih =>
      obtain ⟨tail, hTail, h⟩ := bind_eq_ok.mp h
      cases h
      simpa using ih hTail

theorem percentDecode_eq_ok {input decoded : Str} :
    percentDecode input = .ok decoded ↔ decodeBytes (utf8 input) = .ok (utf8 decoded) := by
  rw [percentDecode, bind_eq_ok]
  constructor
  · rintro ⟨result, hBytes, hText⟩
    cases hDecode : fromUtf8 result with
    | none => simp [hDecode] at hText
    | some text =>
        rw [hDecode] at hText
        cases hText
        rw [hBytes, fromUtf8_eq_some_iff.mp hDecode]
  · intro hBytes
    exact ⟨utf8 decoded, hBytes, by simp⟩

theorem percent_mem_utf8 {s : Str} : (0x25 : UInt8) ∈ utf8 s ↔ '%' ∈ s := by
  rw [mem_utf8_ascii (by decide)]
  constructor
  · rintro ⟨c, hc, hCode⟩
    rwa [char_eq_of_toNat (d := '%') hCode] at hc
  · exact fun h => ⟨'%', h, rfl⟩

/-- Without escapes the decoder is the identity or fails on a control character. -/
theorem percentDecode_of_no_percent {input decoded : Str} (h : '%' ∉ input) :
    percentDecode input = .ok decoded ↔
      decoded = input ∧ input.any (fun c => asciiControl c.toNat) = false := by
  have hBytes : (0x25 : UInt8) ∉ utf8 input := fun hm => h (percent_mem_utf8.mp hm)
  rw [percentDecode_eq_ok, decodeBytes_of_not_mem hBytes, any_utf8_ascii lt_of_asciiControl]
  exact and_congr_left fun _ => ⟨utf8_injective, congrArg utf8⟩

end Eggserve.Static
