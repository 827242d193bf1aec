import Eggserve.Rust.Elements
import Eggserve.Rust.Integer
import Eggserve.Rust.Result

/-! Header blocks: ordered lists of validated fields that keep duplicates.
Names are tokens; values are octets without interpretation. -/
namespace Eggserve.Primitives
open Rust

inductive HeaderError where
  | invalidName
  | invalidValue
  | nameTooLong
  deriving DecidableEq, Repr

/-- The characters of a token. -/
def isTokenByte (b : UInt8) : Bool :=
  b = 0x21 || 0x23 ≤ b && b ≤ 0x27 || b = 0x2a || b = 0x2b || 0x2d ≤ b && b ≤ 0x2e ||
    0x30 ≤ b && b ≤ 0x39 || 0x41 ≤ b && b ≤ 0x5a || 0x5e ≤ b && b ≤ 0x7a || b = 0x7c || b = 0x7e

theorem toNat_lt_of_isTokenByte {b : UInt8} (h : isTokenByte b = true) : b.toNat < 128 := by
  simp only [isTokenByte, Bool.or_eq_true, Bool.and_eq_true, decide_eq_true_eq,
    UInt8.le_iff_toNat_le, ← UInt8.toNat_inj] at h
  simp at h
  omega

/-- Token characters are ASCII. -/
theorem toNat_lt_of_token_bytes {c : Char}
    (h : ∀ b ∈ String.utf8EncodeChar c, isTokenByte b = true) : c.toNat < 128 := by
  by_contra hHigh
  obtain ⟨b, hb⟩ := List.exists_mem_of_length_pos
    (String.length_utf8EncodeChar c ▸ Char.utf8Size_pos c)
  have hByte := le_of_mem_utf8EncodeChar (Nat.not_lt.mp hHigh) hb
  have hLow := toNat_lt_of_isTokenByte (h b hb)
  omega

def isValidHeaderName (name : Str) : Bool := (utf8 name).all isTokenByte

@[ext]
structure HeaderName where
  text : Str
  valid : text ≠ [] ∧ (utf8 text).length ≤ 256 ∧ isValidHeaderName text = true
  deriving DecidableEq

namespace HeaderName

def new (name : Str) : Except HeaderError HeaderName :=
  if hEmpty : name = [] then .error .invalidName
  else if hLong : (utf8 name).length > 256 then .error .nameTooLong
  else if hValid : isValidHeaderName name = true then
    .ok ⟨name, hEmpty, Nat.le_of_not_lt hLong, hValid⟩
  else .error .invalidName

theorem text_of_new {name : Str} {parsed : HeaderName} (h : new name = .ok parsed) :
    parsed.text = name := by
  unfold new at h
  split_ifs at h
  exact congrArg text (Except.ok.inj h).symm

theorem new_text (name : HeaderName) : new name.text = .ok name := by
  obtain ⟨hEmpty, hLength, hValid⟩ := name.valid
  rw [new, dif_neg hEmpty, dif_neg (Nat.not_lt.mpr hLength), dif_pos hValid]

/-- A name is text of token characters. -/
theorem isTokenByte_of_mem (name : HeaderName) {c : Char} (h : c ∈ name.text) :
    c.toNat < 128 ∧ isTokenByte (UInt8.ofNat c.toNat) = true := by
  have hBytes : ∀ b ∈ String.utf8EncodeChar c, isTokenByte b = true := fun b hb =>
    List.all_eq_true.mp name.valid.2.2 b (List.mem_flatMap.mpr ⟨c, h, hb⟩)
  have hAscii := toNat_lt_of_token_bytes hBytes
  rw [utf8EncodeChar_ascii hAscii] at hBytes
  exact ⟨hAscii, hBytes _ List.mem_cons_self⟩

/-- `eq_ignore_ascii_case` on the stored name. -/
def is (name : HeaderName) (other : Str) : Bool := eqIgnoreAsciiCase name.text other

end HeaderName

/-- The octets the transport accepts in a value. -/
def isValueByte (b : UInt8) : Bool := 32 ≤ b && b ≠ 127 || b = 9

def isOwsByte (b : UInt8) : Bool := b = 0x20 || b = 0x09

theorem not_isOwsByte_of_token {b : UInt8} (h : isTokenByte b = true) : isOwsByte b = false := by
  simp only [isOwsByte, Bool.or_eq_false_iff, decide_eq_false_iff_not]
  constructor <;> rintro rfl <;> exact absurd h (by decide)

def trimOws (bytes : List UInt8) : List UInt8 := (bytes.dropWhile isOwsByte).rdropWhile isOwsByte

@[ext]
structure HeaderValue where
  bytes : List UInt8
  valid : bytes.all isValueByte = true
  trimmed : trimOws bytes = bytes
  deriving DecidableEq

theorem trimOws_subset (bytes : List UInt8) : trimOws bytes ⊆ bytes :=
  fun _ h => (List.dropWhile_sublist _).subset ((List.rdropWhile_prefix isOwsByte _).subset h)

theorem all_trimOws {bytes : List UInt8} (h : bytes.all isValueByte = true) :
    (trimOws bytes).all isValueByte = true := by
  rw [List.all_eq_true] at h ⊢
  exact fun b hb => h b (trimOws_subset bytes hb)

theorem trimOws_trimOws (bytes : List UInt8) : trimOws (trimOws bytes) = trimOws bytes :=
  trimBlank_trimBlank isOwsByte bytes

theorem trimOws_of_no_ows {bytes : List UInt8} (hOws : ∀ b ∈ bytes, isOwsByte b = false) :
    trimOws bytes = bytes := by
  have hFront : bytes.dropWhile isOwsByte = bytes := by
    cases bytes with
    | nil => rfl
    | cons b rest => exact List.dropWhile_cons_of_neg (by simp [hOws b List.mem_cons_self])
  rw [trimOws, hFront, List.rdropWhile_eq_self_iff]
  exact fun hNil => by simp [hOws _ (List.getLast_mem hNil)]

/-! Decimal numbers are values as they stand. -/

theorem mem_utf8_decimal {b : UInt8} {n : Nat} (h : b ∈ utf8 (decimal n)) :
    48 ≤ b.toNat ∧ b.toNat ≤ 57 := by
  obtain ⟨c, hc, hb⟩ := List.mem_flatMap.mp h
  have hDigit : 48 ≤ c.toNat ∧ c.toNat ≤ 57 := by
    have hIsDigit := isDigit_of_mem_decimal hc
    simpa [Char.isDigit, UInt32.le_iff_toNat_le] using hIsDigit
  rw [utf8EncodeChar_ascii (by omega), List.mem_singleton] at hb
  rw [hb, toNat_ofNat_of_ascii (by omega)]
  exact hDigit

theorem all_isValueByte_decimal (n : Nat) : (utf8 (decimal n)).all isValueByte = true := by
  rw [List.all_eq_true]
  intro b hb
  have hDigit := mem_utf8_decimal hb
  have hLow : 32 ≤ b := UInt8.le_iff_toNat_le.mpr (by simpa using (by omega : 32 ≤ b.toNat))
  have hDel : b ≠ 127 := by
    rintro rfl
    simp at hDigit
  simp [isValueByte, hLow, hDel]

theorem trimOws_decimal (n : Nat) : trimOws (utf8 (decimal n)) = utf8 (decimal n) := by
  refine trimOws_of_no_ows fun b hb => ?_
  have hDigit := mem_utf8_decimal hb
  simp only [isOwsByte, Bool.or_eq_false_iff, decide_eq_false_iff_not]
  constructor <;> rintro rfl <;> simp at hDigit

namespace HeaderValue

def fromBytes (raw : List UInt8) : Except HeaderError HeaderValue :=
  if h : raw.all isValueByte = true then
    .ok ⟨trimOws raw, all_trimOws h, trimOws_trimOws raw⟩
  else .error .invalidValue

theorem bytes_of_fromBytes {raw : List UInt8} {parsed : HeaderValue}
    (h : fromBytes raw = .ok parsed) : parsed.bytes = trimOws raw := by
  unfold fromBytes at h
  split_ifs at h
  exact congrArg bytes (Except.ok.inj h).symm

def new (value : Str) : Except HeaderError HeaderValue := fromBytes (utf8 value)

/-- `to_str().ok()`: the text, if the octets are UTF-8. -/
def toStr (value : HeaderValue) : Option Str := fromUtf8 value.bytes

end HeaderValue

structure HeaderField where
  name : HeaderName
  value : HeaderValue
  deriving DecidableEq

structure DuplicateHeaderError where
  name : Str
  count : Nat
  deriving DecidableEq

/-- An ordered, duplicate-preserving collection of fields. -/
abbrev HeaderBlock := List HeaderField

namespace HeaderBlock

def getAll (headers : HeaderBlock) (name : Str) : List HeaderValue :=
  (headers.filter (·.name.is name)).map (·.value)

def contains (headers : HeaderBlock) (name : Str) : Bool := headers.any (·.name.is name)

/-- The unique value of a name, if it has one; several values are an error. -/
def getUnique (headers : HeaderBlock) (name : Str) :
    Except DuplicateHeaderError (Option HeaderValue) :=
  match getAll headers name with
  | [] => .ok none
  | [value] => .ok (some value)
  | values => .error ⟨name, values.length⟩

def pushStr (headers : HeaderBlock) (name value : Str) : Except HeaderError HeaderBlock := do
  let name ← HeaderName.new name
  let value ← HeaderValue.new value
  pure (headers ++ [⟨name, value⟩])

end HeaderBlock

end Eggserve.Primitives
