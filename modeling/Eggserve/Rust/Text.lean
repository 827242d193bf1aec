import Mathlib.Data.List.Basic
import Mathlib.Data.List.Infix
import Mathlib.Data.List.DropRight

/-! Rust text. A `&str` or `String` is a list of Unicode scalar values, which
is what a Lean `Char` is; its bytes are the UTF-8 encoding of the list. Only
the operations of `str`, `char` and `u8` that do not depend on a locale or on
the Unicode case tables are here. -/
namespace Rust

abbrev Str := List Char

-- A fact about the characters of a text is decided by going through the text, and not
-- through all the values of a finite type.
instance (priority := high) decidableForallMem {α : Type*} (p : α → Prop) [DecidablePred p]
    (xs : List α) : Decidable (∀ x ∈ xs, p x) :=
  List.decidableBAll p xs

instance (priority := high) decidableExistsMem {α : Type*} (p : α → Prop) [DecidablePred p]
    (xs : List α) : Decidable (∃ x ∈ xs, p x) :=
  List.decidableBEx p xs

instance : LawfulBEq Str := inferInstanceAs (LawfulBEq (List Char))

instance : Coe String Str := ⟨String.toList⟩

/-- `str::as_bytes`. -/
def utf8 (s : Str) : List UInt8 := s.flatMap String.utf8EncodeChar

/-- `String::from_utf8`, with the error reduced to `none`. -/
def fromUtf8 (bytes : List UInt8) : Option Str :=
  (ByteArray.utf8Decode? bytes.toByteArray).map Array.toList

@[simp] theorem utf8_nil : utf8 [] = [] := rfl

@[simp] theorem utf8_cons (c : Char) (s : Str) :
    utf8 (c :: s) = String.utf8EncodeChar c ++ utf8 s := rfl

@[simp] theorem utf8_append (s t : Str) : utf8 (s ++ t) = utf8 s ++ utf8 t := by
  simp [utf8]

theorem length_utf8_le_of_sublist {s t : Str} (h : s.Sublist t) :
    (utf8 s).length ≤ (utf8 t).length := by
  induction h with
  | slnil => exact Nat.le_refl _
  | cons c _ ih => simp only [utf8_cons, List.length_append]; omega
  | cons_cons c _ ih => simp only [utf8_cons, List.length_append]; omega

/-- Decoding accepts exactly the encodings, so no two texts share their bytes. -/
theorem fromUtf8_eq_some_iff {bytes : List UInt8} {s : Str} :
    fromUtf8 bytes = some s ↔ bytes = utf8 s := by
  constructor
  · intro h
    obtain ⟨chars, hDecode, rfl⟩ := Option.map_eq_some_iff.mp h
    have hSome : (ByteArray.utf8Decode? bytes.toByteArray).isSome := by rw [hDecode]; rfl
    have hBack := ByteArray.utf8Encode_get_utf8Decode? (h := hSome)
    simp only [hDecode, Option.get_some] at hBack
    exact (List.toByteArray_inj.mp hBack).symm
  · rintro rfl
    change (ByteArray.utf8Decode? s.utf8Encode).map Array.toList = some s
    rw [List.utf8Decode?_utf8Encode]
    rfl

@[simp] theorem fromUtf8_utf8 (s : Str) : fromUtf8 (utf8 s) = some s :=
  fromUtf8_eq_some_iff.mpr rfl

theorem utf8_injective {s t : Str} (h : utf8 s = utf8 t) : s = t := by
  have hDecode := congrArg fromUtf8 h
  simpa using hDecode

/-- An ASCII character is its own single byte. -/
theorem utf8EncodeChar_ascii {c : Char} (h : c.toNat < 128) :
    String.utf8EncodeChar c = [UInt8.ofNat c.toNat] := by
  rw [String.utf8EncodeChar]
  exact if_pos (Nat.le_of_lt_succ h)

/-- Every byte of a multi-byte sequence has its high bit set. -/
theorem le_of_mem_utf8EncodeChar {c : Char} {b : UInt8} (h : 128 ≤ c.toNat)
    (hb : b ∈ String.utf8EncodeChar c) : 128 ≤ b.toNat := by
  rw [String.utf8EncodeChar] at hb
  have hNot : ¬c.val.toNat ≤ 127 := Nat.not_le.mpr h
  simp only [hNot, ↓reduceIte] at hb
  split_ifs at hb <;>
    simp only [List.mem_cons, List.not_mem_nil, or_false] at hb <;>
    rcases hb with rfl | rfl | rfl | rfl <;>
    simp <;> omega

theorem toNat_ofNat_of_ascii {n : Nat} (h : n < 128) : (UInt8.ofNat n).toNat = n := by
  simp only [UInt8.toNat_ofNat']
  omega

theorem char_eq_of_toNat {c d : Char} (h : c.toNat = d.toNat) : c = d :=
  Char.ext (UInt32.toNat_inj.mp h)

/-- A byte below 128 occurs in the encoding exactly where its character does. -/
theorem mem_utf8_ascii {s : Str} {b : UInt8} (h : b.toNat < 128) :
    b ∈ utf8 s ↔ ∃ c ∈ s, c.toNat = b.toNat := by
  simp only [utf8, List.mem_flatMap]
  refine exists_congr fun c => and_congr_right fun _ => ?_
  by_cases hc : c.toNat < 128
  · rw [utf8EncodeChar_ascii hc, List.mem_singleton, ← UInt8.toNat_inj,
      toNat_ofNat_of_ascii hc, eq_comm]
  · constructor
    · intro hb
      have hHigh := le_of_mem_utf8EncodeChar (Nat.not_lt.mp hc) hb
      omega
    · intro hEq
      omega

/-- The first byte tells whether the text starts with a given ASCII character. -/
theorem utf8_head_ascii {s : Str} {c : Char} {rest : List UInt8} (h : c.toNat < 128)
    (hs : utf8 s = UInt8.ofNat c.toNat :: rest) : ∃ t, s = c :: t := by
  cases s with
  | nil => simp at hs
  | cons d t =>
      have hMem : UInt8.ofNat c.toNat ∈ utf8 [d] := by
        rw [utf8_cons] at hs
        cases hd : String.utf8EncodeChar d with
        | nil =>
            have hLength : (String.utf8EncodeChar d).length = 0 := by rw [hd]; rfl
            have hPos := d.utf8Size_pos
            rw [String.length_utf8EncodeChar] at hLength
            omega
        | cons b bs =>
            rw [hd, List.cons_append, List.cons.injEq] at hs
            simp [hs.1, hd]
      have hByte := toNat_ofNat_of_ascii h
      obtain ⟨e, he, hNat⟩ := (mem_utf8_ascii (by omega)).mp hMem
      rw [List.mem_singleton.mp he] at hNat
      exact ⟨t, by rw [char_eq_of_toNat (hNat.trans hByte)]⟩

/-- A class of ASCII codes meets the bytes exactly when it meets the characters. -/
theorem any_utf8_ascii {p : Nat → Bool} (hp : ∀ n, p n = true → n < 128) (s : Str) :
    (utf8 s).any (fun b => p b.toNat) = s.any (fun c => p c.toNat) := by
  rw [Bool.eq_iff_iff, List.any_eq_true, List.any_eq_true]
  constructor
  · rintro ⟨b, hb, hClass⟩
    obtain ⟨c, hc, hEq⟩ := (mem_utf8_ascii (hp _ hClass)).mp hb
    exact ⟨c, hc, by rw [hEq]; exact hClass⟩
  · rintro ⟨c, hc, hClass⟩
    have hByte := toNat_ofNat_of_ascii (hp _ hClass)
    refine ⟨UInt8.ofNat c.toNat, ?_, by rw [hByte]; exact hClass⟩
    exact (mem_utf8_ascii (by rw [hByte]; exact hp _ hClass)).mpr ⟨c, hc, hByte.symm⟩

/-- `&s[start..end]` on byte offsets. `none` is the panic on a bad bound or on a
bound inside a character: such a slice is not valid UTF-8. -/
def slice (s : Str) (start stop : Nat) : Option Str :=
  if start ≤ stop ∧ stop ≤ (utf8 s).length then
    fromUtf8 (((utf8 s).take stop).drop start)
  else none

/-- `str::find` of a character: the byte offset of its first occurrence. -/
def find (c : Char) (s : Str) : Option Nat :=
  if c ∈ s then some (utf8 (s.takeWhile (· ≠ c))).length else none

theorem slice_prefix (s t : Str) : slice (s ++ t) 0 (utf8 s).length = some s := by
  simp [slice]

/-- A slice that ends with a piece of the text is that piece. -/
theorem slice_middle (front middle back : Str) :
    slice (front ++ (middle ++ back)) (utf8 front).length
      ((utf8 front).length + (utf8 middle).length) = some middle := by
  simp [slice, List.take_append]

theorem slice_suffix (front back : Str) :
    slice (front ++ back) (utf8 front).length (utf8 (front ++ back)).length = some back := by
  simpa using slice_middle front back []

/-! ASCII classes, shared by the methods of `char` and of `u8`. -/

/-- `is_ascii_control`. -/
def asciiControl (code : Nat) : Bool := code < 0x20 || code = 0x7f

/-- `is_ascii_whitespace`: tab, line feed, form feed, carriage return, space. -/
def asciiWhitespace (code : Nat) : Bool :=
  code = 0x09 || code = 0x0a || code = 0x0c || code = 0x0d || code = 0x20

/-- `is_ascii_alphabetic`. -/
def asciiAlphabetic (code : Nat) : Bool :=
  0x41 ≤ code && code ≤ 0x5a || 0x61 ≤ code && code ≤ 0x7a

/-- `eq_ignore_ascii_case`. -/
def eqIgnoreAsciiCase (s t : Str) : Bool := s.map Char.toLower = t.map Char.toLower

theorem eqIgnoreAsciiCase_refl (s : Str) : eqIgnoreAsciiCase s s = true := decide_eq_true rfl

theorem eqIgnoreAsciiCase_comm (s t : Str) : eqIgnoreAsciiCase s t = eqIgnoreAsciiCase t s :=
  decide_eq_decide.mpr eq_comm

theorem eqIgnoreAsciiCase_congr_left {s t : Str} (h : eqIgnoreAsciiCase s t = true) (u : Str) :
    eqIgnoreAsciiCase s u = eqIgnoreAsciiCase t u := by
  rw [eqIgnoreAsciiCase, of_decide_eq_true h, ← eqIgnoreAsciiCase]

theorem eqIgnoreAsciiCase_congr_right {s t : Str} (h : eqIgnoreAsciiCase s t = true) (u : Str) :
    eqIgnoreAsciiCase u s = eqIgnoreAsciiCase u t := by
  rw [eqIgnoreAsciiCase, of_decide_eq_true h, ← eqIgnoreAsciiCase]

theorem toLower_of_upper {c : Char} (h : c.val ≥ 'A'.val ∧ c.val ≤ 'Z'.val) :
    c.toLower.val = c.val + ('a'.val - 'A'.val) :=
  congrArg Char.val (dif_pos h)

theorem toLower_of_not_upper {c : Char} (h : ¬(c.val ≥ 'A'.val ∧ c.val ≤ 'Z'.val)) :
    c.toLower = c :=
  dif_neg h

theorem toLower_toLower (c : Char) : c.toLower.toLower = c.toLower := by
  by_cases hUpper : c.val ≥ 'A'.val ∧ c.val ≤ 'Z'.val
  · have hVal := toLower_of_upper hUpper
    have hNot : ¬(c.toLower.val ≥ 'A'.val ∧ c.toLower.val ≤ 'Z'.val) := by
      rw [hVal]
      simp only [ge_iff_le, UInt32.le_iff_toNat_le, UInt32.toNat_add] at hUpper ⊢
      simp at hUpper ⊢
      omega
    exact toLower_of_not_upper hNot
  · rw [toLower_of_not_upper hUpper, toLower_of_not_upper hUpper]

/-- Lowering a side beforehand changes nothing. -/
theorem eqIgnoreAsciiCase_lower (s t : Str) :
    eqIgnoreAsciiCase (s.map Char.toLower) t = eqIgnoreAsciiCase s t := by
  simp only [eqIgnoreAsciiCase, List.map_map]
  congr 3
  funext c
  exact toLower_toLower c

/-- `char::is_whitespace`: the Unicode property `White_Space`. -/
def isWhitespace (c : Char) : Bool :=
  let code := c.toNat
  0x09 ≤ code && code ≤ 0x0d || code = 0x20 || code = 0x85 || code = 0xa0 || code = 0x1680 ||
    0x2000 ≤ code && code ≤ 0x200a || code = 0x2028 || code = 0x2029 || code = 0x202f ||
    code = 0x205f || code = 0x3000

/-- `str::trim`. -/
def trim (s : Str) : Str := (s.dropWhile isWhitespace).rdropWhile isWhitespace

/-- Whitespace in front of a text does not show after trimming. -/
theorem trim_blank_append {blank : Str} (s : Str) (h : ∀ c ∈ blank, isWhitespace c = true) :
    trim (blank ++ s) = trim s := by
  rw [trim, List.dropWhile_append_of_pos h, trim]

theorem trim_append_blank (s : Str) {c : Char} (h : isWhitespace c = true) :
    trim (s ++ [c]) = trim s := by
  rw [trim, trim, List.dropWhile_append]
  cases hDrop : s.dropWhile isWhitespace with
  | nil => simp [h]
  | cons d rest =>
      rw [if_neg (by simp), List.rdropWhile_concat_pos _ _ _ h]

theorem trim_of_blank {s : Str} (h : ∀ c ∈ s, isWhitespace c = true) : trim s = [] := by
  have hTrim := trim_blank_append [] h
  rwa [List.append_nil] at hTrim

/-- A text that neither starts nor ends with whitespace is its own trimming. -/
theorem trim_cons_concat {c d : Char} (mid : Str) (hc : isWhitespace c = false)
    (hd : isWhitespace d = false) : trim (c :: (mid ++ [d])) = c :: (mid ++ [d]) := by
  rw [trim, List.dropWhile_cons_of_neg (by simp [hc]), ← List.cons_append,
    List.rdropWhile_concat_neg _ _ _ (by simp [hd])]

theorem trim_of_no_blank {s : Str} (h : ∀ c ∈ s, isWhitespace c = false) : trim s = s := by
  have hFront : s.dropWhile isWhitespace = s := by
    cases s with
    | nil => rfl
    | cons c rest => exact List.dropWhile_cons_of_neg (by simp [h c List.mem_cons_self])
  rw [trim, hFront, List.rdropWhile_eq_self_iff]
  exact fun hNil => by simp [h _ (List.getLast_mem hNil)]

theorem count_trim {c : Char} (s : Str) (h : isWhitespace c = false) :
    (trim s).count c = s.count c := by
  have hFront : (s.takeWhile isWhitespace).count c = 0 := by
    rw [List.count_eq_zero]
    intro hMem
    simpa [h] using List.mem_takeWhile_imp hMem
  have hBack : ((s.dropWhile isWhitespace).rtakeWhile isWhitespace).count c = 0 := by
    rw [List.count_eq_zero]
    intro hMem
    simpa [h] using List.mem_rtakeWhile_imp hMem
  calc (trim s).count c
      = (s.dropWhile isWhitespace).count c := by
        conv_rhs => rw [← List.rdropWhile_append_rtakeWhile (p := isWhitespace)
          (l := s.dropWhile isWhitespace)]
        rw [List.count_append, hBack, trim, Nat.add_zero]
    _ = s.count c := by
        conv_rhs => rw [← List.takeWhile_append_dropWhile (p := isWhitespace) (l := s)]
        rw [List.count_append, hFront, Nat.zero_add]

/-- `splitn(2, c)`: at most one cut, at the first separator. -/
def splitn2 (c : Char) (s : Str) : List Str :=
  match s.dropWhile (· ≠ c) with
  | [] => [s]
  | _ :: rest => [s.takeWhile (· ≠ c), rest]

theorem takeWhile_ne_append {c : Char} {first : Str} (rest : Str) (h : c ∉ first) :
    (first ++ c :: rest).takeWhile (· ≠ c) = first ∧
      (first ++ c :: rest).dropWhile (· ≠ c) = c :: rest := by
  have hFirst : ∀ d ∈ first, decide (d ≠ c) = true := by
    intro d hd
    simpa using fun hEq : d = c => h (hEq ▸ hd)
  rw [List.takeWhile_append_of_pos hFirst, List.dropWhile_append_of_pos hFirst]
  simp

theorem takeWhile_ne_of_not_mem {c : Char} {s : Str} (h : c ∉ s) :
    s.takeWhile (· ≠ c) = s := by
  rw [List.takeWhile_eq_self_iff]
  intro d hd
  simpa using fun hEq : d = c => h (hEq ▸ hd)

theorem splitn2_append {c : Char} {first : Str} (rest : Str) (h : c ∉ first) :
    splitn2 c (first ++ c :: rest) = [first, rest] := by
  obtain ⟨hTake, hDrop⟩ := takeWhile_ne_append rest h
  simp only [splitn2, hTake, hDrop]

theorem splitn2_of_not_mem {c : Char} {s : Str} (h : c ∉ s) : splitn2 c s = [s] := by
  have hDrop : s.dropWhile (· ≠ c) = [] := by
    rw [List.dropWhile_eq_nil_iff]
    intro d hd
    simpa using fun hEq : d = c => h (hEq ▸ hd)
  simp only [splitn2, hDrop]

/-- `split_once`: the two sides of the first occurrence. -/
def splitOnce (c : Char) (s : Str) : Option (Str × Str) :=
  match s.dropWhile (· ≠ c) with
  | [] => none
  | _ :: rest => some (s.takeWhile (· ≠ c), rest)

theorem splitOnce_append {c : Char} {first : Str} (rest : Str) (h : c ∉ first) :
    splitOnce c (first ++ c :: rest) = some (first, rest) := by
  obtain ⟨hTake, hDrop⟩ := takeWhile_ne_append rest h
  simp only [splitOnce, hTake, hDrop]

theorem splitOnce_of_not_mem {c : Char} {s : Str} (h : c ∉ s) : splitOnce c s = none := by
  have hDrop : s.dropWhile (· ≠ c) = [] := by
    rw [List.dropWhile_eq_nil_iff]
    intro d hd
    simpa using fun hEq : d = c => h (hEq ▸ hd)
  simp only [splitOnce, hDrop]

theorem find_append {c : Char} {first : Str} (rest : Str) (h : c ∉ first) :
    find c (first ++ c :: rest) = some (utf8 first).length := by
  rw [find, if_pos (List.mem_append_right first List.mem_cons_self), (takeWhile_ne_append rest h).1]

theorem lt_of_asciiControl (code : Nat) (h : asciiControl code = true) : code < 128 := by
  simp only [asciiControl, Bool.or_eq_true, decide_eq_true_eq] at h
  omega

end Rust
