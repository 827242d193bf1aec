import Eggserve.Rust.Encoding
import Eggserve.Rust.NetText

/-! JSON texts: a parser of the whole grammar, the compact text of a value, and that the parser
reads it back. How strings are escaped is left open. -/
namespace Json
open Rust

/-- A decimal number: the mantissa times a power of ten. -/
structure Number where
  mantissa : Int
  exponent : Int
  deriving DecidableEq, Repr

/-- The members of an object keep their order. -/
inductive Value where
  | null
  | bool (b : Bool)
  | number (n : Number)
  | string (s : Str)
  | array (items : List Value)
  | object (members : List (Str × Value))

/-! The parser. Every reader takes a front part of the text and returns the rest. -/

def isBlank (c : Char) : Bool := c = ' ' || c = '\t' || c = '\n' || c = '\r'

def skip (s : Str) : Str := s.dropWhile isBlank

/-- The escapes of one letter, as code units. -/
def letterEscapes : List (Char × Nat) :=
  [('"', 0x22), ('\\', 0x5c), ('/', 0x2f), ('b', 8), ('f', 12), ('n', 10), ('r', 13), ('t', 9)]

def hexUnit (digits : Str) : Option Nat :=
  if digits.all fun c => (toDigit 16 c).isSome then
    some (bigEndian 16 (digits.filterMap (toDigit 16)))
  else none

/-- The code units up to the closing quotation mark. A control has to be escaped. -/
def readUnits : Str → Option (List Nat × Str)
  | [] => none
  | c :: rest =>
      if c = '"' then some ([], rest)
      else if c.toNat < 0x20 then none
      else if c = '\\' then
        match rest with
        | [] => none
        | letter :: rest =>
            if letter = 'u' then
              match rest with
              | d₁ :: d₂ :: d₃ :: d₄ :: rest =>
                  (hexUnit [d₁, d₂, d₃, d₄]).bind fun unit =>
                    (readUnits rest).map fun (units, rest) => (unit :: units, rest)
              | _ => none
            else
              (letterEscapes.lookup letter).bind fun unit =>
                (readUnits rest).map fun (units, rest) => (unit :: units, rest)
      else (readUnits rest).map fun (units, rest) => (encodeUtf16Char c ++ units, rest)

/-- A string behind its opening quotation mark. Surrogates have to be in pairs. -/
def readString (s : Str) : Option (Str × Str) :=
  (readUnits s).bind fun (units, rest) => (fromUtf16 units).map fun text => (text, rest)

def readDigits (s : Str) : Str × Str := (s.takeWhile Char.isDigit, s.dropWhile Char.isDigit)

def readSign (s : Str) : Bool × Str :=
  if s.head? = some '-' then (true, s.tail) else (false, s)

def signed (negative : Bool) (n : Nat) : Int := if negative then -n else n

def readFraction (s : Str) : Option (Str × Str) :=
  if s.head? = some '.' then
    if (readDigits s.tail).1 = [] then none else some (readDigits s.tail)
  else some ([], s)

def readExponent (s : Str) : Option (Int × Str) :=
  if s.head? = some 'e' ∨ s.head? = some 'E' then
    let (negative, s) := if s.tail.head? = some '+' then (false, s.tail.tail) else readSign s.tail
    let (digits, s) := readDigits s
    if digits = [] then none else some (signed negative (decimalValue digits), s)
  else some (0, s)

def readNumber (s : Str) : Option (Number × Str) :=
  let (negative, s) := readSign s
  let (whole, s) := readDigits s
  if whole = [] ∨ whole.head? = some '0' ∧ 1 < whole.length then none
  else
    (readFraction s).bind fun (fraction, s) =>
      (readExponent s).map fun (exponent, s) =>
        (⟨signed negative (decimalValue (whole ++ fraction)), exponent - fraction.length⟩, s)

def readLiteral (s : Str) : Option (Value × Str) :=
  if ("null" : Str).isPrefixOf s then some (.null, s.drop 4)
  else if ("true" : Str).isPrefixOf s then some (.bool true, s.drop 4)
  else if ("false" : Str).isPrefixOf s then some (.bool false, s.drop 5)
  else (readNumber s).map fun (n, rest) => (.number n, rest)

mutual

def readValue : Nat → Str → Option (Value × Str)
  | 0, _ => none
  | fuel + 1, s =>
      match skip s with
      | [] => none
      | c :: rest =>
          if c = '"' then (readString rest).map fun (text, rest) => (.string text, rest)
          else if c = '[' then
            if (skip rest).head? = some ']' then some (.array [], (skip rest).tail)
            else (readItems fuel rest).map fun (items, rest) => (.array items, rest)
          else if c = '{' then
            if (skip rest).head? = some '}' then some (.object [], (skip rest).tail)
            else (readMembers fuel rest).map fun (members, rest) => (.object members, rest)
          else readLiteral (c :: rest)

/-- The items of an array up to the closing bracket; there is one at least. -/
def readItems : Nat → Str → Option (List Value × Str)
  | 0, _ => none
  | fuel + 1, s =>
      (readValue fuel s).bind fun (item, rest) =>
        match skip rest with
        | [] => none
        | c :: rest =>
            if c = ',' then (readItems fuel rest).map fun (items, rest) => (item :: items, rest)
            else if c = ']' then some ([item], rest)
            else none

/-- The members of an object up to the closing brace; there is one at least. -/
def readMembers : Nat → Str → Option (List (Str × Value) × Str)
  | 0, _ => none
  | fuel + 1, s =>
      if (skip s).head? = some '"' then
        (readString (skip s).tail).bind fun (key, rest) =>
          if (skip rest).head? = some ':' then
            (readValue fuel (skip rest).tail).bind fun (value, rest) =>
              match skip rest with
              | [] => none
              | c :: rest =>
                  if c = ',' then
                    (readMembers fuel rest).map fun (members, rest) =>
                      ((key, value) :: members, rest)
                  else if c = '}' then some ([(key, value)], rest)
                  else none
          else none
      else none

end

/-- One value, and nothing but blanks around it. A call consumes a character at least every
other time. -/
def parse (s : Str) : Option Value :=
  (readValue (2 * s.length + 2) s).bind fun (value, rest) =>
    if skip rest = [] then some value else none

/-! Compact texts. -/

def compactNumber (n : Number) : Str :=
  displayInt n.mantissa ++ if n.exponent = 0 then [] else 'e' :: displayInt n.exponent

section

variable (escape : Str → Str)

def quote (s : Str) : Str := '"' :: (escape s ++ ['"'])

mutual

def compact : Value → Str
  | .null => "null"
  | .bool b => if b then "true" else "false"
  | .number n => compactNumber n
  | .string s => quote escape s
  | .array items => '[' :: (compactItems items ++ [']'])
  | .object members => '{' :: (compactMembers members ++ ['}'])

def compactItems : List Value → Str
  | [] => []
  | [item] => compact item
  | item :: next :: items => compact item ++ ',' :: compactItems (next :: items)

def compactMembers : List (Str × Value) → Str
  | [] => []
  | [(key, value)] => quote escape key ++ ':' :: compact value
  | (key, value) :: next :: members =>
      quote escape key ++ ':' :: (compact value ++ ',' :: compactMembers (next :: members))

end

end

/-! Strings, a character at a time. -/

theorem readUnits_close (rest : Str) : readUnits ('"' :: rest) = some ([], rest) := by
  rw [readUnits.eq_def]
  exact if_pos rfl

theorem readUnits_letter {letter : Char} {unit : Nat} (hLetter : letter ≠ 'u')
    (hUnit : letterEscapes.lookup letter = some unit) (rest : Str) :
    readUnits ('\\' :: letter :: rest) =
      (readUnits rest).map fun (units, rest) => (unit :: units, rest) := by
  rw [readUnits.eq_def]
  dsimp only
  rw [if_neg (by decide), if_neg (by decide), if_pos rfl, if_neg hLetter, hUnit, Option.bind_some]

theorem readUnits_hex {d₁ d₂ d₃ d₄ : Char} {unit : Nat}
    (hUnit : hexUnit [d₁, d₂, d₃, d₄] = some unit) (rest : Str) :
    readUnits ('\\' :: 'u' :: d₁ :: d₂ :: d₃ :: d₄ :: rest) =
      (readUnits rest).map fun (units, rest) => (unit :: units, rest) := by
  rw [readUnits.eq_def]
  dsimp only
  rw [if_neg (by decide), if_neg (by decide), if_pos rfl, if_pos rfl, hUnit, Option.bind_some]

theorem readUnits_plain {c : Char} (hQuote : c ≠ '"') (hControl : ¬c.toNat < 0x20)
    (hBackslash : c ≠ '\\') (rest : Str) :
    readUnits (c :: rest) =
      (readUnits rest).map fun (units, rest) => (encodeUtf16Char c ++ units, rest) := by
  rw [readUnits.eq_def]
  dsimp only
  rw [if_neg hQuote, if_neg hControl, if_neg hBackslash]

/-! Numbers are read back. -/

/-- What may follow a value in a compact text. -/
def Delimited (rest : Str) : Prop := ∀ c ∈ rest.head?, c = ',' ∨ c = ']' ∨ c = '}'

theorem exists_decimal (n : Nat) : ∃ c tail, decimal n = c :: tail ∧ c.isDigit = true := by
  cases hDigits : decimal n with
  | nil => exact absurd hDigits Nat.toDigits_ne_nil
  | cons c tail => exact ⟨c, tail, rfl, isDigit_of_mem_decimal (hDigits ▸ List.mem_cons_self)⟩

theorem readDigits_decimal (n : Nat) {rest : Str} (h : ∀ c ∈ rest.head?, c.isDigit = false) :
    readDigits (decimal n ++ rest) = (decimal n, rest) := by
  have hAll : ∀ c ∈ decimal n, c.isDigit = true := fun c hc => isDigit_of_mem_decimal hc
  rw [readDigits, List.takeWhile_append_of_pos hAll, List.dropWhile_append_of_pos hAll]
  cases rest with
  | nil => simp
  | cons c rest => simp [h c rfl]

theorem readSign_displayInt (n : Int) (rest : Str) :
    readSign (displayInt n ++ rest) = (decide (n < 0), decimal n.natAbs ++ rest) := by
  rw [displayInt]
  split_ifs with hNegative
  · rw [readSign, List.cons_append, List.head?_cons, if_pos rfl, decide_eq_true hNegative]
    rfl
  · obtain ⟨c, tail, hDecimal, hDigit⟩ := exists_decimal n.natAbs
    have hHead : (decimal n.natAbs ++ rest).head? ≠ some '-' := by
      rw [hDecimal]
      rintro hMinus
      rw [Option.some.inj hMinus] at hDigit
      exact absurd hDigit (by decide)
    rw [readSign, if_neg hHead, decide_eq_false hNegative]

theorem signed_natAbs (n : Int) : signed (decide (n < 0)) n.natAbs = n := by
  rw [signed]
  split_ifs with hNegative
  · have hLess := of_decide_eq_true hNegative
    omega
  · have hLess : ¬n < 0 := fun h => hNegative (decide_eq_true h)
    omega

theorem Delimited.not_digit {rest : Str} (h : Delimited rest) :
    ∀ c ∈ rest.head?, c.isDigit = false := by
  intro c hc
  rcases h c hc with rfl | rfl | rfl <;> decide

theorem Delimited.head_ne {rest : Str} (h : Delimited rest) {c : Char}
    (hc : c ≠ ',' ∧ c ≠ ']' ∧ c ≠ '}') : rest.head? ≠ some c := by
  intro hHead
  rcases h c hHead with rfl | rfl | rfl
  · exact hc.1 rfl
  · exact hc.2.1 rfl
  · exact hc.2.2 rfl

theorem readExponent_display {n : Int} {rest : Str} (h : Delimited rest) :
    readExponent ((if n = 0 then [] else 'e' :: displayInt n) ++ rest) = some (n, rest) := by
  split_ifs with hZero
  · rw [List.nil_append, readExponent,
      if_neg (not_or.mpr ⟨h.head_ne (by decide), h.head_ne (by decide)⟩), hZero]
  · obtain ⟨c, tail, hDecimal, hDigit⟩ := exists_decimal n.natAbs
    have hPlus : (displayInt n ++ rest).head? ≠ some '+' := by
      rw [displayInt, hDecimal]
      split_ifs
      · exact fun hHead => absurd (Option.some.inj hHead) (by decide)
      · intro hHead
        rw [Option.some.inj hHead] at hDigit
        exact absurd hDigit (by decide)
    have hSome : decimal n.natAbs ≠ [] := Nat.toDigits_ne_nil
    rw [List.cons_append, readExponent, List.head?_cons, if_pos (Or.inl rfl), List.tail_cons,
      if_neg hPlus]
    simp only [readSign_displayInt, readDigits_decimal _ h.not_digit, if_neg hSome,
      decimalValue_decimal, signed_natAbs]

theorem readNumber_compactNumber (n : Number) {rest : Str} (h : Delimited rest) :
    readNumber (compactNumber n ++ rest) = some (n, rest) := by
  have hExponent := @readExponent_display n.exponent rest h
  generalize hTail : (if n.exponent = 0 then [] else 'e' :: displayInt n.exponent) ++ rest = tail
    at hExponent
  have hHead : ∀ c ∈ tail.head?, c.isDigit = false ∧ c ≠ '.' := by
    intro c hc
    rw [← hTail] at hc
    split_ifs at hc
    · exact ⟨h.not_digit c hc, fun hDot => h.head_ne (by decide) (hDot ▸ hc)⟩
    · obtain rfl : 'e' = c := Option.some.inj hc
      decide
  have hSome : ¬(decimal n.mantissa.natAbs = [] ∨
      (decimal n.mantissa.natAbs).head? = some '0' ∧ 1 < (decimal n.mantissa.natAbs).length) := by
    rintro (hNone | ⟨hZero, hLong⟩)
    · exact Nat.toDigits_ne_nil hNone
    · rw [head_toDigits (by decide) (by decide) hZero] at hLong
      exact absurd hLong (by decide)
  have hFraction : readFraction tail = some ([], tail) :=
    if_neg fun hDot => (hHead '.' hDot).2 rfl
  rw [compactNumber, List.append_assoc, hTail, readNumber]
  simp only [readSign_displayInt, readDigits_decimal _ fun c hc => (hHead c hc).1, if_neg hSome,
    hFraction, hExponent, Option.bind_some, Option.map_some, List.append_nil, decimalValue_decimal,
    signed_natAbs, List.length_nil, Nat.cast_zero, sub_zero]

/-! Values are read back. -/

section

variable {escape : Str → Str}

/-- An escaped text ends before the first quotation mark, and stands for the text. -/
def ReadsBack (escape : Str → Str) : Prop :=
  ∀ s rest, readString (escape s ++ '"' :: rest) = some (s, rest)

mutual

/-- How deep the calls go that read a value. -/
def cost : Value → Nat
  | .array items => costItems items + 1
  | .object members => costMembers members + 1
  | _ => 1

def costItems : List Value → Nat
  | [] => 0
  | item :: items => cost item + costItems items + 1

def costMembers : List (Str × Value) → Nat
  | [] => 0
  | (_, value) :: members => cost value + costMembers members + 1

end

theorem skip_cons {c : Char} (h : isBlank c = false) (rest : Str) : skip (c :: rest) = c :: rest := by
  rw [skip, List.dropWhile_cons, if_neg (ne_true_of_eq_false h)]

/-- The first character of a number. -/
def IsNumberStart (c : Char) : Prop := c = '-' ∨ c.isDigit = true

theorem IsNumberStart.ne {c d : Char} (h : IsNumberStart c) (hMinus : d ≠ '-')
    (hDigit : d.isDigit = false) : c ≠ d := by
  rintro rfl
  rcases h with hc | hc
  · exact hMinus hc
  · rw [hDigit] at hc
    cases hc

theorem exists_compactNumber (n : Number) :
    ∃ c tail, compactNumber n = c :: tail ∧ IsNumberStart c := by
  obtain ⟨c, tail, hDecimal, hDigit⟩ := exists_decimal n.mantissa.natAbs
  rw [compactNumber, displayInt, hDecimal]
  split_ifs
  · exact ⟨'-', _, rfl, Or.inl rfl⟩
  · exact ⟨'-', _, rfl, Or.inl rfl⟩
  · exact ⟨c, _, rfl, Or.inr hDigit⟩
  · exact ⟨c, _, rfl, Or.inr hDigit⟩

theorem IsNumberStart.not_blank {c : Char} (h : IsNumberStart c) : isBlank c = false := by
  have hSpace := h.ne (d := ' ') (by decide) (by decide)
  have hTab := h.ne (d := '\t') (by decide) (by decide)
  have hLine := h.ne (d := '\n') (by decide) (by decide)
  have hReturn := h.ne (d := '\r') (by decide) (by decide)
  simp [isBlank, hSpace, hTab, hLine, hReturn]

/-- A compact text begins like a value. -/
theorem exists_compact (value : Value) :
    ∃ c tail, compact escape value = c :: tail ∧ isBlank c = false ∧ c ≠ ']' ∧ c ≠ '}' := by
  cases value with
  | null => exact ⟨'n', _, rfl, by decide⟩
  | bool b =>
      cases b with
      | true => exact ⟨'t', _, rfl, by decide⟩
      | false => exact ⟨'f', _, rfl, by decide⟩
  | number n =>
      obtain ⟨c, tail, hText, hStart⟩ := exists_compactNumber n
      refine ⟨c, tail, hText, hStart.not_blank, ?_, ?_⟩
      · exact hStart.ne (by decide) (by decide)
      · exact hStart.ne (by decide) (by decide)
  | string s => exact ⟨'"', _, rfl, by decide⟩
  | array items => exact ⟨'[', _, rfl, by decide⟩
  | object members => exact ⟨'{', _, rfl, by decide⟩

theorem readLiteral_number (n : Number) {rest : Str} (hRest : Delimited rest) :
    readLiteral (compactNumber n ++ rest) = some (.number n, rest) := by
  have hNumber := readNumber_compactNumber n hRest
  obtain ⟨c, tail, hText, hStart⟩ := exists_compactNumber n
  have hNull : c ≠ 'n' := hStart.ne (by decide) (by decide)
  have hTrue : c ≠ 't' := hStart.ne (by decide) (by decide)
  have hFalse : c ≠ 'f' := hStart.ne (by decide) (by decide)
  rw [hText] at hNumber ⊢
  rw [readLiteral, hNumber]
  simp [hNull.symm, hTrue.symm, hFalse.symm]

theorem readValue_literal (fuel : Nat) {c : Char} (hBlank : isBlank c = false)
    (hc : c ≠ '"' ∧ c ≠ '[' ∧ c ≠ '{') (rest : Str) :
    readValue (fuel + 1) (c :: rest) = readLiteral (c :: rest) := by
  rw [readValue, skip_cons hBlank]
  simp only [if_neg hc.1, if_neg hc.2.1, if_neg hc.2.2]

theorem readValue_string (fuel : Nat) (rest : Str) :
    readValue (fuel + 1) ('"' :: rest) =
      (readString rest).map fun (text, rest) => (.string text, rest) := by
  rw [readValue, skip_cons (by decide)]
  simp only [if_true]

theorem readValue_array (fuel : Nat) (rest : Str) :
    readValue (fuel + 1) ('[' :: rest) =
      if (skip rest).head? = some ']' then some (.array [], (skip rest).tail)
      else (readItems fuel rest).map fun (items, rest) => (.array items, rest) := by
  rw [readValue, skip_cons (by decide)]
  rfl

theorem readValue_object (fuel : Nat) (rest : Str) :
    readValue (fuel + 1) ('{' :: rest) =
      if (skip rest).head? = some '}' then some (.object [], (skip rest).tail)
      else (readMembers fuel rest).map fun (members, rest) => (.object members, rest) := by
  rw [readValue, skip_cons (by decide)]
  rfl

/-- A text that begins like a value closes no bracket. -/
theorem skip_compact_ne (value : Value) (rest : Str) {c : Char} (hc : c = ']' ∨ c = '}') :
    (skip (compact escape value ++ rest)).head? ≠ some c := by
  obtain ⟨d, tail, hText, hBlank, hBracket, hBrace⟩ := @exists_compact escape value
  rw [hText, List.cons_append, skip_cons hBlank, List.head?_cons]
  intro hHead
  rcases hc with rfl | rfl
  · exact hBracket (Option.some.inj hHead)
  · exact hBrace (Option.some.inj hHead)

theorem delimited_cons {c : Char} (hc : c = ',' ∨ c = ']' ∨ c = '}') (rest : Str) :
    Delimited (c :: rest) := by
  intro d hd
  exact (Option.some.inj hd) ▸ hc

theorem compactMembers_cons (member : Str × Value) (members : List (Str × Value)) :
    ∃ more, compactMembers escape (member :: members) = '"' :: more := by
  obtain ⟨key, value⟩ := member
  cases members with
  | nil => exact ⟨_, rfl⟩
  | cons next members => exact ⟨_, rfl⟩

theorem compactItems_cons (item : Value) (items : List Value) :
    ∃ more, compactItems escape (item :: items) = compact escape item ++ more := by
  cases items with
  | nil => exact ⟨[], (List.append_nil _).symm⟩
  | cons next items => exact ⟨_, rfl⟩

mutual

theorem readValue_compact (hEscape : ReadsBack escape) (value : Value) (fuel : Nat) (rest : Str)
    (hRest : Delimited rest) (h : cost value ≤ fuel) :
    readValue fuel (compact escape value ++ rest) = some (value, rest) := by
  cases fuel with
  | zero => cases value <;> simp [cost] at h
  | succ fuel =>
      cases value with
      | null => exact readValue_literal fuel (by decide) (by decide) _
      | bool b =>
          cases b with
          | true => exact readValue_literal fuel (by decide) (by decide) _
          | false => exact readValue_literal fuel (by decide) (by decide) _
      | number n =>
          have hNumber := readLiteral_number n hRest
          obtain ⟨c, tail, hText, hStart⟩ := exists_compactNumber n
          rw [compact, hText, List.cons_append, readValue_literal fuel hStart.not_blank,
            ← List.cons_append, ← hText, hNumber]
          refine ⟨?_, ?_, ?_⟩
          · exact hStart.ne (by decide) (by decide)
          · exact hStart.ne (by decide) (by decide)
          · exact hStart.ne (by decide) (by decide)
      | string s =>
          rw [compact, quote, List.cons_append, List.append_assoc, List.singleton_append,
            readValue_string, hEscape]
          rfl
      | array items =>
          rw [cost] at h
          rw [compact, List.cons_append, List.append_assoc, List.singleton_append, readValue_array]
          cases items with
          | nil => rfl
          | cons item items =>
              have hItems := readItems_compact hEscape (item :: items) fuel rest
                (List.cons_ne_nil _ _) (by omega)
              obtain ⟨more, hMore⟩ := @compactItems_cons escape item items
              rw [if_neg, hItems]
              · rfl
              · rw [hMore, List.append_assoc]
                exact skip_compact_ne item _ (Or.inl rfl)
      | object members =>
          rw [cost] at h
          rw [compact, List.cons_append, List.append_assoc, List.singleton_append, readValue_object]
          cases members with
          | nil => rfl
          | cons member members =>
              have hMembers := readMembers_compact hEscape (member :: members) fuel rest
                (List.cons_ne_nil _ _) (by omega)
              obtain ⟨more, hMore⟩ := @compactMembers_cons escape member members
              rw [if_neg, hMembers]
              · rfl
              · rw [hMore, List.cons_append, skip_cons (by decide)]
                exact fun hHead => absurd (Option.some.inj hHead) (by decide)

theorem readItems_compact (hEscape : ReadsBack escape) (items : List Value) (fuel : Nat)
    (rest : Str) (hItems : items ≠ []) (h : costItems items ≤ fuel) :
    readItems fuel (compactItems escape items ++ ']' :: rest) = some (items, rest) := by
  cases items with
  | nil => exact absurd rfl hItems
  | cons item items =>
      cases fuel with
      | zero => exact absurd h (Nat.not_succ_le_zero _)
      | succ fuel =>
          rw [costItems] at h
          cases items with
          | nil =>
              have hItem := readValue_compact hEscape item fuel (']' :: rest)
                (delimited_cons (Or.inr (Or.inl rfl)) rest) (by omega)
              have hClose : skip (']' :: rest) = ']' :: rest := skip_cons (by decide) rest
              rw [compactItems, readItems, hItem, Option.bind_some]
              simp only [hClose]
              rfl
          | cons next items =>
              have hItem := readValue_compact hEscape item fuel
                (',' :: (compactItems escape (next :: items) ++ ']' :: rest))
                (delimited_cons (Or.inl rfl) _) (by omega)
              have hOthers := readItems_compact hEscape (next :: items) fuel rest
                (List.cons_ne_nil _ _) (by omega)
              have hComma := @skip_cons ',' (by decide)
                (compactItems escape (next :: items) ++ ']' :: rest)
              rw [compactItems, List.append_assoc, List.cons_append, readItems, hItem,
                Option.bind_some]
              simp only [hComma, if_true, hOthers]
              rfl

theorem readMembers_compact (hEscape : ReadsBack escape) (members : List (Str × Value))
    (fuel : Nat) (rest : Str) (hMembers : members ≠ []) (h : costMembers members ≤ fuel) :
    readMembers fuel (compactMembers escape members ++ '}' :: rest) = some (members, rest) := by
  cases members with
  | nil => exact absurd rfl hMembers
  | cons member members =>
      obtain ⟨key, value⟩ := member
      cases fuel with
      | zero => exact absurd h (Nat.not_succ_le_zero _)
      | succ fuel =>
          rw [costMembers] at h
          -- The key and the colon, whatever stands behind them.
          have hKey (behind : Str) : readMembers (fuel + 1) (quote escape key ++ ':' :: behind) =
              (readValue fuel behind).bind fun (value, rest) =>
                match skip rest with
                | [] => none
                | c :: rest =>
                    if c = ',' then
                      (readMembers fuel rest).map fun (members, rest) =>
                        ((key, value) :: members, rest)
                    else if c = '}' then some ([(key, value)], rest)
                    else none := by
            have hColon := @skip_cons ':' (by decide) behind
            rw [quote, List.cons_append, List.append_assoc, List.singleton_append, readMembers,
              skip_cons (by decide), List.head?_cons, if_pos rfl, List.tail_cons, hEscape,
              Option.bind_some]
            simp only [hColon, List.head?_cons, if_true, List.tail_cons]
          cases members with
          | nil =>
              have hValue := readValue_compact hEscape value fuel ('}' :: rest)
                (delimited_cons (Or.inr (Or.inr rfl)) rest) (by omega)
              have hClose : skip ('}' :: rest) = '}' :: rest := skip_cons (by decide) rest
              rw [compactMembers, List.append_assoc, List.cons_append, hKey, hValue,
                Option.bind_some]
              simp only [hClose]
              rfl
          | cons next members =>
              have hValue := readValue_compact hEscape value fuel
                (',' :: (compactMembers escape (next :: members) ++ '}' :: rest))
                (delimited_cons (Or.inl rfl) _) (by omega)
              have hOthers := readMembers_compact hEscape (next :: members) fuel rest
                (List.cons_ne_nil _ _) (by omega)
              have hComma := @skip_cons ',' (by decide)
                (compactMembers escape (next :: members) ++ '}' :: rest)
              rw [compactMembers, List.append_assoc, List.cons_append, List.append_assoc,
                List.cons_append, hKey, hValue, Option.bind_some]
              simp only [hComma, if_true, hOthers]
              rfl

end

mutual

theorem cost_le (value : Value) : cost value ≤ 2 * (compact escape value).length := by
  have hPositive : 1 ≤ (compact escape value).length := by
    obtain ⟨c, tail, hText, -⟩ := @exists_compact escape value
    rw [hText]
    exact Nat.succ_pos _
  cases value with
  | null | bool | number | string =>
      change 1 ≤ _
      omega
  | array items =>
      have hItems := costItems_le items
      rw [cost, compact, List.length_cons, List.length_append, List.length_singleton]
      omega
  | object members =>
      have hMembers := costMembers_le members
      rw [cost, compact, List.length_cons, List.length_append, List.length_singleton]
      omega

theorem costItems_le (items : List Value) :
    costItems items ≤ 2 * (compactItems escape items).length + 1 := by
  cases items with
  | nil => exact Nat.zero_le _
  | cons item items =>
      have hItem := cost_le item
      cases items with
      | nil =>
          rw [costItems, costItems, compactItems]
          omega
      | cons next items =>
          have hItems := costItems_le (next :: items)
          rw [costItems, compactItems, List.length_append, List.length_cons]
          omega

theorem costMembers_le (members : List (Str × Value)) :
    costMembers members ≤ 2 * (compactMembers escape members).length + 1 := by
  cases members with
  | nil => exact Nat.zero_le _
  | cons member members =>
      obtain ⟨key, value⟩ := member
      have hValue := cost_le value
      cases members with
      | nil =>
          rw [costMembers, costMembers, compactMembers, List.length_append, List.length_cons]
          omega
      | cons next members =>
          have hMembers := costMembers_le (next :: members)
          rw [costMembers, compactMembers, List.length_append, List.length_cons, List.length_append,
            List.length_cons]
          omega

end

/-- The compact text of a value, and nothing else, is that value. -/
theorem parse_compact (hEscape : ReadsBack escape) (value : Value) :
    parse (compact escape value) = some value := by
  have hFuel := @cost_le escape value
  have hRead := readValue_compact hEscape value (2 * (compact escape value).length + 2) []
    (fun c hc => by cases hc) (by omega)
  rw [List.append_nil] at hRead
  rw [parse, hRead]
  rfl

/-! Compact texts of lists, and that no text has a line break in it. -/

/-- A member of an object. -/
def compactMember (escape : Str → Str) (member : Str × Value) : Str :=
  quote escape member.1 ++ ':' :: compact escape member.2

theorem compactMembers_eq (member : Str × Value) (members : List (Str × Value)) :
    compactMembers escape (member :: members) =
      compactMember escape member ++ members.flatMap fun next => ',' :: compactMember escape next := by
  induction members generalizing member with
  | nil =>
      obtain ⟨key, value⟩ := member
      rw [List.flatMap_nil, List.append_nil]
      rfl
  | cons next members ih =>
      obtain ⟨key, value⟩ := member
      rw [compactMembers, ih, List.flatMap_cons, show compactMember escape (key, value) =
        quote escape key ++ ':' :: compact escape value from rfl]
      simp only [List.append_assoc, List.cons_append]

theorem compactItems_eq (item : Value) (items : List Value) :
    compactItems escape (item :: items) =
      compact escape item ++ items.flatMap fun next => ',' :: compact escape next := by
  induction items generalizing item with
  | nil =>
      rw [List.flatMap_nil, List.append_nil]
      rfl
  | cons next items ih =>
      rw [compactItems, ih, List.flatMap_cons]
      simp only [List.cons_append]

/-- No character of the text is a control of ASCII. -/
def Printable (s : Str) : Prop := ∀ c ∈ s, 0x20 ≤ c.toNat

theorem Printable.append {s t : Str} (hs : Printable s) (ht : Printable t) : Printable (s ++ t) :=
  fun c hc => (List.mem_append.mp hc).elim (hs c) (ht c)

theorem Printable.cons {c : Char} {s : Str} (hc : 0x20 ≤ c.toNat) (hs : Printable s) :
    Printable (c :: s) := List.forall_mem_cons.mpr ⟨hc, hs⟩

theorem printable_decimal (n : Nat) : Printable (decimal n) := by
  intro c hc
  have hDigit := isDigit_of_mem_decimal hc
  simp only [Char.isDigit, Bool.and_eq_true, decide_eq_true_eq] at hDigit
  have hLow : 48 ≤ c.toNat := UInt32.le_iff_toNat_le.mp hDigit.1
  omega

theorem printable_displayInt (n : Int) : Printable (displayInt n) := by
  rw [displayInt]
  split_ifs
  · exact .cons (by decide) (printable_decimal _)
  · exact printable_decimal _

theorem printable_compactNumber (n : Number) : Printable (compactNumber n) := by
  refine (printable_displayInt _).append ?_
  split_ifs
  · exact fun c hc => by cases hc
  · exact .cons (by decide) (printable_displayInt _)

theorem printable_quote (hEscape : ∀ s, Printable (escape s)) (s : Str) :
    Printable (quote escape s) :=
  .cons (by decide) ((hEscape s).append (.cons (by decide) fun c hc => by cases hc))

mutual

theorem printable_compact (hEscape : ∀ s, Printable (escape s)) (value : Value) :
    Printable (compact escape value) := by
  have hClose {c : Char} (hc : 0x20 ≤ c.toNat) : Printable [c] := .cons hc fun d hd => by cases hd
  cases value with
  | null => exact fun c hc => (by decide : ∀ c ∈ ("null" : Str), 0x20 ≤ c.toNat) c hc
  | bool b =>
      cases b with
      | true => exact fun c hc => (by decide : ∀ c ∈ ("true" : Str), 0x20 ≤ c.toNat) c hc
      | false => exact fun c hc => (by decide : ∀ c ∈ ("false" : Str), 0x20 ≤ c.toNat) c hc
  | number n => exact printable_compactNumber n
  | string s => exact printable_quote hEscape s
  | array items =>
      exact .cons (by decide) ((printable_compactItems hEscape items).append (hClose (by decide)))
  | object members =>
      exact .cons (by decide)
        ((printable_compactMembers hEscape members).append (hClose (by decide)))

theorem printable_compactItems (hEscape : ∀ s, Printable (escape s)) (items : List Value) :
    Printable (compactItems escape items) := by
  cases items with
  | nil => exact fun c hc => by cases hc
  | cons item items =>
      have hItem := printable_compact hEscape item
      cases items with
      | nil => exact hItem
      | cons next items =>
          exact hItem.append (.cons (by decide) (printable_compactItems hEscape (next :: items)))

theorem printable_compactMembers (hEscape : ∀ s, Printable (escape s))
    (members : List (Str × Value)) : Printable (compactMembers escape members) := by
  cases members with
  | nil => exact fun c hc => by cases hc
  | cons member members =>
      obtain ⟨key, value⟩ := member
      have hKey := printable_quote hEscape key
      have hValue := printable_compact hEscape value
      cases members with
      | nil => exact hKey.append (.cons (by decide) hValue)
      | cons next members =>
          exact hKey.append (.cons (by decide) (hValue.append (.cons (by decide)
            (printable_compactMembers hEscape (next :: members)))))

end

end

end Json
