import Eggserve.Rust.Integer

/-! IP addresses of the standard library and the parsers of their text. A
reader takes a front part of the text and returns the rest; `none` is failure
without consumption. -/
namespace Rust

@[ext]
structure Ipv4Addr where
  bits : BitVec 32
  deriving DecidableEq

@[ext]
structure Ipv6Addr where
  bits : BitVec 128
  deriving DecidableEq

inductive IpAddr where
  | v4 (addr : Ipv4Addr)
  | v6 (addr : Ipv6Addr)
  deriving DecidableEq

structure SocketAddr where
  ip : IpAddr
  port : Nat
  deriving DecidableEq

/-- The big-endian number of digits to a base. -/
def bigEndian (base : Nat) (digits : List Nat) : Nat :=
  digits.foldl (fun value digit => value * base + digit) 0

def Ipv4Addr.ofOctets (octets : List Nat) : Ipv4Addr := ⟨BitVec.ofNat 32 (bigEndian 256 octets)⟩

def Ipv6Addr.ofGroups (groups : List Nat) : Ipv6Addr := ⟨BitVec.ofNat 128 (bigEndian 65536 groups)⟩

/-- `char::to_digit` for the radices ten and sixteen. -/
def toDigit (radix : Nat) (c : Char) : Option Nat :=
  let digit :=
    if c.isDigit then some (c.toNat - 48)
    else if 'a' ≤ c ∧ c ≤ 'f' then some (c.toNat - 87)
    else if 'A' ≤ c ∧ c ≤ 'F' then some (c.toNat - 55)
    else none
  digit.filter (· < radix)

/-- All digits at the front are read, and too many of them are an error. -/
def readNumber (radix maxDigits bound : Nat) (allowZeroPrefix : Bool) (s : Str) :
    Option (Nat × Str) :=
  let digits := s.takeWhile fun c => (toDigit radix c).isSome
  let value := bigEndian radix (digits.filterMap (toDigit radix))
  if digits.isEmpty ∨ maxDigits < digits.length ∨ bound < value then none
  else if allowZeroPrefix = false ∧ digits.head? = some '0' ∧ 1 < digits.length then none
  else some (value, s.drop digits.length)

/-- A separator stands in front of every part but the first. -/
def readSeparator (separator : Char) (index : Nat) (s : Str) : Option Str :=
  if index = 0 then some s
  else
    match s with
    | c :: rest => if c = separator then some rest else none
    | [] => none

/-- The octets from number `index` on. -/
def readOctets (index : Nat) : Nat → Str → Option (List Nat × Str)
  | 0, s => some ([], s)
  | left + 1, s => do
      let s ← readSeparator '.' index s
      let (octet, s) ← readNumber 10 3 255 false s
      let (octets, s) ← readOctets (index + 1) left s
      return (octet :: octets, s)

def readIpv4Octets : Str → Option (List Nat × Str) := readOctets 0 4

/-- A group of an IPv6 address. -/
def readGroup (index : Nat) (s : Str) : Option (Nat × Str) :=
  (readSeparator ':' index s).bind (readNumber 16 4 65535 true)

/-- An IPv4 address in place of two groups. -/
def readEmbedded (index : Nat) (s : Str) : Option (List Nat × Str) := do
  let s ← readSeparator ':' index s
  let (octets, s) ← readIpv4Octets s
  return ([bigEndian 256 (octets.take 2), bigEndian 256 (octets.drop 2)], s)

/-- The groups from number `index` on, as many as there are, and whether they
end with an embedded IPv4 address, which needs the room of two groups. -/
def readGroups (index : Nat) : Nat → Str → List Nat × Bool × Str
  | 0, s => ([], false, s)
  | left + 1, s =>
      match if left = 0 then none else readEmbedded index s with
      | some (groups, rest) => (groups, true, rest)
      | none =>
          match readGroup index s with
          | none => ([], false, s)
          | some (group, rest) =>
              let (groups, embedded, rest) := readGroups (index + 1) left rest
              (group :: groups, embedded, rest)

/-- Eight groups, or a run of zero groups in place of the missing ones. -/
def readIpv6 (s : Str) : Option (List Nat × Str) :=
  let (head, embedded, rest) := readGroups 0 8 s
  if head.length = 8 then some (head, rest)
  else if embedded then none
  else
    match rest with
    | ':' :: ':' :: rest =>
        let (tail, _, rest) := readGroups 0 (7 - head.length) rest
        some (head ++ List.replicate (8 - head.length - tail.length) 0 ++ tail, rest)
    | _ => none

/-- `str::parse::<Ipv4Addr>`: the whole text is an address. -/
def parseIpv4 (s : Str) : Option Ipv4Addr :=
  if 15 < (utf8 s).length then none
  else
    match readIpv4Octets s with
    | some (octets, []) => some (Ipv4Addr.ofOctets octets)
    | _ => none

/-- `str::parse::<Ipv6Addr>`. -/
def parseIpv6 (s : Str) : Option Ipv6Addr :=
  match readIpv6 s with
  | some (groups, []) => some (Ipv6Addr.ofGroups groups)
  | _ => none

/-- An IPv4 address that is read is not looked at again as an IPv6 address. -/
def readIpAddr (s : Str) : Option (IpAddr × Str) :=
  match readIpv4Octets s with
  | some (octets, rest) => some (.v4 (Ipv4Addr.ofOctets octets), rest)
  | none => (readIpv6 s).map fun (groups, rest) => (.v6 (Ipv6Addr.ofGroups groups), rest)

/-- `str::parse::<IpAddr>`. -/
def parseIpAddr (s : Str) : Option IpAddr :=
  match readIpAddr s with
  | some (addr, []) => some addr
  | _ => none

/-! What a reader takes from the front of a text. -/

/-- `rest` stands behind a front part whose characters are all of a class. -/
def Consumes (P : Char → Prop) (s rest : Str) : Prop :=
  ∃ front : Str, s = front ++ rest ∧ ∀ c ∈ front, P c

namespace Consumes

variable {P Q : Char → Prop}

theorem refl (s : Str) : Consumes P s s := ⟨[], rfl, by simp⟩

theorem cons {c : Char} (h : P c) (rest : Str) : Consumes P (c :: rest) rest :=
  ⟨[c], rfl, by simpa using h⟩

theorem trans {s mid rest : Str} (hFirst : Consumes P s mid) (hSecond : Consumes P mid rest) :
    Consumes P s rest := by
  obtain ⟨front, rfl, hFront⟩ := hFirst
  obtain ⟨back, rfl, hBack⟩ := hSecond
  refine ⟨front ++ back, (List.append_assoc _ _ _).symm, fun c hc => ?_⟩
  rcases List.mem_append.mp hc with hc | hc
  · exact hFront c hc
  · exact hBack c hc

theorem mono (hPQ : ∀ c, P c → Q c) {s rest : Str} (h : Consumes P s rest) : Consumes Q s rest := by
  obtain ⟨front, hSplit, hFront⟩ := h
  exact ⟨front, hSplit, fun c hc => hPQ c (hFront c hc)⟩

theorem all {s : Str} (h : Consumes P s []) : ∀ c ∈ s, P c := by
  obtain ⟨front, rfl, hFront⟩ := h
  rwa [List.append_nil]

end Consumes

/-- The characters of an IPv4 address. -/
def IsIpv4Char (c : Char) : Prop := (toDigit 10 c).isSome = true ∨ c = '.'

/-- The characters of an IPv6 address, those of an embedded IPv4 address among them. -/
def IsIpv6Char (c : Char) : Prop := (toDigit 16 c).isSome = true ∨ c = ':' ∨ c = '.'

theorem lt_of_toDigit {radix : Nat} {c : Char} (h : (toDigit radix c).isSome = true) :
    c.toNat < 128 := by
  obtain ⟨digit, hDigit⟩ := Option.isSome_iff_exists.mp h
  rw [toDigit] at hDigit
  have hSome := (Option.filter_eq_some_iff.mp hDigit).1
  split_ifs at hSome with hDecimal hLower hUpper
  · simp only [Char.isDigit, Bool.and_eq_true, decide_eq_true_eq] at hDecimal
    exact Nat.lt_of_le_of_lt (UInt32.le_iff_toNat_le.mp hDecimal.2) (by decide)
  · exact Nat.lt_of_le_of_lt (UInt32.le_iff_toNat_le.mp hLower.2) (by decide)
  · exact Nat.lt_of_le_of_lt (UInt32.le_iff_toNat_le.mp hUpper.2) (by decide)

/-- A digit to a base is one to a larger base. -/
theorem isSome_toDigit_mono {radix wider : Nat} (hWider : radix ≤ wider) {c : Char}
    (h : (toDigit radix c).isSome = true) : (toDigit wider c).isSome = true := by
  obtain ⟨digit, hDigit⟩ := Option.isSome_iff_exists.mp h
  obtain ⟨hSome, hLess⟩ := Option.filter_eq_some_iff.mp hDigit
  have hFits : digit < wider := Nat.lt_of_lt_of_le (of_decide_eq_true hLess) hWider
  exact Option.isSome_iff_exists.mpr
    ⟨digit, Option.filter_eq_some_iff.mpr ⟨hSome, decide_eq_true hFits⟩⟩

theorem IsIpv4Char.ipv6 {c : Char} (h : IsIpv4Char c) : IsIpv6Char c := by
  rcases h with hDigit | hDot
  · exact Or.inl (isSome_toDigit_mono (by decide) hDigit)
  · exact Or.inr (Or.inr hDot)

theorem IsIpv6Char.lt {c : Char} (h : IsIpv6Char c) : c.toNat < 128 := by
  rcases h with hDigit | rfl | rfl
  · exact lt_of_toDigit hDigit
  · decide
  · decide

theorem readNumber_consumes {radix maxDigits bound value : Nat} {allowZeroPrefix : Bool}
    {s rest : Str} (h : readNumber radix maxDigits bound allowZeroPrefix s = some (value, rest)) :
    Consumes (fun c => (toDigit radix c).isSome = true) s rest := by
  simp only [readNumber] at h
  split_ifs at h
  cases h
  refine ⟨s.takeWhile fun c => (toDigit radix c).isSome, ?_, ?_⟩
  · exact (List.prefix_iff_eq_append.mp (List.takeWhile_prefix _)).symm
  · intro c hc
    exact List.mem_takeWhile_imp (p := fun c => (toDigit radix c).isSome) hc

theorem readSeparator_consumes {separator : Char} {index : Nat} {s rest : Str}
    (h : readSeparator separator index s = some rest) : Consumes (· = separator) s rest := by
  unfold readSeparator at h
  split_ifs at h
  · cases h
    exact .refl s
  · cases s with
    | nil => cases h
    | cons c tail =>
        obtain ⟨rfl, hRest⟩ := Option.ite_none_right_eq_some.mp h
        cases hRest
        exact .cons (P := (· = c)) rfl _

theorem readOctets_consumes {index left : Nat} {s rest : Str} {octets : List Nat}
    (h : readOctets index left s = some (octets, rest)) : Consumes IsIpv4Char s rest := by
  induction left generalizing index s octets with
  | zero =>
      cases h
      exact .refl _
  | succ left ih =>
      simp only [readOctets, Option.bind_eq_bind, Option.bind_eq_some_iff, Prod.exists] at h
      obtain ⟨behind, hSeparator, octet, afterOctet, hOctet, others, last, hOthers, hPure⟩ := h
      cases hPure
      exact ((readSeparator_consumes hSeparator).mono fun _ => Or.inr).trans
        (((readNumber_consumes hOctet).mono fun _ => Or.inl).trans (ih hOthers))

theorem readGroup_consumes {index group : Nat} {s rest : Str}
    (h : readGroup index s = some (group, rest)) : Consumes IsIpv6Char s rest := by
  obtain ⟨behind, hSeparator, hNumber⟩ := Option.bind_eq_some_iff.mp h
  exact ((readSeparator_consumes hSeparator).mono fun _ hColon => Or.inr (Or.inl hColon)).trans
    ((readNumber_consumes hNumber).mono fun _ => Or.inl)

theorem readEmbedded_eq_some {index : Nat} {s rest : Str} {groups : List Nat}
    (h : readEmbedded index s = some (groups, rest)) :
    groups.length = 2 ∧ ∃ behind, readSeparator ':' index s = some behind ∧
      Consumes IsIpv4Char behind rest := by
  simp only [readEmbedded, Option.bind_eq_bind, Option.bind_eq_some_iff, Prod.exists] at h
  obtain ⟨behind, hSeparator, octets, afterOctets, hOctets, hPure⟩ := h
  cases hPure
  exact ⟨rfl, behind, hSeparator, readOctets_consumes hOctets⟩

theorem readEmbedded_consumes {index : Nat} {s rest : Str} {groups : List Nat}
    (h : readEmbedded index s = some (groups, rest)) : Consumes IsIpv6Char s rest := by
  obtain ⟨-, behind, hSeparator, hOctets⟩ := readEmbedded_eq_some h
  exact ((readSeparator_consumes hSeparator).mono fun _ hColon => Or.inr (Or.inl hColon)).trans
    (hOctets.mono fun _ => IsIpv4Char.ipv6)

/-- What one turn of the reader of groups does. -/
theorem readGroups_succ (index left : Nat) (s : Str) :
    (∃ groups rest, readEmbedded index s = some (groups, rest) ∧
      readGroups index (left + 1) s = (groups, true, rest)) ∨
    readGroups index (left + 1) s = ([], false, s) ∨
    ∃ group rest, readGroup index s = some (group, rest) ∧
      readGroups index (left + 1) s =
        (group :: (readGroups (index + 1) left rest).1, (readGroups (index + 1) left rest).2) := by
  rw [readGroups]
  cases hEmbedded : if left = 0 then none else readEmbedded index s with
  | some found => exact Or.inl ⟨_, _, (Option.ite_none_left_eq_some.mp hEmbedded).2, rfl⟩
  | none =>
      cases hGroup : readGroup index s with
      | none => exact Or.inr (Or.inl rfl)
      | some found => exact Or.inr (Or.inr ⟨_, _, rfl, rfl⟩)

theorem readGroups_consumes (index left : Nat) (s : Str) :
    Consumes IsIpv6Char s (readGroups index left s).2.2 := by
  induction left generalizing index s with
  | zero => exact .refl s
  | succ left ih =>
      rcases readGroups_succ index left s with
        ⟨groups, rest, hEmbedded, hTurn⟩ | hTurn | ⟨group, rest, hGroup, hTurn⟩
      · rw [hTurn]
        exact readEmbedded_consumes hEmbedded
      · rw [hTurn]
        exact .refl s
      · rw [hTurn]
        exact (readGroup_consumes hGroup).trans (ih (index + 1) rest)

theorem readIpv6_consumes {s rest : Str} {groups : List Nat} (h : readIpv6 s = some (groups, rest)) :
    Consumes IsIpv6Char s rest := by
  have hHead := readGroups_consumes 0 8 s
  simp only [readIpv6] at h
  split_ifs at h
  · cases h
    exact hHead
  · split at h
    · rename_i behind hBehind
      cases h
      rw [hBehind] at hHead
      have hColon : IsIpv6Char ':' := Or.inr (Or.inl rfl)
      exact hHead.trans ((Consumes.cons hColon _).trans
        ((Consumes.cons hColon _).trans (readGroups_consumes _ _ _)))
    · cases h

theorem parseIpv4_chars {s : Str} {addr : Ipv4Addr} (h : parseIpv4 s = some addr) :
    ∀ c ∈ s, IsIpv4Char c := by
  rw [parseIpv4] at h
  split_ifs at h
  split at h
  · rename_i octets hOctets
    exact (readOctets_consumes hOctets).all
  · cases h

theorem parseIpv6_chars {s : Str} {addr : Ipv6Addr} (h : parseIpv6 s = some addr) :
    ∀ c ∈ s, IsIpv6Char c := by
  rw [parseIpv6] at h
  split at h
  · rename_i groups hGroups
    exact (readIpv6_consumes hGroups).all
  · cases h

theorem parseIpv4_ascii {s : Str} {addr : Ipv4Addr} (h : parseIpv4 s = some addr) :
    ∀ c ∈ s, c.toNat < 128 := fun c hc => (parseIpv4_chars h c hc).ipv6.lt

theorem parseIpv6_ascii {s : Str} {addr : Ipv6Addr} (h : parseIpv6 s = some addr) :
    ∀ c ∈ s, c.toNat < 128 := fun c hc => (parseIpv6_chars h c hc).lt

/-! The colons of an IPv6 address. -/

theorem Consumes.count_le {P : Char → Prop} {s rest : Str} (h : Consumes P s rest) (c : Char) :
    rest.count c ≤ s.count c := by
  obtain ⟨front, rfl, -⟩ := h
  rw [List.count_append]
  exact Nat.le_add_left _ _

/-- Every separator but the one in front of the first part counts. -/
theorem readSeparator_count {separator : Char} {index : Nat} {s rest : Str}
    (h : readSeparator separator index s = some rest) :
    rest.count separator + (if index = 0 then 0 else 1) = s.count separator := by
  unfold readSeparator at h
  split_ifs at h with hFirst
  · cases h
    rw [if_pos hFirst, Nat.add_zero]
  · cases s with
    | nil => cases h
    | cons c tail =>
        obtain ⟨rfl, hRest⟩ := Option.ite_none_right_eq_some.mp h
        cases hRest
        rw [if_neg hFirst, List.count_cons_self]

theorem readGroups_count (index left : Nat) (s : Str) :
    (readGroups index left s).1.length + (readGroups index left s).2.2.count ':' ≤
      s.count ':' + 1 + if index = 0 then 1 else 0 := by
  induction left generalizing index s with
  | zero => simp only [readGroups, List.length_nil]; omega
  | succ left ih =>
      rcases readGroups_succ index left s with
        ⟨groups, rest, hEmbedded, hTurn⟩ | hTurn | ⟨group, rest, hGroup, hTurn⟩
      · obtain ⟨hTwo, behind, hSeparator, hOctets⟩ := readEmbedded_eq_some hEmbedded
        have hSeparator := readSeparator_count hSeparator
        have hOctets := hOctets.count_le ':'
        rw [hTurn]
        split_ifs at hSeparator ⊢ <;> dsimp only <;> omega
      · rw [hTurn]
        simp only [List.length_nil]
        omega
      · obtain ⟨behind, hSeparator, hNumber⟩ := Option.bind_eq_some_iff.mp hGroup
        have hSeparator := readSeparator_count hSeparator
        have hNumber := (readNumber_consumes hNumber).count_le ':'
        have hOthers := ih (index + 1) rest
        rw [if_neg (Nat.succ_ne_zero index)] at hOthers
        rw [hTurn, List.length_cons]
        split_ifs at hSeparator ⊢ <;> dsimp only <;> omega

theorem colons_of_parseIpv6 {s : Str} {addr : Ipv6Addr} (h : parseIpv6 s = some addr) :
    2 ≤ s.count ':' := by
  have hHead := readGroups_count 0 8 s
  rw [if_pos rfl] at hHead
  have hConsumed := (readGroups_consumes 0 8 s).count_le ':'
  rw [parseIpv6] at h
  split at h
  · rename_i groups hGroups
    simp only [readIpv6] at hGroups
    split_ifs at hGroups with hFull
    · omega
    · split at hGroups
      · rename_i behind hBehind
        rw [hBehind, List.count_cons_self, List.count_cons_self] at hConsumed
        omega
      · cases hGroups
  · cases h

theorem colon_not_mem_of_parseIpv4 {s : Str} {addr : Ipv4Addr} (h : parseIpv4 s = some addr) :
    ':' ∉ s := by
  intro hMem
  rcases parseIpv4_chars h ':' hMem with hDigit | hDot
  · exact absurd hDigit (by decide)
  · exact absurd hDot (by decide)

end Rust
