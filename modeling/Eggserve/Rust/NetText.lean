import Mathlib.Data.Nat.ModEq
import Eggserve.Rust.Net

/-! The text that the standard library prints for an IP address. Its parsers read the
address back. -/
namespace Rust

/-- The lowest digits of a number to a base, the lowest one last. -/
def beDigits (base : Nat) : Nat → Nat → List Nat
  | 0, _ => []
  | count + 1, n => beDigits base count (n / base) ++ [n % base]

@[simp] theorem length_beDigits (base count n : Nat) : (beDigits base count n).length = count := by
  induction count generalizing n with
  | zero => rfl
  | succ count ih => simp [beDigits, ih]

theorem bigEndian_concat (base : Nat) (digits : List Nat) (digit : Nat) :
    bigEndian base (digits ++ [digit]) = bigEndian base digits * base + digit := by
  simp [bigEndian]

theorem bigEndian_beDigits (base count n : Nat) :
    bigEndian base (beDigits base count n) = n % base ^ count := by
  induction count generalizing n with
  | zero => simp [beDigits, bigEndian, Nat.mod_one]
  | succ count ih =>
      rw [beDigits, bigEndian_concat, ih, Nat.pow_succ, Nat.mul_comm (base ^ count), Nat.mod_mul,
        Nat.mul_comm base, Nat.add_comm]

theorem lt_of_mem_beDigits {base : Nat} (hBase : 0 < base) {count n digit : Nat}
    (h : digit ∈ beDigits base count n) : digit < base := by
  induction count generalizing n with
  | zero => cases h
  | succ count ih =>
      rcases List.mem_append.mp h with hFront | hLast
      · exact ih hFront
      · rw [List.mem_singleton.mp hLast]
        exact Nat.mod_lt _ hBase

theorem bigEndian_lt {base : Nat} {digits : List Nat} (h : ∀ digit ∈ digits, digit < base) :
    bigEndian base digits < base ^ digits.length := by
  induction digits using List.reverseRecOn with
  | nil => simp [bigEndian]
  | append_singleton digits digit ih =>
      have hFront := ih fun digit hMember => h digit (List.mem_append_left _ hMember)
      have hLast := h digit (List.mem_append_right _ List.mem_cons_self)
      rw [bigEndian_concat, List.length_append, List.length_singleton, Nat.pow_succ]
      calc bigEndian base digits * base + digit
          < bigEndian base digits * base + base := Nat.add_lt_add_left hLast _
        _ = (bigEndian base digits + 1) * base := (Nat.succ_mul _ _).symm
        _ ≤ base ^ digits.length * base := Nat.mul_le_mul_right _ hFront

theorem beDigits_bigEndian {base : Nat} {digits : List Nat} (h : ∀ digit ∈ digits, digit < base) :
    beDigits base digits.length (bigEndian base digits) = digits := by
  induction digits using List.reverseRecOn with
  | nil => rfl
  | append_singleton digits digit ih =>
      have hFront := ih fun digit hMember => h digit (List.mem_append_left _ hMember)
      have hLast := h digit (List.mem_append_right _ List.mem_cons_self)
      have hBase : 0 < base := by omega
      rw [bigEndian_concat, List.length_append, List.length_singleton, beDigits,
        Nat.mul_comm, Nat.mul_add_div hBase, Nat.div_eq_of_lt hLast, Nat.add_zero, hFront,
        Nat.mul_add_mod, Nat.mod_eq_of_lt hLast]

def Ipv4Addr.octets (addr : Ipv4Addr) : List Nat := beDigits 256 4 addr.bits.toNat

def Ipv6Addr.segments (addr : Ipv6Addr) : List Nat := beDigits 65536 8 addr.bits.toNat

theorem Ipv4Addr.ofOctets_octets (addr : Ipv4Addr) : Ipv4Addr.ofOctets addr.octets = addr := by
  have hLt : addr.bits.toNat < 256 ^ 4 := addr.bits.isLt
  rw [Ipv4Addr.ofOctets, Ipv4Addr.octets, bigEndian_beDigits, Nat.mod_eq_of_lt hLt,
    BitVec.ofNat_toNat, BitVec.setWidth_eq]

theorem Ipv4Addr.octets_ofOctets {octets : List Nat} (hLength : octets.length = 4)
    (h : ∀ octet ∈ octets, octet < 256) : (Ipv4Addr.ofOctets octets).octets = octets := by
  have hLt : bigEndian 256 octets < 2 ^ 32 := by
    have := bigEndian_lt h
    rwa [hLength] at this
  have hDigits := beDigits_bigEndian h
  rw [hLength] at hDigits
  rw [Ipv4Addr.ofOctets, Ipv4Addr.octets, BitVec.toNat_ofNat, Nat.mod_eq_of_lt hLt, hDigits]

theorem Ipv6Addr.ofGroups_segments (addr : Ipv6Addr) : Ipv6Addr.ofGroups addr.segments = addr := by
  have hLt : addr.bits.toNat < 65536 ^ 8 := addr.bits.isLt
  rw [Ipv6Addr.ofGroups, Ipv6Addr.segments, bigEndian_beDigits, Nat.mod_eq_of_lt hLt,
    BitVec.ofNat_toNat, BitVec.setWidth_eq]

/-- Parts of a text from number `index` on; a separator stands in front of every part
but the first. -/
def joinFrom (separator : Char) (text : Nat → Str) (index : Nat) : List Nat → Str
  | [] => []
  | part :: rest =>
      (if index = 0 then [] else [separator]) ++ text part ++
        joinFrom separator text (index + 1) rest

/-- The format `{:x}`. -/
def lowerHex (n : Nat) : Str := Nat.toDigits 16 n

def Ipv4Addr.display (addr : Ipv4Addr) : Str := joinFrom '.' decimal 0 addr.octets

def fmtSubslice (chunk : List Nat) : Str := joinFrom ':' lowerHex 0 chunk

/-- A run of groups. -/
structure Span where
  start : Nat
  len : Nat
  deriving DecidableEq

/-- The first of the longest runs of zero groups: what has been found, and the run that
ends at the group in front of `index`. -/
def longestZeroes (index : Nat) (longest current : Span) : List Nat → Span
  | [] => longest
  | segment :: rest =>
      if segment = 0 then
        let current : Span := ⟨if current.len = 0 then index else current.start, current.len + 1⟩
        longestZeroes (index + 1) (if longest.len < current.len then current else longest) current
          rest
      else longestZeroes (index + 1) longest ⟨0, 0⟩ rest

/-- The IPv4 address that the last two groups stand for behind `::ffff:`. -/
def Ipv6Addr.toIpv4Mapped (addr : Ipv6Addr) : Option Ipv4Addr :=
  match addr.segments with
  | [0, 0, 0, 0, 0, 0xffff, high, low] =>
      some (Ipv4Addr.ofOctets (beDigits 256 2 high ++ beDigits 256 2 low))
  | _ => none

def Ipv6Addr.display (addr : Ipv6Addr) : Str :=
  match addr.toIpv4Mapped with
  | some mapped => ("::ffff:" : Str) ++ mapped.display
  | none =>
      let segments := addr.segments
      let zeroes := longestZeroes 0 ⟨0, 0⟩ ⟨0, 0⟩ segments
      if 1 < zeroes.len then
        fmtSubslice (segments.take zeroes.start) ++ ("::" : Str) ++
          fmtSubslice (segments.drop (zeroes.start + zeroes.len))
      else fmtSubslice segments

def IpAddr.display : IpAddr → Str
  | v4 addr => addr.display
  | v6 addr => addr.display

/-! Numbers are read back. -/

/-- The text goes on with something that is no digit. -/
def NoDigit (radix : Nat) (rest : Str) : Prop := ∀ c ∈ rest.head?, toDigit radix c = none

theorem toDigit_digitChar {radix d : Nat} (hRadix : radix ≤ 16) (h : d < radix) :
    toDigit radix d.digitChar = some d := by
  have hDigits : ∀ d < 16, toDigit 16 d.digitChar = some d := by decide +kernel
  have hAny := Option.filter_eq_some_iff.mp (hDigits d (h.trans_le hRadix))
  exact Option.filter_eq_some_iff.mpr ⟨hAny.1, decide_eq_true h⟩

theorem bigEndian_toDigits {radix : Nat} (hLow : 1 < radix) (hRadix : radix ≤ 16) (n : Nat) :
    (∀ c ∈ Nat.toDigits radix n, (toDigit radix c).isSome = true) ∧
      bigEndian radix ((Nat.toDigits radix n).filterMap (toDigit radix)) = n := by
  induction n using Nat.strongRecOn with
  | ind n ih =>
      by_cases hSmall : n < radix
      · rw [Nat.toDigits_of_lt_base hSmall]
        simp [toDigit_digitChar hRadix hSmall, bigEndian]
      · have hMod := toDigit_digitChar hRadix (Nat.mod_lt n (by omega : 0 < radix))
        obtain ⟨hDigits, hValue⟩ := ih (n / radix) (Nat.div_lt_self (by omega) hLow)
        rw [Nat.toDigits_of_base_le hLow (Nat.not_lt.mp hSmall)]
        constructor
        · intro c hc
          rcases List.mem_append.mp hc with hFront | hLast
          · exact hDigits c hFront
          · rw [List.mem_singleton.mp hLast, hMod]
            rfl
        · rw [List.filterMap_append, List.filterMap_cons_some hMod, List.filterMap_nil,
            bigEndian_concat, hValue, Nat.mul_comm, Nat.div_add_mod]

theorem head_toDigits {radix : Nat} (hLow : 1 < radix) (hRadix : radix ≤ 16) {n : Nat}
    (h : (Nat.toDigits radix n).head? = some '0') : n = 0 := by
  induction n using Nat.strongRecOn with
  | ind n ih =>
      by_cases hSmall : n < radix
      · rw [Nat.toDigits_of_lt_base hSmall] at h
        have hDigit := toDigit_digitChar hRadix hSmall
        have hChar : n.digitChar = '0' := Option.some.inj h
        rw [hChar] at hDigit
        have hZero := toDigit_digitChar hRadix (by omega : 0 < radix)
        exact Option.some.inj (hDigit.symm.trans hZero)
      · rw [Nat.toDigits_of_base_le hLow (Nat.not_lt.mp hSmall), List.head?_append_of_ne_nil _
          Nat.toDigits_ne_nil] at h
        have hZero := ih (n / radix) (Nat.div_lt_self (by omega) hLow) h
        have := Nat.div_eq_zero_iff.mp hZero
        omega

/-- A number in its shortest text is read back. -/
theorem readNumber_toDigits {radix maxDigits bound n : Nat} (hLow : 1 < radix)
    (hRadix : radix ≤ 16) (allowZeroPrefix : Bool) (hBound : n ≤ bound) (hMax : 0 < maxDigits)
    (hDigits : n < radix ^ maxDigits) {rest : Str} (hRest : NoDigit radix rest) :
    readNumber radix maxDigits bound allowZeroPrefix (Nat.toDigits radix n ++ rest) =
      some (n, rest) := by
  obtain ⟨hAll, hValue⟩ := bigEndian_toDigits hLow hRadix n
  have hTake : (Nat.toDigits radix n ++ rest).takeWhile (fun c => (toDigit radix c).isSome) =
      Nat.toDigits radix n := by
    rw [List.takeWhile_append_of_pos hAll]
    cases rest with
    | nil => simp
    | cons c tail =>
        have hNone : toDigit radix c = none := hRest c rfl
        simp [hNone]
  have hLength : (Nat.toDigits radix n).length ≤ maxDigits :=
    (Nat.length_toDigits_le_iff hLow hMax).mpr hDigits
  have hSome : (Nat.toDigits radix n).isEmpty = false := by simp
  have hZero : ¬((Nat.toDigits radix n).head? = some '0' ∧ 1 < (Nat.toDigits radix n).length) := by
    rintro ⟨hHead, hLong⟩
    rw [head_toDigits hLow hRadix hHead, Nat.toDigits_zero] at hLong
    simp at hLong
  simp only [readNumber, hTake, hValue, hSome]
  rw [if_neg (by simp; omega), if_neg (by tauto), List.drop_left]

theorem readSeparator_join (separator : Char) (index : Nat) (s : Str) :
    readSeparator separator index ((if index = 0 then [] else [separator]) ++ s) = some s := by
  unfold readSeparator
  by_cases hFirst : index = 0
  · simp [hFirst]
  · simp [hFirst]

/-- Behind the first part the text goes on with a separator, if it goes on. -/
theorem noDigit_joinFrom {radix : Nat} {separator : Char} (hSeparator : toDigit radix separator = none)
    (text : Nat → Str) (index : Nat) (parts : List Nat) {rest : Str} (hRest : NoDigit radix rest) :
    NoDigit radix (joinFrom separator text (index + 1) parts ++ rest) := by
  cases parts with
  | nil => exact hRest
  | cons part parts =>
      intro c hc
      obtain rfl : separator = c := by simpa [joinFrom] using hc
      exact hSeparator

/-! IPv4. -/

theorem readOctets_joinFrom {octets : List Nat} (hOctets : ∀ octet ∈ octets, octet < 256)
    (index : Nat) {rest : Str} (hRest : NoDigit 10 rest) :
    readOctets index octets.length (joinFrom '.' decimal index octets ++ rest) =
      some (octets, rest) := by
  induction octets generalizing index with
  | nil => rfl
  | cons octet octets ih =>
      have hBehind := @noDigit_joinFrom 10 '.' (by decide) decimal index octets rest hRest
      have hFits := hOctets octet List.mem_cons_self
      have hNumber := readNumber_toDigits (by decide : 1 < 10) (by decide) false
        (Nat.le_of_lt_succ hFits) (by decide : 0 < 3) (by omega) hBehind
      have hOthers := ih (fun octet hMember => hOctets octet (List.mem_cons_of_mem _ hMember))
        (index + 1)
      rw [joinFrom, List.append_assoc, List.append_assoc, List.length_cons, readOctets,
        readSeparator_join, Option.bind_eq_bind, Option.bind_some, decimal, hNumber]
      simp only [Option.bind_eq_bind, Option.bind_some, hOthers, Option.pure_def]

theorem Ipv4Addr.octets_lt (addr : Ipv4Addr) : ∀ octet ∈ addr.octets, octet < 256 :=
  fun _ hOctet => lt_of_mem_beDigits (by decide) hOctet

theorem readIpv4Octets_display (addr : Ipv4Addr) {rest : Str} (hRest : NoDigit 10 rest) :
    readIpv4Octets (addr.display ++ rest) = some (addr.octets, rest) := by
  have hRead := readOctets_joinFrom addr.octets_lt 0 hRest
  rwa [Ipv4Addr.octets, length_beDigits] at hRead

/-- A text of ASCII in octets. -/
theorem utf8_of_ascii {s : Str} (h : ∀ c ∈ s, c.toNat < 128) :
    utf8 s = s.map fun c => UInt8.ofNat c.toNat := by
  induction s with
  | nil => rfl
  | cons c s ih =>
      have hRest := ih fun d hd => h d (List.mem_cons_of_mem _ hd)
      rw [utf8] at hRest ⊢
      rw [List.flatMap_cons, utf8EncodeChar_ascii (h c List.mem_cons_self), hRest]
      rfl

/-- A part is at most `width` octets of ASCII, and so is the separator before it. -/
theorem length_joinFrom_le {separator : Char} {text : Nat → Str} {width : Nat}
    {parts : List Nat} (hParts : ∀ part ∈ parts, (text part).length ≤ width) (index : Nat) :
    (joinFrom separator text (index + 1) parts).length ≤ (width + 1) * parts.length := by
  induction parts generalizing index with
  | nil => simp [joinFrom]
  | cons part parts ih =>
      have hPart := hParts part List.mem_cons_self
      have hRest := ih (fun part hMember => hParts part (List.mem_cons_of_mem _ hMember)) (index + 1)
      simp only [joinFrom, Nat.add_eq_zero_iff, Nat.one_ne_zero, and_false, ↓reduceIte,
        List.length_append, List.length_cons, List.length_nil]
      rw [Nat.mul_succ]
      omega

theorem length_joinFrom_zero_le {separator : Char} {text : Nat → Str} {width : Nat}
    {parts : List Nat} (hParts : ∀ part ∈ parts, (text part).length ≤ width) :
    (joinFrom separator text 0 parts).length ≤ (width + 1) * parts.length - 1 := by
  cases parts with
  | nil => simp [joinFrom]
  | cons part parts =>
      have hPart := hParts part List.mem_cons_self
      have hRest := @length_joinFrom_le separator text width parts
        (fun part hMember => hParts part (List.mem_cons_of_mem _ hMember)) 0
      simp only [joinFrom, ↓reduceIte, List.nil_append, List.length_append, List.length_cons]
      rw [Nat.mul_succ]
      omega

theorem Ipv4Addr.length_display_le (addr : Ipv4Addr) : addr.display.length ≤ 15 := by
  have hParts : ∀ octet ∈ addr.octets, (decimal octet).length ≤ 3 := by
    intro octet hOctet
    have hFits := addr.octets_lt octet hOctet
    exact (Nat.length_toDigits_le_iff (by decide) (by decide)).mpr (by omega)
  have hLength := @length_joinFrom_zero_le '.' decimal 3 addr.octets hParts
  rwa [Ipv4Addr.octets, length_beDigits] at hLength

theorem parseIpv4_display (addr : Ipv4Addr) : parseIpv4 addr.display = some addr := by
  have hRead := @readIpv4Octets_display addr [] fun c hc => by cases hc
  rw [List.append_nil] at hRead
  have hAscii : ∀ c ∈ addr.display, c.toNat < 128 := fun c hc =>
    ((readOctets_consumes hRead).all c hc).ipv6.lt
  rw [parseIpv4, utf8_of_ascii hAscii, List.length_map, if_neg (Nat.not_lt.mpr addr.length_display_le), hRead]
  exact congrArg some addr.ofOctets_octets

/-! IPv6. -/

/-- An IPv4 address has a dot. -/
theorem readIpv4Octets_eq_none {s : Str} (h : '.' ∉ s) : readIpv4Octets s = none := by
  cases hRead : readIpv4Octets s with
  | none => rfl
  | some found =>
      simp only [readIpv4Octets, readOctets, Option.bind_eq_bind, Option.bind_eq_some_iff,
        Prod.exists] at hRead
      obtain ⟨first, hFirst, octet, behind, hOctet, octets, last, ⟨second, hSecond, _⟩, _⟩ := hRead
      have hSuffix : behind <:+ first := by
        simp only [readNumber] at hOctet
        split_ifs at hOctet
        cases hOctet
        exact List.drop_suffix _ _
      obtain rfl : s = first := by simpa [readSeparator] using hFirst
      cases behind with
      | nil => simp [readSeparator] at hSecond
      | cons c tail =>
          obtain ⟨rfl, _⟩ : c = '.' ∧ tail = second := by simpa [readSeparator] using hSecond
          exact absurd (hSuffix.subset List.mem_cons_self) h

theorem readEmbedded_eq_none (index : Nat) {s : Str} (h : '.' ∉ s) : readEmbedded index s = none := by
  unfold readEmbedded
  cases hSeparator : readSeparator ':' index s with
  | none => rfl
  | some behind =>
      have hDot : '.' ∉ behind := by
        unfold readSeparator at hSeparator
        split_ifs at hSeparator
        · exact Option.some.inj hSeparator ▸ h
        · cases s with
          | nil => cases hSeparator
          | cons c tail =>
              obtain ⟨rfl, rfl⟩ : c = ':' ∧ tail = behind := by simpa using hSeparator
              exact fun hMember => h (List.mem_cons_of_mem _ hMember)
      simp [readIpv4Octets_eq_none hDot]

theorem readNumber_eq_none {radix maxDigits bound : Nat} {allowZeroPrefix : Bool} {s : Str}
    (h : NoDigit radix s) : readNumber radix maxDigits bound allowZeroPrefix s = none := by
  have hNone : s.takeWhile (fun c => (toDigit radix c).isSome) = [] := by
    cases s with
    | nil => rfl
    | cons c tail =>
        have hc : toDigit radix c = none := h c rfl
        simp [hc]
  simp [readNumber, hNone]

theorem readIpv4Octets_noDigit {s : Str} (h : NoDigit 10 s) : readIpv4Octets s = none := by
  have hNumber := @readNumber_eq_none 10 3 255 false s h
  simp [readIpv4Octets, readOctets, readSeparator, hNumber]

theorem readEmbedded_noDigit {s : Str} (h : NoDigit 10 s) : readEmbedded 0 s = none := by
  simp [readEmbedded, readSeparator, readIpv4Octets_noDigit h]

/-- No further group is at the front: the text is at its end or at a gap. -/
def AtGap (rest : Str) : Prop := rest = [] ∨ ∃ behind, rest = ':' :: ':' :: behind

theorem AtGap.noDigit {rest : Str} (h : AtGap rest) : NoDigit 16 rest := by
  rcases h with rfl | ⟨behind, rfl⟩
  · intro c hc
    cases hc
  · intro c hc
    obtain rfl : ':' = c := by simpa using hc
    decide

theorem AtGap.readGroup {rest : Str} (h : AtGap rest) (index : Nat) : readGroup index rest = none := by
  rcases h with rfl | ⟨behind, rfl⟩
  · by_cases hFirst : index = 0
    · subst hFirst
      rfl
    · simp [Rust.readGroup, readSeparator, hFirst]
  · have hColon : ∀ tail : Str, NoDigit 16 (':' :: tail) := by
      intro tail c hc
      obtain rfl : ':' = c := by simpa using hc
      decide
    by_cases hFirst : index = 0
    · subst hFirst
      show readNumber 16 4 65535 true (':' :: ':' :: behind) = none
      exact readNumber_eq_none (hColon _)
    · simp [Rust.readGroup, readSeparator, hFirst, readNumber_eq_none (hColon _)]

/-- Groups up to a gap are read back. -/
theorem readGroups_joinFrom {groups : List Nat} (hGroups : ∀ group ∈ groups, group < 65536)
    {index left : Nat} (hLeft : groups.length ≤ left) {rest : Str} (hRest : AtGap rest)
    (hDot : '.' ∉ joinFrom ':' lowerHex index groups ++ rest) :
    readGroups index left (joinFrom ':' lowerHex index groups ++ rest) = (groups, false, rest) := by
  induction groups generalizing index left with
  | nil =>
      cases left with
      | zero => rfl
      | succ left =>
          have hNone : (if left = 0 then none else readEmbedded index rest) = none := by
            split_ifs
            · rfl
            · exact readEmbedded_eq_none index hDot
          rw [joinFrom, List.nil_append, readGroups, hNone, hRest.readGroup index]
  | cons group groups ih =>
      cases left with
      | zero => simp at hLeft
      | succ left =>
          have hNone : (if left = 0 then none else
              readEmbedded index (joinFrom ':' lowerHex index (group :: groups) ++ rest)) = none := by
            split_ifs
            · rfl
            · exact readEmbedded_eq_none index hDot
          have hFits := hGroups group List.mem_cons_self
          have hBehind := @noDigit_joinFrom 16 ':' (by decide) lowerHex index groups rest
            hRest.noDigit
          have hNumber := readNumber_toDigits (by decide : 1 < 16) (by decide) true
            (Nat.le_of_lt_succ hFits) (by decide : 0 < 4) (by omega) hBehind
          have hGroup : readGroup index (joinFrom ':' lowerHex index (group :: groups) ++ rest) =
              some (group, joinFrom ':' lowerHex (index + 1) groups ++ rest) := by
            rw [joinFrom, List.append_assoc, List.append_assoc, readGroup, readSeparator_join]
            exact hNumber
          have hTail : '.' ∉ joinFrom ':' lowerHex (index + 1) groups ++ rest := by
            intro hMember
            refine hDot ?_
            rw [joinFrom, List.append_assoc, List.append_assoc]
            exact List.mem_append_right _ (List.mem_append_right _ hMember)
          have hOthers := ih (fun group hMember => hGroups group (List.mem_cons_of_mem _ hMember))
            (Nat.le_of_succ_le_succ hLeft) hTail
          rw [readGroups, hNone, hGroup]
          simp only [hOthers]

/-- The span covers zero groups of the list. -/
def Span.Zero (segments : List Nat) (span : Span) : Prop :=
  span.start + span.len ≤ segments.length ∧
    (segments.drop span.start).take span.len = List.replicate span.len 0

/-- The run that is found is one of zero groups. The run at hand ends where the walk is. -/
theorem longestZeroes_zero {segments front rest : List Nat} (hSplit : segments = front ++ rest)
    {longest current : Span} (hLongest : longest.Zero segments) (hCurrent : current.Zero segments)
    (hEnd : current.len = 0 ∨ current.start + current.len = front.length) :
    (longestZeroes front.length longest current rest).Zero segments := by
  induction rest generalizing front longest current with
  | nil => exact hLongest
  | cons segment rest ih =>
      have hNext : segments = (front ++ [segment]) ++ rest := by simpa using hSplit
      have hLength : (front ++ [segment]).length = front.length + 1 := by simp
      by_cases hZero : segment = 0
      · subst hZero
        rw [longestZeroes, if_pos rfl, ← hLength]
        generalize hStart : (if current.len = 0 then front.length else current.start) = start
        have hRun : start + current.len = front.length ∧
            (segments.drop start).take current.len = List.replicate current.len 0 := by
          by_cases hNone : current.len = 0
          · rw [if_pos hNone] at hStart
            simp [hNone, ← hStart]
          · rw [if_neg hNone] at hStart
            exact ⟨hStart ▸ hEnd.resolve_left hNone, hStart ▸ hCurrent.2⟩
        have hLast : (segments.drop start)[current.len]? = some 0 := by
          rw [List.getElem?_drop, hRun.1, hSplit]
          simp
        have hExtended : Span.Zero segments ⟨start, current.len + 1⟩ := by
          constructor
          · have hTotal := congrArg List.length hSplit
            simp only [List.length_append, List.length_cons] at hTotal
            dsimp only
            omega
          · rw [List.take_add_one, hRun.2, hLast, List.replicate_succ']
            rfl
        refine ih hNext ?_ hExtended (.inr (by dsimp only; omega))
        split_ifs
        · exact hExtended
        · exact hLongest
      · rw [longestZeroes, if_neg hZero, ← hLength]
        exact ih hNext hLongest ⟨Nat.zero_le _, rfl⟩ (.inl rfl)

theorem Ipv6Addr.longestZeroes_segments (addr : Ipv6Addr) :
    (longestZeroes 0 ⟨0, 0⟩ ⟨0, 0⟩ addr.segments).Zero addr.segments :=
  @longestZeroes_zero addr.segments [] addr.segments rfl ⟨0, 0⟩ ⟨0, 0⟩ ⟨Nat.zero_le _, rfl⟩
    ⟨Nat.zero_le _, rfl⟩ (.inl rfl)

theorem Ipv6Addr.segments_lt (addr : Ipv6Addr) : ∀ segment ∈ addr.segments, segment < 65536 :=
  fun _ hSegment => lt_of_mem_beDigits (by decide) hSegment

theorem not_mem_joinFrom {c separator : Char} {text : Nat → Str} {parts : List Nat}
    (hSeparator : c ≠ separator) (hParts : ∀ part ∈ parts, c ∉ text part) (index : Nat) :
    c ∉ joinFrom separator text index parts := by
  induction parts generalizing index with
  | nil => simp [joinFrom]
  | cons part parts ih =>
      have hRest := ih (fun part hMember => hParts part (List.mem_cons_of_mem _ hMember)) (index + 1)
      have hPart := hParts part List.mem_cons_self
      rw [joinFrom]
      split_ifs <;> simp [hSeparator, hPart, hRest]

theorem dot_not_mem_lowerHex (n : Nat) : '.' ∉ lowerHex n := by
  intro hDot
  have hDigit := (bigEndian_toDigits (by decide : 1 < 16) (by decide) n).1 _ hDot
  exact absurd hDigit (by decide)

theorem dot_not_mem_fmtSubslice (chunk : List Nat) : '.' ∉ fmtSubslice chunk :=
  not_mem_joinFrom (by decide) (fun part _ => dot_not_mem_lowerHex part) 0

/-- Groups around a gap are read back with zero groups in the gap. -/
theorem readIpv6_gap {head tail : List Nat} (hHead : ∀ group ∈ head, group < 65536)
    (hTail : ∀ group ∈ tail, group < 65536) (hLength : head.length + tail.length ≤ 7) :
    readIpv6 (fmtSubslice head ++ ("::" : Str) ++ fmtSubslice tail) =
      some (head ++ List.replicate (8 - head.length - tail.length) 0 ++ tail, []) := by
  have hText : fmtSubslice head ++ ("::" : Str) ++ fmtSubslice tail =
      fmtSubslice head ++ ':' :: ':' :: fmtSubslice tail := by
    rw [List.append_assoc]
    rfl
  have hFirst : readGroups 0 8 (fmtSubslice head ++ ':' :: ':' :: fmtSubslice tail) =
      (head, false, ':' :: ':' :: fmtSubslice tail) := by
    refine readGroups_joinFrom hHead (by omega) (.inr ⟨fmtSubslice tail, rfl⟩) ?_
    have hHeadDot := dot_not_mem_fmtSubslice head
    have hTailDot := dot_not_mem_fmtSubslice tail
    simp only [List.mem_append, List.mem_cons, not_or]
    exact ⟨hHeadDot, by decide, by decide, hTailDot⟩
  have hSecond : readGroups 0 (7 - head.length) (fmtSubslice tail) = (tail, false, []) := by
    have hRead := @readGroups_joinFrom tail hTail 0 (7 - head.length) (by omega) [] (.inl rfl)
      (by rw [List.append_nil]; exact dot_not_mem_fmtSubslice tail)
    rwa [List.append_nil] at hRead
  rw [hText, readIpv6, hFirst]
  dsimp only
  rw [if_neg (by omega), if_neg (by decide)]
  simp only [hSecond]

theorem readIpv6_full {groups : List Nat} (hGroups : ∀ group ∈ groups, group < 65536)
    (hLength : groups.length = 8) : readIpv6 (fmtSubslice groups) = some (groups, []) := by
  have hRead := @readGroups_joinFrom groups hGroups 0 8 hLength.le [] (.inl rfl)
    (by rw [List.append_nil]; exact dot_not_mem_fmtSubslice groups)
  rw [List.append_nil] at hRead
  rw [readIpv6, show readGroups 0 8 (fmtSubslice groups) = (groups, false, []) from hRead]
  dsimp only
  rw [if_pos hLength]

/-- A mapped address is read back with its IPv4 part in two groups. -/
theorem readIpv6_mapped (addr : Ipv4Addr) :
    readIpv6 (("::ffff:" : Str) ++ addr.display) =
      some ([0, 0, 0, 0, 0, 0xffff, bigEndian 256 (addr.octets.take 2),
        bigEndian 256 (addr.octets.drop 2)], []) := by
  have hOctets := @readIpv4Octets_display addr [] fun c hc => by cases hc
  rw [List.append_nil] at hOctets
  have hEmbedded : readEmbedded 1 (':' :: addr.display) =
      some ([bigEndian 256 (addr.octets.take 2), bigEndian 256 (addr.octets.drop 2)], []) := by
    simp [readEmbedded, readSeparator, hOctets]
  have hHex : Nat.toDigits 16 0xffff = ['f', 'f', 'f', 'f'] := by decide
  have hColon : ∀ radix ≤ 16, ∀ text : Str, NoDigit radix (':' :: text) := by
    intro radix hRadix text c hc
    obtain rfl : ':' = c := by simpa using hc
    rfl
  have hGroup : readGroup 0 ('f' :: 'f' :: 'f' :: 'f' :: ':' :: addr.display) =
      some (0xffff, ':' :: addr.display) := by
    have hNumber := @readNumber_toDigits 16 4 65535 0xffff (by decide) (by decide) true
      (by decide) (by decide) (by decide) _ (hColon 16 (by decide) addr.display)
    rwa [hHex] at hNumber
  have hFirst : readEmbedded 0 ('f' :: 'f' :: 'f' :: 'f' :: ':' :: addr.display) = none :=
    readEmbedded_noDigit fun c hc => by
      obtain rfl : 'f' = c := by simpa using hc
      decide
  have hGap : readEmbedded 0 (':' :: ':' :: 'f' :: 'f' :: 'f' :: 'f' :: ':' :: addr.display) =
      none := readEmbedded_noDigit (hColon 10 (by decide) _)
  have hHead : readGroups 0 8 (':' :: ':' :: 'f' :: 'f' :: 'f' :: 'f' :: ':' :: addr.display) =
      ([], false, ':' :: ':' :: 'f' :: 'f' :: 'f' :: 'f' :: ':' :: addr.display) := by
    rw [readGroups, if_neg (by decide), hGap, AtGap.readGroup (.inr ⟨_, rfl⟩) 0]
  have hTail : readGroups 0 7 ('f' :: 'f' :: 'f' :: 'f' :: ':' :: addr.display) =
      ([0xffff, bigEndian 256 (addr.octets.take 2), bigEndian 256 (addr.octets.drop 2)], true,
        []) := by
    rw [readGroups, if_neg (by decide), hFirst, hGroup]
    simp only [readGroups, Nat.reduceEqDiff, ↓reduceIte, Nat.zero_add, hEmbedded]
  show readIpv6 (':' :: ':' :: 'f' :: 'f' :: 'f' :: 'f' :: ':' :: addr.display) = _
  rw [readIpv6, hHead]
  simp only [List.length_nil, Nat.sub_zero, hTail]
  rfl

theorem Ipv6Addr.length_segments (addr : Ipv6Addr) : addr.segments.length = 8 :=
  length_beDigits 65536 8 _

theorem readIpv6_display (addr : Ipv6Addr) : readIpv6 addr.display = some (addr.segments, []) := by
  have hLength := addr.length_segments
  have hSegments := addr.segments_lt
  unfold Ipv6Addr.display
  cases hMapped : addr.toIpv4Mapped with
  | some mapped =>
      unfold Ipv6Addr.toIpv4Mapped at hMapped
      split at hMapped
      · rename_i high low hGroups
        have hHigh : high < 256 ^ 2 := hSegments high (by simp [hGroups])
        have hLow : low < 256 ^ 2 := hSegments low (by simp [hGroups])
        have hOctets : mapped.octets = beDigits 256 2 high ++ beDigits 256 2 low := by
          rw [← Option.some.inj hMapped]
          refine Ipv4Addr.octets_ofOctets (by simp) fun octet hOctet => ?_
          rcases List.mem_append.mp hOctet with hFront | hBack
          · exact lt_of_mem_beDigits (by decide) hFront
          · exact lt_of_mem_beDigits (by decide) hBack
        rw [readIpv6_mapped, hOctets, List.take_left' (length_beDigits _ _ _),
          List.drop_left' (length_beDigits _ _ _), bigEndian_beDigits, bigEndian_beDigits,
          Nat.mod_eq_of_lt hHigh, Nat.mod_eq_of_lt hLow, hGroups]
      · cases hMapped
  | none =>
      have hZero := addr.longestZeroes_segments
      dsimp only
      generalize longestZeroes 0 ⟨0, 0⟩ ⟨0, 0⟩ addr.segments = zeroes at hZero
      split_ifs with hLong
      · obtain ⟨hFits, hRun⟩ := hZero
        rw [readIpv6_gap]
        · have hGap : 8 - (addr.segments.take zeroes.start).length -
              (addr.segments.drop (zeroes.start + zeroes.len)).length = zeroes.len := by
            rw [List.length_take, List.length_drop]
            omega
          rw [hGap, ← hRun, ← List.drop_drop, List.append_assoc, List.take_append_drop,
            List.take_append_drop]
        · exact fun group hGroup => hSegments group (List.mem_of_mem_take hGroup)
        · exact fun group hGroup => hSegments group (List.mem_of_mem_drop hGroup)
        · rw [List.length_take, List.length_drop]
          omega
      · exact readIpv6_full hSegments hLength

theorem parseIpv6_display (addr : Ipv6Addr) : parseIpv6 addr.display = some addr := by
  rw [parseIpv6, readIpv6_display]
  exact congrArg some addr.ofGroups_segments

/-- The text of an IPv6 address does not start with an IPv4 address. -/
theorem readIpv4Octets_ipv6_display (addr : Ipv6Addr) : readIpv4Octets addr.display = none := by
  unfold Ipv6Addr.display
  cases addr.toIpv4Mapped with
  | some mapped =>
      refine readIpv4Octets_noDigit fun c hc => ?_
      obtain rfl : ':' = c := by simpa using hc
      decide
  | none =>
      dsimp only
      split_ifs
      · refine readIpv4Octets_eq_none ?_
        simp only [List.mem_append, not_or]
        exact ⟨⟨dot_not_mem_fmtSubslice _, by decide⟩, dot_not_mem_fmtSubslice _⟩
      · exact readIpv4Octets_eq_none (dot_not_mem_fmtSubslice _)

theorem parseIpAddr_display (addr : IpAddr) : parseIpAddr addr.display = some addr := by
  cases addr with
  | v4 addr =>
      have hRead := @readIpv4Octets_display addr [] fun c hc => by cases hc
      rw [List.append_nil] at hRead
      simp only [parseIpAddr, readIpAddr, IpAddr.display, hRead, addr.ofOctets_octets]
  | v6 addr =>
      simp only [parseIpAddr, readIpAddr, IpAddr.display, readIpv4Octets_ipv6_display,
        readIpv6_display, Option.map_some, addr.ofGroups_segments]

/-! The characters of an address and their number. -/

theorem length_fmtSubslice_le {chunk : List Nat} (h : ∀ segment ∈ chunk, segment < 65536) :
    (fmtSubslice chunk).length ≤ 5 * chunk.length - 1 := by
  refine length_joinFrom_zero_le fun segment hSegment => ?_
  have hFits := h segment hSegment
  exact (Nat.length_toDigits_le_iff (by decide) (by decide)).mpr (by omega)

theorem Ipv6Addr.length_display_le (addr : Ipv6Addr) : addr.display.length ≤ 39 := by
  have hLength := addr.length_segments
  have hSegments := addr.segments_lt
  unfold Ipv6Addr.display
  cases addr.toIpv4Mapped with
  | some mapped =>
      have hMapped := mapped.length_display_le
      simp only [List.length_append]
      have hFront : ("::ffff:" : Str).length = 7 := rfl
      omega
  | none =>
      have hFull := length_fmtSubslice_le hSegments
      dsimp only
      split_ifs with hLong
      · have hFits := addr.longestZeroes_segments.1
        generalize longestZeroes 0 ⟨0, 0⟩ ⟨0, 0⟩ addr.segments = zeroes at hLong hFits
        have hHead := @length_fmtSubslice_le (addr.segments.take zeroes.start) fun segment h =>
          hSegments segment (List.mem_of_mem_take h)
        have hTail := @length_fmtSubslice_le (addr.segments.drop (zeroes.start + zeroes.len))
          fun segment h => hSegments segment (List.mem_of_mem_drop h)
        have hGap : ("::" : Str).length = 2 := rfl
        simp only [List.length_append, List.length_take, List.length_drop] at hHead hTail ⊢
        omega
      · omega

/-- A character that is no digit of the base is in no number. -/
theorem not_mem_toDigits {radix : Nat} (hLow : 1 < radix) (hRadix : radix ≤ 16) {c : Char}
    (h : toDigit radix c = none) (n : Nat) : c ∉ Nat.toDigits radix n := by
  intro hMember
  have hDigit := (bigEndian_toDigits hLow hRadix n).1 c hMember
  rw [h] at hDigit
  cases hDigit

theorem Ipv4Addr.not_mem_display {c : Char} (hDot : c ≠ '.') (h : toDigit 10 c = none)
    (addr : Ipv4Addr) : c ∉ addr.display :=
  not_mem_joinFrom hDot (fun octet _ => not_mem_toDigits (by decide) (by decide) h octet) 0

theorem Ipv6Addr.not_mem_display {c : Char} (hDot : c ≠ '.') (hColon : c ≠ ':')
    (h : toDigit 16 c = none) (h10 : toDigit 10 c = none) (addr : Ipv6Addr) : c ∉ addr.display := by
  have hChunk : ∀ chunk, c ∉ fmtSubslice chunk := fun chunk =>
    not_mem_joinFrom hColon (fun segment _ => not_mem_toDigits (by decide) (by decide) h segment) 0
  unfold Ipv6Addr.display
  cases addr.toIpv4Mapped with
  | some mapped =>
      have hMapped := mapped.not_mem_display hDot h10
      have hHex : c ≠ 'f' := by
        rintro rfl
        exact absurd h (by decide)
      simp [hMapped, hColon, hHex]
  | none =>
      dsimp only
      split_ifs
      · simp [hChunk, hColon]
      · exact hChunk _

theorem IpAddr.not_mem_display {c : Char} (hDot : c ≠ '.') (hColon : c ≠ ':')
    (h : toDigit 16 c = none) (h10 : toDigit 10 c = none) (addr : IpAddr) : c ∉ addr.display := by
  cases addr with
  | v4 addr => exact addr.not_mem_display hDot h10
  | v6 addr => exact addr.not_mem_display hDot hColon h h10

end Rust
