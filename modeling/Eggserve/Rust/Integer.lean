import Mathlib.Algebra.Order.Ring.Nat
import Eggserve.Rust.Text

/-! Unsigned 64-bit integers as naturals with explicit bounds, and their
decimal text. -/
namespace Rust

/-- A computation that may panic; `none` is the panic. -/
abbrev MayPanic (α : Type) := Option α

def u64Max : Nat := 2 ^ 64 - 1

def checkedAdd (a b : Nat) : Option Nat := if a + b ≤ u64Max then some (a + b) else none

def checkedSub (a b : Nat) : Option Nat := if b ≤ a then some (a - b) else none

def checkedMul (a b : Nat) : Option Nat := if a * b ≤ u64Max then some (a * b) else none

def saturatingAdd (a b : Nat) : Nat := min (a + b) u64Max

theorem checkedAdd_of_le {a b : Nat} (h : a + b ≤ u64Max) : checkedAdd a b = some (a + b) :=
  if_pos h

theorem checkedMul_of_le {a b : Nat} (h : a * b ≤ u64Max) : checkedMul a b = some (a * b) :=
  if_pos h

theorem checkedSub_of_le {a b : Nat} (h : b ≤ a) : checkedSub a b = some (a - b) := if_pos h

/-- The length of an inclusive interval. -/
theorem checkedSub_bind_checkedAdd_one {first last : Nat} (h : first ≤ last)
    (hLast : last < u64Max) :
    (checkedSub last first).bind (checkedAdd · 1) = some (last - first + 1) := by
  rw [checkedSub_of_le h, Option.bind_some]
  exact checkedAdd_of_le (by omega)

/-- An integer on its way into a word. A conversion by `as`, and arithmetic without
overflow checks, keep it modulo the size of the word. -/
structure Word where
  max : Nat
  value : Int
  deriving DecidableEq

namespace Word

def get (word : Word) : Nat := (word.value % (word.max + 1)).toNat

/-- Nothing is lost. -/
def Exact (word : Word) : Prop := 0 ≤ word.value ∧ word.value ≤ word.max

theorem exact_of_le {max n : Nat} (h : n ≤ max) : (Word.mk max n).Exact :=
  ⟨Int.natCast_nonneg n, Int.ofNat_le.mpr h⟩

theorem exact_sub {max m n : Nat} (hLe : n ≤ m) (h : m ≤ max) :
    (Word.mk max (m - n)).Exact := by
  rw [← Int.ofNat_sub hLe]
  exact exact_of_le (by omega)

theorem get_of_le {max n : Nat} (h : n ≤ max) : (Word.mk max n).get = n := by
  have hMod : (n : Int) % (max + 1) = n := Int.emod_eq_of_lt (by omega) (by omega)
  rw [get, hMod]
  rfl

theorem get_sub {max m n : Nat} (hLe : n ≤ m) (h : m ≤ max) :
    (Word.mk max (m - n)).get = m - n := by
  rw [← Int.ofNat_sub hLe]
  exact get_of_le (by omega)

end Word

/-- `to_string` of an unsigned integer. -/
def decimal (n : Nat) : Str := Nat.toDigits 10 n

/-- The value of a digit string of any length. -/
def decimalValue (digits : Str) : Nat := Nat.ofDigitChars 10 digits 0

/-- A nonempty string of ASCII digits. -/
def isDigits (s : Str) : Bool := !s.isEmpty && s.all Char.isDigit

/-- `str::parse::<u64>`: an optional `+`, then digits, unless the value overflows. -/
def parseU64 (s : Str) : Option Nat :=
  let digits := if s.head? = some '+' then s.tail else s
  if isDigits digits && decimalValue digits ≤ u64Max then some (decimalValue digits) else none

def u8Max : Nat := 2 ^ 8 - 1

/-- `str::parse::<u8>`: the syntax is that of a wider integer. -/
def parseU8 (s : Str) : Option Nat := (parseU64 s).filter (· ≤ u8Max)

theorem isDigit_of_mem_decimal {c : Char} {n : Nat} (h : c ∈ decimal n) : c.isDigit = true :=
  Nat.isDigit_of_mem_toDigits (by decide) (by decide) h

theorem isDigits_decimal (n : Nat) : isDigits (decimal n) = true := by
  have hAll : ∀ c ∈ decimal n, c.isDigit = true := fun c hc => isDigit_of_mem_decimal hc
  have hNonempty : (decimal n).isEmpty = false := by simp [decimal]
  simpa [isDigits, hNonempty] using hAll

@[simp] theorem decimalValue_decimal (n : Nat) : decimalValue (decimal n) = n :=
  Nat.ofDigitChars_ten_toDigits

/-- A digit string has no sign, so only its value decides. -/
theorem parseU64_of_isDigits {s : Str} (h : isDigits s = true) :
    parseU64 s = if decimalValue s ≤ u64Max then some (decimalValue s) else none := by
  have hSign : s.head? ≠ some '+' := by
    intro hHead
    obtain ⟨rest, rfl⟩ := List.head?_eq_some_iff.mp hHead
    simp [isDigits] at h
  simp [parseU64, hSign, h]

theorem parseU8_decimal {n : Nat} (h : n ≤ u8Max) : parseU8 (decimal n) = some n := by
  have hWide : n ≤ u64Max := h.trans (by decide)
  rw [parseU8, parseU64_of_isDigits (isDigits_decimal n), decimalValue_decimal, if_pos hWide]
  exact Option.filter_some_pos (decide_eq_true h)

/-- A digit is not whitespace. -/
theorem not_isWhitespace_of_isDigit {c : Char} (h : c.isDigit = true) : isWhitespace c = false := by
  have hCode : 48 ≤ c.toNat ∧ c.toNat ≤ 57 := by
    simpa [Char.isDigit, UInt32.le_iff_toNat_le] using h
  simp only [isWhitespace, Bool.or_eq_false_iff, Bool.and_eq_false_iff, decide_eq_false_iff_not]
  omega

theorem trim_decimal (n : Nat) : trim (decimal n) = decimal n :=
  trim_of_no_blank fun _ hc => not_isWhitespace_of_isDigit (isDigit_of_mem_decimal hc)

end Rust
