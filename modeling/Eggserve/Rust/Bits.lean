import Eggserve.Rust.Net

/-! The front bits of a word of a fixed width, and of an IP address. A shift by the width
or more panics. -/
namespace Rust

variable {w : Nat}

/-- The operator `>>`. -/
def shiftRight (x : BitVec w) (shift : Nat) : MayPanic (BitVec w) :=
  if shift < w then some (x >>> shift) else none

/-- The operator `<<`. -/
def shiftLeft (x : BitVec w) (shift : Nat) : MayPanic (BitVec w) :=
  if shift < w then some (x <<< shift) else none

theorem shiftRight_of_lt {shift : Nat} (x : BitVec w) (h : shift < w) :
    shiftRight x shift = some (x >>> shift) := if_pos h

theorem shiftLeft_of_lt {shift : Nat} (x : BitVec w) (h : shift < w) :
    shiftLeft x shift = some (x <<< shift) := if_pos h

/-- Two words have the same first bits. -/
def AgreeOn (len : Nat) (x y : BitVec w) : Prop := ∀ i < len, x.getMsbD i = y.getMsbD i

instance (len : Nat) (x y : BitVec w) : Decidable (AgreeOn len x y) :=
  inferInstanceAs (Decidable (∀ i < len, x.getMsbD i = y.getMsbD i))

theorem AgreeOn.symm {len : Nat} {x y : BitVec w} (h : AgreeOn len x y) : AgreeOn len y x :=
  fun i hi => (h i hi).symm

theorem AgreeOn.trans {len : Nat} {x y z : BitVec w} (hFirst : AgreeOn len x y)
    (hSecond : AgreeOn len y z) : AgreeOn len x z :=
  fun i hi => (hFirst i hi).trans (hSecond i hi)

theorem agreeOn_zero (x y : BitVec w) : AgreeOn 0 x y := fun _ hi => absurd hi (Nat.not_lt_zero _)

/-- A right shift keeps the first bits and nothing else. -/
theorem shiftRight_eq_iff {len : Nat} (hLen : len ≤ w) (x y : BitVec w) :
    x >>> (w - len) = y >>> (w - len) ↔ AgreeOn len x y := by
  have hBit : ∀ (z : BitVec w), ∀ i < len, (z >>> (w - len)).getMsbD (w - len + i) = z.getMsbD i := by
    intro z i hi
    have hIn : w - len + i < w := by omega
    have hPast : ¬ w - len + i < w - len := by omega
    simp [BitVec.getMsbD_ushiftRight, hIn, hPast]
  constructor
  · intro h i hi
    rw [← hBit x i hi, ← hBit y i hi, h]
  · intro h
    refine BitVec.eq_of_getMsbD_eq fun i hi => ?_
    rw [BitVec.getMsbD_ushiftRight, BitVec.getMsbD_ushiftRight]
    by_cases hFront : i < w - len
    · simp [hFront]
    · rw [h (i - (w - len)) (by omega)]

/-- The first bits of a word, in front of zeroes. -/
def keepFront (len : Nat) (x : BitVec w) : BitVec w := (x >>> (w - len)) <<< (w - len)

theorem getMsbD_keepFront {len : Nat} (hLen : len ≤ w) (x : BitVec w) (i : Nat) :
    (keepFront len x).getMsbD i = (decide (i < len) && x.getMsbD i) := by
  rw [keepFront, BitVec.getMsbD_shiftLeft, BitVec.getMsbD_ushiftRight, Nat.add_sub_cancel]
  by_cases hi : i < len
  · have hIn : i + (w - len) < w := by omega
    simp [hi, hIn]
  · have hOut : ¬ i + (w - len) < w := by omega
    simp [hi, hOut]

theorem keepFront_agreeOn {len : Nat} (hLen : len ≤ w) (x : BitVec w) :
    AgreeOn len (keepFront len x) x := by
  intro i hi
  simp [getMsbD_keepFront hLen, hi]

/-- Nothing is taken from a word that is zero behind its first bits. -/
theorem keepFront_of_clear {len : Nat} (hLen : len ≤ w) {x : BitVec w}
    (h : ∀ i, len ≤ i → x.getMsbD i = false) : keepFront len x = x := by
  refine BitVec.eq_of_getMsbD_eq fun i _ => ?_
  rw [getMsbD_keepFront hLen]
  by_cases hi : i < len
  · simp [hi]
  · simp [hi, h i (Nat.not_lt.mp hi)]

theorem keepFront_clear {len : Nat} (hLen : len ≤ w) (x : BitVec w) :
    ∀ i, len ≤ i → (keepFront len x).getMsbD i = false := by
  intro i hi
  simp [getMsbD_keepFront hLen, Nat.not_lt.mpr hi]

theorem keepFront_zero (x : BitVec w) : keepFront 0 x = 0 := by
  refine BitVec.eq_of_getMsbD_eq fun i _ => ?_
  simp [getMsbD_keepFront (Nat.zero_le w)]

namespace IpAddr

/-- The number of bits. -/
def width : IpAddr → Nat
  | v4 _ => 32
  | v6 _ => 128

/-- Bit number `i` from the front. -/
def bit : IpAddr → Nat → Bool
  | v4 addr, i => addr.bits.getMsbD i
  | v6 addr, i => addr.bits.getMsbD i

/-- Two addresses of one family have the same first bits. -/
def AgreesOn (len : Nat) : IpAddr → IpAddr → Prop
  | v4 x, v4 y => AgreeOn len x.bits y.bits
  | v6 x, v6 y => AgreeOn len x.bits y.bits
  | _, _ => False

instance (len : Nat) : DecidableRel (AgreesOn len)
  | v4 x, v4 y => inferInstanceAs (Decidable (AgreeOn len x.bits y.bits))
  | v6 x, v6 y => inferInstanceAs (Decidable (AgreeOn len x.bits y.bits))
  | v4 _, v6 _ => inferInstanceAs (Decidable False)
  | v6 _, v4 _ => inferInstanceAs (Decidable False)

theorem AgreesOn.symm {len : Nat} {x y : IpAddr} (h : AgreesOn len x y) : AgreesOn len y x := by
  cases x <;> cases y
  · exact AgreeOn.symm h
  · exact h
  · exact h
  · exact AgreeOn.symm h

theorem AgreesOn.trans {len : Nat} {x y z : IpAddr} (hFirst : AgreesOn len x y)
    (hSecond : AgreesOn len y z) : AgreesOn len x z := by
  cases x with
  | v4 x =>
      cases y with
      | v6 y => exact hFirst.elim
      | v4 y =>
          cases z with
          | v4 z => exact AgreeOn.trans hFirst hSecond
          | v6 z => exact hSecond.elim
  | v6 x =>
      cases y with
      | v4 y => exact hFirst.elim
      | v6 y =>
          cases z with
          | v4 z => exact hSecond.elim
          | v6 z => exact AgreeOn.trans hFirst hSecond

theorem AgreesOn.width_eq {len : Nat} {x y : IpAddr} (h : AgreesOn len x y) : x.width = y.width := by
  cases x <;> cases y
  · rfl
  · exact h.elim
  · exact h.elim
  · rfl

/-- The first bits of an address, in front of zeroes. -/
def front (len : Nat) : IpAddr → IpAddr
  | v4 addr => v4 ⟨keepFront len addr.bits⟩
  | v6 addr => v6 ⟨keepFront len addr.bits⟩

theorem front_agreesOn {len : Nat} {addr : IpAddr} (hLen : len ≤ addr.width) :
    (addr.front len).AgreesOn len addr := by
  cases addr with
  | v4 addr => exact keepFront_agreeOn hLen addr.bits
  | v6 addr => exact keepFront_agreeOn hLen addr.bits

theorem front_clear {len : Nat} {addr : IpAddr} (hLen : len ≤ addr.width) :
    ∀ i, len ≤ i → (addr.front len).bit i = false := by
  cases addr with
  | v4 addr => exact keepFront_clear hLen addr.bits
  | v6 addr => exact keepFront_clear hLen addr.bits

theorem front_of_clear {len : Nat} {addr : IpAddr} (hLen : len ≤ addr.width)
    (h : ∀ i, len ≤ i → addr.bit i = false) : addr.front len = addr := by
  cases addr with
  | v4 addr => exact congrArg v4 (Ipv4Addr.ext (keepFront_of_clear hLen h))
  | v6 addr => exact congrArg v6 (Ipv6Addr.ext (keepFront_of_clear hLen h))

theorem bit_of_width_le (addr : IpAddr) {i : Nat} (h : addr.width ≤ i) : addr.bit i = false := by
  cases addr with
  | v4 addr => exact BitVec.getMsbD_of_ge addr.bits i h
  | v6 addr => exact BitVec.getMsbD_of_ge addr.bits i h

theorem agreesOn_refl (len : Nat) (addr : IpAddr) : addr.AgreesOn len addr := by
  cases addr with
  | v4 addr => exact fun _ _ => rfl
  | v6 addr => exact fun _ _ => rfl

end IpAddr

end Rust
