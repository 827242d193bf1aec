import Mathlib.Data.List.Lex
import Eggserve.Rust.Integer

/-! Numbers in texts of a fixed width. Such texts are ordered as the numbers are. -/
namespace Rust

/-- The format `{:0width}` of an unsigned integer. -/
def padded (width n : Nat) : Str := List.replicate (width - (decimal n).length) '0' ++ decimal n

theorem length_padded {width n : Nat} (hWidth : 0 < width) (h : n < 10 ^ width) :
    (padded width n).length = width := by
  have hDigits : (decimal n).length ≤ width :=
    (Nat.length_toDigits_le_iff (by decide) hWidth).mpr h
  rw [padded, List.length_append, List.length_replicate, Nat.sub_add_cancel hDigits]

/-- The last digit stands behind the text of the others. -/
theorem padded_succ {width n : Nat} (hWidth : 0 < width) :
    padded (width + 1) n = padded width (n / 10) ++ [(n % 10).digitChar] := by
  by_cases hSmall : n < 10
  · have hDecimal : decimal n = [n.digitChar] := Nat.toDigits_of_lt_base hSmall
    have hZero : decimal 0 = ['0'] := rfl
    have hFront : List.replicate width '0' = List.replicate (width - 1) '0' ++ ['0'] := by
      rw [← List.replicate_succ', Nat.sub_add_cancel hWidth]
    rw [padded, padded, hDecimal, Nat.div_eq_of_lt hSmall, hZero, Nat.mod_eq_of_lt hSmall]
    show List.replicate (width + 1 - 1) '0' ++ [n.digitChar] =
      List.replicate (width - 1) '0' ++ ['0'] ++ [n.digitChar]
    rw [← hFront, Nat.add_one_sub_one]
  · have hDecimal : decimal n = decimal (n / 10) ++ [(n % 10).digitChar] :=
      Nat.toDigits_of_base_le (by decide) (Nat.not_lt.mp hSmall)
    rw [padded, padded, hDecimal, List.length_append, List.length_singleton,
      Nat.add_sub_add_right, List.append_assoc]

theorem append_lt_append_left (front : Str) {s t : Str} (h : s < t) : front ++ s < front ++ t := by
  induction front with
  | nil => exact h
  | cons c front ih => exact List.Lex.cons ih

/-- Texts of one length are ordered before what stands behind them is looked at. -/
theorem append_lt_append {s t : Str} (hLength : s.length = t.length) (h : s < t) (first second : Str) :
    s ++ first < t ++ second := by
  induction s generalizing t with
  | nil =>
      have hNil : t = [] := List.length_eq_zero_iff.mp hLength.symm
      rw [hNil] at h
      exact absurd h (List.not_lt_nil [])
  | cons c s ih =>
      cases t with
      | nil => cases hLength
      | cons d t =>
          rcases List.cons_lt_cons_iff.mp h with hHead | ⟨rfl, hTail⟩
          · exact List.Lex.rel hHead
          · exact List.Lex.cons (ih (Nat.succ.inj hLength) hTail)

theorem digitChar_lt : ∀ m < 10, ∀ n < m, n.digitChar < m.digitChar := by
  decide

theorem padded_lt {width n m : Nat} (hWidth : 0 < width) (hm : m < 10 ^ width) (h : n < m) :
    padded width n < padded width m := by
  induction width generalizing n m with
  | zero => cases hWidth
  | succ width ih =>
      by_cases hOne : width = 0
      · subst hOne
        have hTen : m < 10 := hm
        have hFirst : decimal n = [n.digitChar] := Nat.toDigits_of_lt_base (h.trans hTen)
        have hSecond : decimal m = [m.digitChar] := Nat.toDigits_of_lt_base hTen
        rw [padded, padded, hFirst, hSecond]
        exact List.Lex.rel (digitChar_lt m hTen n h)
      · have hPositive : 0 < width := Nat.pos_of_ne_zero hOne
        have hFits : m / 10 < 10 ^ width := by
          rw [Nat.pow_succ] at hm
          exact Nat.div_lt_of_lt_mul (by omega)
        rw [padded_succ hPositive, padded_succ hPositive]
        by_cases hFront : n / 10 < m / 10
        · have hLength : (padded width (n / 10)).length = (padded width (m / 10)).length := by
            rw [length_padded hPositive (hFront.trans hFits), length_padded hPositive hFits]
          exact append_lt_append hLength (ih hPositive hFits hFront) _ _
        · have hSame : n / 10 = m / 10 := by omega
          rw [hSame]
          apply append_lt_append_left
          exact List.Lex.rel (digitChar_lt _ (Nat.mod_lt _ (by decide)) _ (by omega))

end Rust
