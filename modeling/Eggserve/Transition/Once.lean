import Mathlib.Logic.Function.Basic

/-! A task that is carried out once, by whichever of several parties has taken it
on. `pending` reads off where a party stands whether it has. -/
namespace Eggserve.Transition

universe u v

/-- The task is not due yet, one party has taken it on, or it is done. -/
inductive Once {ι : Type u} {π : Type v} (pending : π → Bool) (party : ι → π) :
    Bool → Nat → Prop where
  | early (hNobody : ∀ n, pending (party n) = false) : Once pending party false 0
  | taken (n : ι) (hTaken : pending (party n) = true)
      (hOnly : ∀ m, pending (party m) = true → m = n) : Once pending party true 0
  | done (hNobody : ∀ n, pending (party n) = false) : Once pending party true 1

namespace Once

variable {ι : Type u} {π : Type v} {pending : π → Bool} {party : ι → π} {n : ι}
  {new : π} {due : Bool} {count : Nat}

theorem count_le (h : Once pending party due count) : count ≤ 1 := by
  cases h with
  | early _ => exact Nat.zero_le 1
  | taken _ _ _ => exact Nat.zero_le 1
  | done _ => exact Nat.le_refl 1

theorem count_eq_zero (h : Once pending party false count) : count = 0 := by
  cases h with
  | early _ => rfl

/-- Due, and with nobody at it, the task is done. -/
theorem count_eq_one (h : Once pending party true count)
    (hNobody : ∀ n, pending (party n) = false) : count = 1 := by
  cases h with
  | taken n hTaken _ =>
      rw [hNobody n] at hTaken
      cases hTaken
  | done _ => rfl

variable [DecidableEq ι]

theorem nobody_update (hNobody : ∀ m, pending (party m) = false) (hNew : pending new = false)
    (m : ι) : pending (Function.update party n new m) = false := by
  by_cases hEq : m = n
  · rw [hEq, Function.update_self]
    exact hNew
  · rw [Function.update_of_ne hEq]
    exact hNobody m

/-- A party that moves on with the same duty. -/
theorem keep (h : Once pending party due count) (hSame : pending new = pending (party n)) :
    Once pending (Function.update party n new) due count := by
  have hEqual : ∀ m, pending (Function.update party n new m) = pending (party m) := by
    intro m
    by_cases hEq : m = n
    · rw [hEq, Function.update_self, hSame]
    · rw [Function.update_of_ne hEq]
  cases h with
  | early hNobody => exact .early fun m => (hEqual m).trans (hNobody m)
  | taken taker hTaken hOnly =>
      exact .taken taker ((hEqual taker).trans hTaken) fun m hm => hOnly m ((hEqual m).symm.trans hm)
  | done hNobody => exact .done fun m => (hEqual m).trans (hNobody m)

/-- The task becomes due and a party takes it on. -/
theorem take (h : Once pending party false count) (hNew : pending new = true) :
    Once pending (Function.update party n new) true count := by
  cases h with
  | early hNobody =>
      refine .taken n (by rw [Function.update_self, hNew]) fun m hm => ?_
      by_contra hNe
      rw [Function.update_of_ne hNe, hNobody m] at hm
      cases hm

/-- The party that has taken the task on carries it out. -/
theorem finish (h : Once pending party due count) (hOld : pending (party n) = true)
    (hNew : pending new = false) : Once pending (Function.update party n new) due (count + 1) := by
  cases h with
  | early hNobody =>
      rw [hNobody n] at hOld
      cases hOld
  | taken taker hTaken hOnly =>
      refine .done fun m => ?_
      by_cases hEq : m = n
      · rw [hEq, Function.update_self, hNew]
      · rw [Function.update_of_ne hEq, ← Bool.not_eq_true]
        exact fun hm => hEq ((hOnly m hm).trans (hOnly n hOld).symm)
  | done hNobody =>
      rw [hNobody n] at hOld
      cases hOld

/-- The task becomes due and is carried out at once. -/
theorem atOnce (h : Once pending party false count) (hNew : pending new = false) :
    Once pending (Function.update party n new) true (count + 1) := by
  cases h with
  | early hNobody => exact .done (nobody_update hNobody hNew)

end Once

end Eggserve.Transition
