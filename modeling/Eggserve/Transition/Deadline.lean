import Mathlib.Order.Lattice
import Mathlib.Order.Defs.LinearOrder
import Mathlib.Data.Set.Defs

/-! Deadlines that are announced ahead of the checks they stand for. A deadline is
computed before it comes, a check is made at an instant, and the two agree when the check
is true exactly from the deadline on. -/
namespace Eggserve.Transition

universe u

variable {α : Type u} [LinearOrder α]

/-- The deadline is set and has come. -/
def Passed (deadline : Option α) (now : α) : Prop := ∃ instant ∈ deadline, instant ≤ now

/-- Within the window the check is true exactly when the deadline has come. -/
def Announces (window : Set α) (deadline : Option α) (check : α → Prop) : Prop :=
  ∀ now ∈ window, check now ↔ Passed deadline now

theorem passed_none (now : α) : ¬Passed none now := by
  rintro ⟨instant, hMem, -⟩
  cases hMem

theorem passed_some {instant now : α} : Passed (some instant) now ↔ instant ≤ now := by
  simp [Passed]

/-- The earlier of two deadlines has come when one of them has. -/
theorem passed_merge (first second : Option α) (now : α) :
    Passed (first.merge min second) now ↔ Passed first now ∨ Passed second now := by
  cases first with
  | none => simp [passed_none]
  | some a =>
      cases second with
      | none => simp [passed_none]
      | some b => simp [passed_some]

/-- The earliest of several deadlines has come when one of them has. -/
theorem passed_minimum (instants : List α) (now : α) :
    Passed instants.min? now ↔ ∃ instant ∈ instants, instant ≤ now := by
  induction instants with
  | nil => simp [passed_none]
  | cons first rest ih =>
      have hMerge : (first :: rest).min? = (some first).merge min rest.min? := by
        rw [List.min?_cons]
        cases rest.min? with
        | none => rfl
        | some least => rfl
      rw [hMerge, passed_merge, ih, passed_some]
      simp

namespace Announces

variable {window : Set α} {first second : Option α} {check other : α → Prop}

theorem congr (h : Announces window first check) (hSame : ∀ now, other now ↔ check now) :
    Announces window first other :=
  fun now hNow => (hSame now).trans (h now hNow)

/-- The earlier of two deadlines stands for both checks. -/
theorem merge (h : Announces window first check) (hOther : Announces window second other) :
    Announces window (first.merge min second) fun now => check now ∨ other now := by
  intro now hNow
  rw [passed_merge, ← h now hNow, ← hOther now hNow]

/-- A deadline that counts only under a condition. -/
theorem mergeIf (h : Announces window first check) (condition : Prop) [Decidable condition]
    (hOther : Announces window second other) :
    Announces window (if condition then first.merge min second else first)
      fun now => check now ∨ condition ∧ other now := by
  by_cases hCondition : condition
  · rw [if_pos hCondition]
    intro now hNow
    rw [← h.merge hOther now hNow]
    simp [hCondition]
  · rw [if_neg hCondition]
    intro now hNow
    rw [← h now hNow]
    simp [hCondition]

end Announces

end Eggserve.Transition
