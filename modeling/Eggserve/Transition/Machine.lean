import Mathlib.Order.Basic

/-! Machines that act step by step, and what holds in all their reachable states. -/
namespace Eggserve.Transition

universe u v

/-- The states a machine may start in, and what each action makes of a state.
An action that is not enabled makes nothing. -/
structure Machine (σ : Type u) (α : Type v) where
  Initial : σ → Prop
  step : σ → α → Option σ

/-- What a step under a condition makes of a state. -/
theorem enabled_iff {σ : Type u} {p : Prop} [Decidable p] {s s' : σ} :
    (if p then some s else none) = some s' ↔ p ∧ s = s' := by
  simp

namespace Machine

variable {σ : Type u} {α : Type v} (machine : Machine σ α)

/-- The states of the runs in which every action is taken as the guard allows. -/
inductive ReachableUnder (guard : σ → α → Prop) : σ → Prop where
  | start {s : σ} (hInitial : machine.Initial s) : ReachableUnder guard s
  | step {s s' : σ} {a : α} (prior : ReachableUnder guard s) (hGuard : guard s a)
      (hStep : machine.step s a = some s') : ReachableUnder guard s'

/-- The states of all runs. -/
def Reachable : σ → Prop := machine.ReachableUnder fun _ _ => True

variable {machine}

/-- A property of the initial states that every allowed step keeps holds in
every state of the allowed runs. -/
theorem ReachableUnder.invariant {guard : σ → α → Prop} {inv : σ → Prop}
    (hInitial : ∀ s, machine.Initial s → inv s)
    (hKeeps : ∀ s a s', inv s → guard s a → machine.step s a = some s' → inv s')
    {s : σ} (hReach : machine.ReachableUnder guard s) : inv s := by
  induction hReach with
  | start hStart => exact hInitial _ hStart
  | step _ hGuard hStep ih => exact hKeeps _ _ _ ih hGuard hStep

/-- An allowed run is a run. -/
theorem ReachableUnder.reachable {guard : σ → α → Prop} {s : σ}
    (hReach : machine.ReachableUnder guard s) : machine.Reachable s := by
  induction hReach with
  | start hStart => exact .start hStart
  | step _ _ hStep ih => exact .step ih trivial hStep

/-- The state after the given actions, where each is enabled and allowed. -/
def run (machine : Machine σ α) (guard : σ → α → Prop) [∀ s a, Decidable (guard s a)] :
    σ → List α → Option σ
  | s, [] => some s
  | s, a :: rest =>
      if guard s a then (machine.step s a).bind fun s' => run machine guard s' rest else none

theorem ReachableUnder.run {guard : σ → α → Prop} [∀ s a, Decidable (guard s a)] {s s' : σ}
    {actions : List α} (hReach : machine.ReachableUnder guard s)
    (hRun : machine.run guard s actions = some s') : machine.ReachableUnder guard s' := by
  induction actions generalizing s with
  | nil =>
      obtain rfl := Option.some.inj hRun
      exact hReach
  | cons a rest ih =>
      simp only [Machine.run, Option.ite_none_right_eq_some, Option.bind_eq_some_iff] at hRun
      obtain ⟨hGuard, middle, hStep, hRest⟩ := hRun
      exact ih (.step hReach hGuard hStep) hRest

end Machine

end Eggserve.Transition
