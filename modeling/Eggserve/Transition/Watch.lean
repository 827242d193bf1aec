import Mathlib.Data.Finset.Basic
import Mathlib.Logic.Function.Basic

/-! A watch channel: it holds one value, and each receiver knows the version of
the value that it has seen. Only a send to live receivers stores its value. -/
namespace Eggserve.Transition

universe u v

structure Watch (α : Type u) (ρ : Type v) where
  value : α
  version : Nat
  live : Finset ρ
  seen : ρ → Nat

namespace Watch

variable {α : Type u} {ρ : Type v}

/-- A channel whose first receiver is dropped at once. -/
def channel (value : α) : Watch α ρ where
  value := value
  version := 0
  live := ∅
  seen := fun _ => 0

section Operations

variable [DecidableEq ρ] (watch : Watch α ρ) (receiver : ρ)

/-- A new receiver has seen the current value. -/
def subscribe : Watch α ρ :=
  { watch with
    live := insert receiver watch.live
    seen := Function.update watch.seen receiver watch.version }

/-- The receiver is dropped. -/
def unsubscribe : Watch α ρ := { watch with live := watch.live.erase receiver }

/-- Without receivers the send fails, and the value stays as it is. -/
def send (value : α) : Watch α ρ :=
  if watch.live = ∅ then watch else { watch with value, version := watch.version + 1 }

/-- A value is there that the receiver has not seen: `changed` resolves. -/
def hasChanged : Bool := watch.version ≠ watch.seen receiver

/-- `changed` marks the value as seen. -/
def markSeen : Watch α ρ :=
  { watch with seen := Function.update watch.seen receiver watch.version }

end Operations

/-- No receiver has seen a version that does not exist yet. -/
def Ordered (watch : Watch α ρ) : Prop := ∀ receiver, watch.seen receiver ≤ watch.version

theorem ordered_channel (value : α) : (channel value : Watch α ρ).Ordered := fun _ => Nat.le_refl 0

variable [DecidableEq ρ] {watch : Watch α ρ} {receiver : ρ}

theorem Ordered.subscribe (h : watch.Ordered) (receiver : ρ) :
    (watch.subscribe receiver).Ordered := by
  intro other
  simp only [Watch.subscribe, Function.update_apply]
  split
  · exact Nat.le_refl _
  · exact h other

theorem Ordered.markSeen (h : watch.Ordered) (receiver : ρ) :
    (watch.markSeen receiver).Ordered := by
  intro other
  simp only [Watch.markSeen, Function.update_apply]
  split
  · exact Nat.le_refl _
  · exact h other

theorem Ordered.send (h : watch.Ordered) (value : α) : (watch.send value).Ordered := by
  intro other
  unfold Watch.send
  split
  · exact h other
  · exact Nat.le_succ_of_le (h other)

theorem Ordered.unsubscribe (h : watch.Ordered) (receiver : ρ) :
    (watch.unsubscribe receiver).Ordered := h

theorem live_send {value : α} : (watch.send value).live = watch.live := by
  unfold send
  split <;> rfl

/-- A send reaches every live receiver. -/
theorem hasChanged_send (h : watch.Ordered) (hLive : receiver ∈ watch.live) (value : α) :
    (watch.send value).hasChanged receiver = true := by
  have hNonempty : watch.live ≠ ∅ := Finset.ne_empty_of_mem hLive
  have hSeen := h receiver
  simp only [send, if_neg hNonempty, hasChanged, decide_eq_true_eq]
  omega

/-- What others do to their receivers does not concern this one. -/
theorem hasChanged_subscribe_of_ne {other : ρ} (h : receiver ≠ other) :
    (watch.subscribe other).hasChanged receiver = watch.hasChanged receiver := by
  simp only [hasChanged, subscribe, Function.update_of_ne h]

theorem hasChanged_markSeen_of_ne {other : ρ} (h : receiver ≠ other) :
    (watch.markSeen other).hasChanged receiver = watch.hasChanged receiver := by
  simp only [hasChanged, markSeen, Function.update_of_ne h]

end Watch

end Eggserve.Transition
