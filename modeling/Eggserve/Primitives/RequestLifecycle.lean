import Mathlib.Order.Basic

/-! The state that a request body shares with its observers. -/
namespace Eggserve.Primitives

inductive BodyLifecycleState where
  | active
  | complete
  | abandoned
  | failed
  deriving DecidableEq, Repr

inductive RequestCancellationReason where
  | peerDisconnected
  | serverShutdown
  | connectionTimeout
  | transportFailure
  deriving DecidableEq, Repr

/-- What observers of a request can read. -/
structure RequestShared where
  bodyState : BodyLifecycleState := .active
  cancelled : Bool := false
  reason : Option RequestCancellationReason := none
  deriving DecidableEq, Repr

namespace RequestShared

def isBodyActive (shared : RequestShared) : Bool := shared.bodyState = .active

def isBodyTerminal (shared : RequestShared) : Bool := shared.bodyState ≠ .active

/-- The first cancellation wins. -/
def cancel (shared : RequestShared) (reason : RequestCancellationReason) : RequestShared :=
  if shared.cancelled then shared else { shared with cancelled := true, reason := some reason }

/-- The body state leaves `active` once; later marks do nothing. -/
def mark (shared : RequestShared) (state : BodyLifecycleState) : RequestShared :=
  if shared.isBodyActive then { shared with bodyState := state } else shared

def markComplete (shared : RequestShared) : RequestShared := shared.mark .complete

def markAbandoned (shared : RequestShared) : RequestShared := shared.mark .abandoned

def markFailedWithReason (shared : RequestShared) (reason : RequestCancellationReason) :
    RequestShared :=
  if shared.isBodyActive then (shared.mark .failed).cancel reason else shared

def markFailed (shared : RequestShared) : RequestShared :=
  shared.markFailedWithReason .transportFailure

theorem isBodyActive_markComplete (shared : RequestShared) :
    shared.markComplete.isBodyActive = false := by
  unfold markComplete mark
  split <;> simp_all [isBodyActive]

theorem isBodyActive_markFailed (shared : RequestShared) :
    shared.markFailed.isBodyActive = false := by
  unfold markFailed markFailedWithReason mark cancel
  split
  · split <;> simp [isBodyActive]
  · simp_all

theorem isBodyTerminal_iff {shared : RequestShared} :
    shared.isBodyTerminal = true ↔ shared.isBodyActive = false := by
  simp [isBodyTerminal, isBodyActive]

theorem bodyState_cancel (shared : RequestShared) (reason : RequestCancellationReason) :
    (shared.cancel reason).bodyState = shared.bodyState := by
  unfold cancel
  split <;> rfl

/-- A lifecycle fails only while it is active. -/
theorem bodyState_markFailedWithReason (shared : RequestShared)
    (reason : RequestCancellationReason) :
    (shared.markFailedWithReason reason).bodyState =
      if shared.bodyState = .active then .failed else shared.bodyState := by
  unfold markFailedWithReason isBodyActive
  by_cases hActive : shared.bodyState = .active
  · rw [if_pos (by simpa using hActive), if_pos hActive, bodyState_cancel, mark, isBodyActive,
      if_pos (by simpa using hActive)]
  · rw [if_neg (by simpa using hActive), if_neg hActive]

theorem bodyState_mark (shared : RequestShared) (state : BodyLifecycleState) :
    (shared.mark state).bodyState =
      if shared.bodyState = .active then state else shared.bodyState := by
  unfold mark isBodyActive
  by_cases hActive : shared.bodyState = .active
  · rw [if_pos (by simpa using hActive), if_pos hActive]
  · rw [if_neg (by simpa using hActive), if_neg hActive]

/-- A terminal lifecycle stays as it is. -/
theorem isBodyTerminal_markFailedWithReason {shared : RequestShared}
    (h : shared.isBodyTerminal = true) (reason : RequestCancellationReason) :
    (shared.markFailedWithReason reason).isBodyTerminal = true := by
  rw [markFailedWithReason, if_neg (by simp [isBodyTerminal_iff.mp h])]
  exact h

theorem isBodyTerminal_markAbandoned (shared : RequestShared) :
    shared.markAbandoned.isBodyTerminal = true := by
  have hState := bodyState_mark shared .abandoned
  rw [isBodyTerminal, decide_eq_true_eq, markAbandoned, hState]
  split
  · decide
  · assumption

end RequestShared

end Eggserve.Primitives
