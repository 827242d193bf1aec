import Mathlib.Logic.Function.Basic
import Mathlib.Logic.Relation
import Eggserve.Primitives.RequestLifecycle
import Eggserve.Transition.Machine

/-! Waiting for a request lifecycle. Every atomic load, exchange and mutex section
of a notifier or a waiter is one step, and the steps interleave freely. -/
namespace Eggserve.Primitives.Lifecycle
open Transition

/-- A notification cell with the wakers registered in it. -/
structure AsyncNotify (ω : Type) where
  generation : UInt64 := 0
  waiters : List ω := []
  deriving DecidableEq

namespace AsyncNotify

variable {ω : Type} [DecidableEq ω]

/-- `generation.fetch_add(1)`. -/
def advance (cell : AsyncNotify ω) : AsyncNotify ω :=
  { cell with generation := cell.generation + 1 }

/-- The critical section of `poll`, which keeps one waker of each task. -/
def register (cell : AsyncNotify ω) (waker : ω) : AsyncNotify ω :=
  if waker ∈ cell.waiters then cell else { cell with waiters := cell.waiters ++ [waker] }

/-- The critical section of `notify_waiters`. -/
def take (cell : AsyncNotify ω) : AsyncNotify ω := { cell with waiters := [] }

end AsyncNotify

/-- What can be waited for: a terminal body, or cancellation. -/
inductive Signal where
  | body
  | cancel
  deriving DecidableEq, Repr

/-- The operations that notify. -/
inductive Call where
  | markComplete
  | markAbandoned
  | markFailed
  | markFailedWithReason (reason : RequestCancellationReason)
  | cancel (reason : RequestCancellationReason)
  deriving DecidableEq, Repr

/-- What a body can be marked as. -/
abbrev TerminalState := { state : BodyLifecycleState // state ≠ .active }

/-- Where a notifier stands: what its next atomic operation is. `next` is the
cancellation that follows the notification of a failed body. -/
inductive NotifierPc (ω : Type) where
  | idle
  | exchange (target : TerminalState) (next : Option RequestCancellationReason)
  | swap (reason : RequestCancellationReason)
  | store (reason : RequestCancellationReason)
  | advance (signal : Signal) (next : Option RequestCancellationReason)
  | take (signal : Signal) (next : Option RequestCancellationReason)
  | wake (signal : Signal) (wakers : List ω) (next : Option RequestCancellationReason)
  deriving DecidableEq

/-- Where a waiter stands, with the generation its `Notified` holds. -/
inductive WaiterPc where
  | idle
  | check (signal : Signal)
  | snapshot (signal : Signal)
  | poll (signal : Signal) (generation : UInt64)
  | register (signal : Signal) (generation : UInt64)
  | reload (signal : Signal) (generation : UInt64)
  | parked (signal : Signal) (generation : UInt64)
  deriving DecidableEq

/-- The shared request state with everyone who works on it. -/
structure State (ι κ ω : Type) where
  shared : RequestShared
  notify : Signal → AsyncNotify ω
  notifier : ι → NotifierPc ω
  waiter : κ → WaiterPc
  /-- A wake that the waiter's task has not answered yet. -/
  woken : κ → Bool

inductive Action (ι κ : Type) where
  | call (n : ι) (call : Call)
  | notifier (n : ι)
  | wait (w : κ) (signal : Signal)
  | waiter (w : κ)
  /-- The executor polls a parked waiter, woken or not. -/
  | repoll (w : κ)
  /-- A parked waiter is dropped. -/
  | drop (w : κ)
  /-- The executor polls the task of an idle waiter. -/
  | rest (w : κ)

namespace State

variable {ι κ ω : Type}

/-- `is_body_terminal` and `is_cancelled`. -/
def flag (s : State ι κ ω) : Signal → Bool
  | .body => s.shared.isBodyTerminal
  | .cancel => s.shared.cancelled

section SetNotifier

variable [DecidableEq ι]

def setNotifier (s : State ι κ ω) (n : ι) (pc : NotifierPc ω) : State ι κ ω :=
  { s with notifier := Function.update s.notifier n pc }

variable (s : State ι κ ω) (n : ι) (pc : NotifierPc ω)

@[simp, grind =] theorem notifier_setNotifier (m : ι) :
    (s.setNotifier n pc).notifier m = if m = n then pc else s.notifier m :=
  Function.update_apply ..

theorem notifier_setNotifier_self : (s.setNotifier n pc).notifier n = pc :=
  Function.update_self ..

@[simp, grind =] theorem notify_setNotifier : (s.setNotifier n pc).notify = s.notify := rfl

@[simp, grind =] theorem woken_setNotifier : (s.setNotifier n pc).woken = s.woken := rfl

@[simp, grind =] theorem flag_setNotifier (signal : Signal) :
    (s.setNotifier n pc).flag signal = s.flag signal := by cases signal <;> rfl

end SetNotifier

section SetWaiter

variable [DecidableEq κ]

def setWaiter (s : State ι κ ω) (w : κ) (pc : WaiterPc) : State ι κ ω :=
  { s with waiter := Function.update s.waiter w pc }

variable (s : State ι κ ω) (w : κ) (pc : WaiterPc)

@[simp, grind =] theorem waiter_setWaiter (v : κ) :
    (s.setWaiter w pc).waiter v = if v = w then pc else s.waiter v :=
  Function.update_apply ..

@[simp, grind =] theorem notify_setWaiter : (s.setWaiter w pc).notify = s.notify := rfl

@[simp, grind =] theorem flag_setWaiter (signal : Signal) :
    (s.setWaiter w pc).flag signal = s.flag signal := by cases signal <;> rfl

end SetWaiter

section SetNotify

def setNotify (s : State ι κ ω) (signal : Signal) (cell : AsyncNotify ω) : State ι κ ω :=
  { s with notify := Function.update s.notify signal cell }

variable (s : State ι κ ω) (signal : Signal) (cell : AsyncNotify ω)

@[simp, grind =] theorem notify_setNotify (other : Signal) :
    (s.setNotify signal cell).notify other = if other = signal then cell else s.notify other :=
  Function.update_apply ..

@[simp, grind =] theorem notifier_setNotify : (s.setNotify signal cell).notifier = s.notifier := rfl

@[simp, grind =] theorem waiter_setNotify : (s.setNotify signal cell).waiter = s.waiter := rfl

@[simp, grind =] theorem flag_setNotify (other : Signal) :
    (s.setNotify signal cell).flag other = s.flag other := by cases other <;> rfl

end SetNotify

variable [DecidableEq ι] [DecidableEq κ] [DecidableEq ω]

/-- The first operation of a call. -/
def entry : Call → NotifierPc ω
  | .markComplete => .exchange ⟨.complete, by decide⟩ none
  | .markAbandoned => .exchange ⟨.abandoned, by decide⟩ none
  | .markFailed => .exchange ⟨.failed, by decide⟩ (some .transportFailure)
  | .markFailedWithReason reason => .exchange ⟨.failed, by decide⟩ (some reason)
  | .cancel reason => .swap reason

variable (waker : κ → ω)

/-- The next operation of a notifier. -/
def stepNotifier (s : State ι κ ω) (n : ι) : Option (State ι κ ω) :=
  match s.notifier n with
  | .idle => none
  | .exchange target next =>
      if s.shared.isBodyActive then
        some ({ s with shared := { s.shared with bodyState := target } }.setNotifier n
          (.advance .body next))
      else some (s.setNotifier n .idle)
  | .swap reason =>
      if s.shared.cancelled then some (s.setNotifier n .idle)
      else some ({ s with shared := { s.shared with cancelled := true } }.setNotifier n
        (.store reason))
  | .store reason =>
      some ({ s with shared := { s.shared with reason := some reason } }.setNotifier n
        (.advance .cancel none))
  | .advance signal next =>
      some ((s.setNotify signal (s.notify signal).advance).setNotifier n (.take signal next))
  | .take signal next =>
      some ((s.setNotify signal (s.notify signal).take).setNotifier n
        (.wake signal (s.notify signal).waiters next))
  | .wake signal (woken :: rest) next =>
      some ({ s with woken := fun w => waker w = woken || s.woken w }.setNotifier n
        (.wake signal rest next))
  | .wake _ [] (some reason) => some (s.setNotifier n (.swap reason))
  | .wake _ [] none => some (s.setNotifier n .idle)

/-- The next operation of a waiter. A `Notified` that is ready leads back to the check. -/
def stepWaiter (s : State ι κ ω) (w : κ) : Option (State ι κ ω) :=
  match s.waiter w with
  | .idle => none
  | .check signal => some (s.setWaiter w (if s.flag signal then .idle else .snapshot signal))
  | .snapshot signal => some (s.setWaiter w (.poll signal (s.notify signal).generation))
  | .poll signal generation =>
      some (s.setWaiter w (if (s.notify signal).generation ≠ generation then .check signal
        else .register signal generation))
  | .register signal generation =>
      some ((s.setNotify signal ((s.notify signal).register (waker w))).setWaiter w
        (.reload signal generation))
  | .reload signal generation =>
      some (s.setWaiter w (if (s.notify signal).generation ≠ generation then .check signal
        else .parked signal generation))
  | .parked _ _ => none

def step (s : State ι κ ω) : Action ι κ → Option (State ι κ ω)
  | .call n call => if s.notifier n = .idle then some (s.setNotifier n (entry call)) else none
  | .notifier n => s.stepNotifier waker n
  | .wait w signal => if s.waiter w = .idle then some (s.setWaiter w (.check signal)) else none
  | .waiter w => s.stepWaiter waker w
  | .repoll w =>
      match s.waiter w with
      | .parked signal generation =>
          some ({ s with woken := Function.update s.woken w false }.setWaiter w
            (.poll signal generation))
      | _ => none
  | .drop w =>
      match s.waiter w with
      | .parked _ _ => some (s.setWaiter w .idle)
      | _ => none
  | .rest w =>
      if s.waiter w = .idle then some { s with woken := Function.update s.woken w false } else none

/-- Fresh shared state, around a body that is active or already complete. -/
def Initial (s : State ι κ ω) : Prop :=
  (s.shared = {} ∨ s.shared = { bodyState := .complete }) ∧ (∀ signal, s.notify signal = {}) ∧
    (∀ n, s.notifier n = .idle) ∧ ∀ w, s.waiter w = .idle ∧ s.woken w = false

end State

/-! A call whose steps nobody interrupts is the sequential operation. -/

/-- The operation on the shared state that a call stands for. -/
def Call.apply (shared : RequestShared) : Call → RequestShared
  | .markComplete => shared.markComplete
  | .markAbandoned => shared.markAbandoned
  | .markFailed => shared.markFailed
  | .markFailedWithReason reason => shared.markFailedWithReason reason
  | .cancel reason => shared.cancel reason

/-- What the rest of a call makes of the shared state. -/
def NotifierPc.finish {ω : Type} (shared : RequestShared) : NotifierPc ω → RequestShared
  | .idle => shared
  | .exchange target next =>
      if shared.isBodyActive then
        let marked := { shared with bodyState := target }
        next.elim marked marked.cancel
      else shared
  | .swap reason => shared.cancel reason
  | .store reason => { shared with reason := some reason }
  | .advance _ next | .take _ next | .wake _ _ next => next.elim shared shared.cancel

section Alone

variable {ι κ ω : Type} [DecidableEq ι] [DecidableEq ω] {waker : κ → ω} {n : ι}
  {s s' : State ι κ ω}

omit [DecidableEq ω] in
theorem finish_entry (shared : RequestShared) (call : Call) :
    (State.entry call : NotifierPc ω).finish shared = call.apply shared := by
  cases hActive : shared.isBodyActive <;> cases call <;>
    simp [State.entry, NotifierPc.finish, Call.apply, RequestShared.markComplete,
      RequestShared.markAbandoned, RequestShared.markFailed, RequestShared.markFailedWithReason,
      RequestShared.mark, hActive]

/-- A step does the first part of the rest and leaves the remainder. -/
theorem finish_stepNotifier (hStep : s.stepNotifier waker n = some s') :
    (s'.notifier n).finish s'.shared = (s.notifier n).finish s.shared := by
  unfold State.stepNotifier at hStep
  split at hStep
  · cases hStep
  · rename_i target next hPc
    split at hStep <;> obtain rfl := Option.some.inj hStep <;>
      simp_all [State.setNotifier, NotifierPc.finish]
  · rename_i reason hPc
    split at hStep <;> obtain rfl := Option.some.inj hStep <;>
      simp_all [State.setNotifier, NotifierPc.finish, RequestShared.cancel]
  all_goals
    rename_i hPc
    obtain rfl := Option.some.inj hStep
    simp [State.setNotifier, State.setNotify, NotifierPc.finish, hPc]

/-- The notifier, left alone, comes to the end of its call. -/
def Returns (waker : κ → ω) (n : ι) (s : State ι κ ω) : Prop :=
  ∃ s', Relation.ReflTransGen (fun s s' => State.stepNotifier waker s n = some s') s s' ∧
    s'.notifier n = .idle

theorem Returns.of_step (hStep : s.stepNotifier waker n = some s')
    (hReturns : Returns waker n s') : Returns waker n s := by
  obtain ⟨done, hRun, hIdle⟩ := hReturns
  exact ⟨done, .head hStep hRun, hIdle⟩

theorem returns_idle (hPc : s.notifier n = .idle) : Returns waker n s := ⟨s, .refl, hPc⟩

/-- By induction on the wakers still to wake. -/
theorem returns_wake {signal : Signal} {wakers : List ω} {next : Option RequestCancellationReason}
    (hNext : ∀ reason, next = some reason →
      ∀ s : State ι κ ω, s.notifier n = .swap reason → Returns waker n s)
    (hPc : s.notifier n = .wake signal wakers next) : Returns waker n s := by
  induction wakers generalizing s with
  | nil =>
      cases next with
      | none =>
          have hStep : s.stepNotifier waker n = some (s.setNotifier n .idle) := by
            simp only [State.stepNotifier, hPc]
          exact .of_step hStep (returns_idle (State.notifier_setNotifier_self ..))
      | some reason =>
          have hStep : s.stepNotifier waker n = some (s.setNotifier n (.swap reason)) := by
            simp only [State.stepNotifier, hPc]
          exact .of_step hStep (hNext reason rfl _ (State.notifier_setNotifier_self ..))
  | cons woken rest ih =>
      have hStep : s.stepNotifier waker n =
          some ({ s with woken := fun w => waker w = woken || s.woken w }.setNotifier n
            (.wake signal rest next)) := by
        simp only [State.stepNotifier, hPc]
      exact .of_step hStep (ih (State.notifier_setNotifier_self ..))

theorem returns_take {signal : Signal} {next : Option RequestCancellationReason}
    (hNext : ∀ reason, next = some reason →
      ∀ s : State ι κ ω, s.notifier n = .swap reason → Returns waker n s)
    (hPc : s.notifier n = .take signal next) : Returns waker n s := by
  have hStep : s.stepNotifier waker n =
      some ((s.setNotify signal (s.notify signal).take).setNotifier n
        (.wake signal (s.notify signal).waiters next)) := by
    simp only [State.stepNotifier, hPc]
  exact .of_step hStep (returns_wake hNext (State.notifier_setNotifier_self ..))

theorem returns_advance {signal : Signal} {next : Option RequestCancellationReason}
    (hNext : ∀ reason, next = some reason →
      ∀ s : State ι κ ω, s.notifier n = .swap reason → Returns waker n s)
    (hPc : s.notifier n = .advance signal next) : Returns waker n s := by
  have hStep : s.stepNotifier waker n =
      some ((s.setNotify signal (s.notify signal).advance).setNotifier n
        (.take signal next)) := by
    simp only [State.stepNotifier, hPc]
  exact .of_step hStep (returns_take hNext (State.notifier_setNotifier_self ..))

theorem returns_store {reason : RequestCancellationReason} (hPc : s.notifier n = .store reason) :
    Returns waker n s := by
  have hStep : s.stepNotifier waker n =
      some ({ s with shared := { s.shared with reason := some reason } }.setNotifier n
        (.advance .cancel none)) := by
    simp only [State.stepNotifier, hPc]
  exact .of_step hStep (returns_advance (fun _ hNone => by cases hNone) (State.notifier_setNotifier_self ..))

theorem returns_swap {reason : RequestCancellationReason} (hPc : s.notifier n = .swap reason) :
    Returns waker n s := by
  cases hCancelled : s.shared.cancelled with
  | true =>
      have hStep : s.stepNotifier waker n = some (s.setNotifier n .idle) := by
        simp only [State.stepNotifier, hPc, hCancelled, ↓reduceIte]
      exact .of_step hStep (returns_idle (State.notifier_setNotifier_self ..))
  | false =>
      have hStep : s.stepNotifier waker n =
          some ({ s with shared := { s.shared with cancelled := true } }.setNotifier n
            (.store reason)) := by
        simp only [State.stepNotifier, hPc, hCancelled, Bool.false_eq_true, ↓reduceIte]
      exact .of_step hStep (returns_store (State.notifier_setNotifier_self ..))

theorem returns_exchange {target : TerminalState} {next : Option RequestCancellationReason}
    (hPc : s.notifier n = .exchange target next) : Returns waker n s := by
  cases hActive : s.shared.isBodyActive with
  | true =>
      have hStep : s.stepNotifier waker n =
          some ({ s with shared := { s.shared with bodyState := target } }.setNotifier n
            (.advance .body next)) := by
        simp only [State.stepNotifier, hPc, hActive, ↓reduceIte]
      exact .of_step hStep (returns_advance (fun _ _ _ hSwap => returns_swap hSwap) (State.notifier_setNotifier_self ..))
  | false =>
      have hStep : s.stepNotifier waker n = some (s.setNotifier n .idle) := by
        simp only [State.stepNotifier, hPc, hActive, Bool.false_eq_true, ↓reduceIte]
      exact .of_step hStep (returns_idle (State.notifier_setNotifier_self ..))

theorem returns_entry (call : Call) (hPc : s.notifier n = State.entry call) :
    Returns waker n s := by
  cases call with
  | cancel reason => exact returns_swap hPc
  | _ => exact returns_exchange hPc

/-- Left alone, a call returns, and has done to the shared state what the sequential
operation does. -/
theorem call_alone (waker : κ → ω) (n : ι) (s : State ι κ ω) (call : Call) :
    ∃ s', Relation.ReflTransGen (fun s s' => State.stepNotifier waker s n = some s')
        (s.setNotifier n (State.entry call)) s' ∧
      s'.notifier n = .idle ∧ s'.shared = call.apply s.shared := by
  have hReturns : Returns waker n (s.setNotifier n (State.entry call)) :=
    returns_entry call (State.notifier_setNotifier_self ..)
  obtain ⟨s', hRun, hIdle⟩ := hReturns
  refine ⟨s', hRun, hIdle, ?_⟩
  have hFinish : (s'.notifier n).finish s'.shared =
      ((s.setNotifier n (State.entry call)).notifier n).finish
        (s.setNotifier n (State.entry call)).shared := by
    clear hIdle
    induction hRun with
    | refl => rfl
    | tail _ hStep ih => exact (finish_stepNotifier hStep).trans ih
  rw [hIdle, State.notifier_setNotifier_self] at hFinish
  exact hFinish.trans (finish_entry s.shared call)

end Alone

/-- The lifecycle with the waker that each waiter's task polls with. -/
def machine {ι κ ω : Type} [DecidableEq ι] [DecidableEq κ] [DecidableEq ω] (waker : κ → ω) :
    Transition.Machine (State ι κ ω) (Action ι κ) where
  Initial := State.Initial
  step := State.step waker

end Eggserve.Primitives.Lifecycle
