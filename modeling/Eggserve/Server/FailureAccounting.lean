import Eggserve.Primitives.CancelReason

/-! The accounting of failures. The body-timeout watchdog and the calls that cancel
with observability look at the shared state, act on it in a second operation, and
count. Every atomic operation is a step of its own. -/
namespace Eggserve.Server
open Primitives Primitives.Lifecycle Transition

/-- Who works on a request: its watchdog, the consumers of its body, and the calls
of `cancel_shared_with_observability`, with those that `cancel_all` makes. -/
inductive Party (ι κ : Type) where
  | watchdog
  | consumer (i : ι)
  | cancelCall (k : κ)
  deriving DecidableEq

/-- Where the watchdog stands: in its `select`, at the load of `is_body_active`, in
`mark_failed_with_reason`, at the two counters, or at `fire_body_timeout`. -/
inductive WatchdogPc where
  | waiting
  | check
  | failing
  | countRead
  | countDeferred
  | fire
  | done
  deriving DecidableEq, Repr

/-- Where a cancel call stands: at the load of `is_cancelled`, in `cancel`, at the
counter for its reason, or at its end with the value returned. -/
inductive CancelPc where
  | fresh
  | check (reason : RequestCancellationReason)
  | cancelling (reason : RequestCancellationReason)
  | count (reason : RequestCancellationReason)
  | returned (reason : RequestCancellationReason) (value : Bool)
  deriving DecidableEq, Repr

/-- The counters that a timeout moves, with the calls of `fire_body_timeout`. -/
structure Timeouts where
  bodyReadTimeouts : Nat := 0
  deferredBodyTimeouts : Nat := 0
  fired : Nat := 0
  deriving DecidableEq, Repr

/-- The counters of `cancel_shared_with_observability`. -/
structure Cancels where
  peerDisconnects : Nat := 0
  runtimeCancels : Nat := 0
  deriving DecidableEq, Repr

/-- The counter that a reason moves. -/
def Cancels.add (cancels : Cancels) (reason : RequestCancellationReason) : Cancels :=
  if reason = .peerDisconnected then
    { cancels with peerDisconnects := cancels.peerDisconnects + 1 }
  else { cancels with runtimeCancels := cancels.runtimeCancels + 1 }

/-- A request with all who work on it. The last two fields are the history of a
run: whether the watchdog's own exchange moved the body, and the cancellations that
took effect. -/
structure Accounts (ι κ μ ω : Type) where
  lifecycle : State (Party ι κ) μ ω
  watchdog : WatchdogPc
  cancelCall : κ → CancelPc
  timeouts : Timeouts
  cancels : Cancels
  expired : Bool
  winners : List (Party ι κ × RequestCancellationReason)

inductive AccountsAction (ι κ μ : Type) where
  | lifecycle (action : Action (Party ι κ) μ)
  /-- The deadline of the watchdog passes. -/
  | expire
  /-- The watchdog sees a terminal body and ends. -/
  | observe
  | watchdog
  | cancelShared (k : κ) (reason : RequestCancellationReason)
  | cancelCall (k : κ)

/-- The steps on the shared state that are not the start of a call of the watchdog
or of a cancel call: consumers call, everyone goes on, and waiters wait. -/
def isOpen {ι κ μ : Type} : Action (Party ι κ) μ → Bool
  | .call (.consumer _) .markComplete => true
  | .call (.consumer _) .markAbandoned => true
  | .call (.consumer _) .markFailed => true
  | .call _ _ => false
  | _ => true

namespace Accounts

variable {ι κ μ ω : Type} [DecidableEq ι] [DecidableEq κ] [DecidableEq μ] [DecidableEq ω]

/-- Who wins with the next operation, and with which reason. -/
def winner (s : State (Party ι κ) μ ω) (action : Action (Party ι κ) μ) :
    Option (Party ι κ × RequestCancellationReason) :=
  match action with
  | .notifier party => (Observed.winning s action).map (party, ·)
  | _ => none

/-- The watchdog's exchange is next, and finds the body active. -/
def expires (s : State (Party ι κ) μ ω) : Action (Party ι κ) μ → Bool
  | .notifier .watchdog =>
      match s.notifier .watchdog with
      | .exchange _ _ => s.shared.isBodyActive
      | _ => false
  | _ => false

def setCancelCall (s : Accounts ι κ μ ω) (k : κ) (pc : CancelPc) : Accounts ι κ μ ω :=
  { s with cancelCall := Function.update s.cancelCall k pc }

variable (waker : μ → ω)

def stepWatchdog (s : Accounts ι κ μ ω) : Option (Accounts ι κ μ ω) :=
  match s.watchdog with
  | .waiting => none
  | .check =>
      if s.lifecycle.shared.isBodyActive then
        (s.lifecycle.step waker (.call .watchdog (.markFailedWithReason .connectionTimeout))).map
          fun after => { s with lifecycle := after, watchdog := .failing }
      else some { s with watchdog := .done }
  -- The result of `mark_failed_with_reason` is dropped.
  | .failing =>
      if s.lifecycle.notifier .watchdog = .idle then some { s with watchdog := .countRead } else none
  | .countRead =>
      some { s with
        watchdog := .countDeferred
        timeouts := { s.timeouts with bodyReadTimeouts := s.timeouts.bodyReadTimeouts + 1 } }
  | .countDeferred =>
      some { s with
        watchdog := .fire
        timeouts := { s.timeouts with
          deferredBodyTimeouts := s.timeouts.deferredBodyTimeouts + 1 } }
  | .fire =>
      some { s with
        watchdog := .done
        timeouts := { s.timeouts with fired := s.timeouts.fired + 1 } }
  | .done => none

def stepCancelCall (s : Accounts ι κ μ ω) (k : κ) : Option (Accounts ι κ μ ω) :=
  match s.cancelCall k with
  | .fresh => none
  | .check reason =>
      if s.lifecycle.shared.cancelled then some (s.setCancelCall k (.returned reason false))
      else
        (s.lifecycle.step waker (.call (.cancelCall k) (.cancel reason))).map
          fun after => { s with lifecycle := after }.setCancelCall k (.cancelling reason)
  -- `cancel` does not tell whether it took effect.
  | .cancelling reason =>
      if s.lifecycle.notifier (.cancelCall k) = .idle then
        some (s.setCancelCall k (.count reason))
      else none
  | .count reason =>
      some ({ s with cancels := s.cancels.add reason }.setCancelCall k (.returned reason true))
  | .returned _ _ => none

def step (s : Accounts ι κ μ ω) : AccountsAction ι κ μ → Option (Accounts ι κ μ ω)
  | .lifecycle action =>
      if isOpen action then
        (s.lifecycle.step waker action).map fun after =>
          { s with
            lifecycle := after
            expired := s.expired || expires s.lifecycle action
            winners := (winner s.lifecycle action).toList ++ s.winners }
      else none
  | .expire => if s.watchdog = .waiting then some { s with watchdog := .check } else none
  | .observe =>
      if s.watchdog = .waiting ∧ s.lifecycle.shared.isBodyTerminal then
        some { s with watchdog := .done }
      else none
  | .watchdog => s.stepWatchdog waker
  | .cancelShared k reason =>
      if s.cancelCall k = .fresh then some (s.setCancelCall k (.check reason)) else none
  | .cancelCall k => s.stepCancelCall waker k

def machine : Transition.Machine (Accounts ι κ μ ω) (AccountsAction ι κ μ) where
  Initial s := s.lifecycle.Initial ∧ s.watchdog = .waiting ∧ (∀ k, s.cancelCall k = .fresh) ∧
    s.timeouts = {} ∧ s.cancels = {} ∧ s.expired = false ∧ s.winners = []
  step := step waker

/-- Somebody else has been faster: the watchdog's exchange comes after the body left
`active`, or the swap of a cancel call after another cancellation. -/
def Overtaken (s : Accounts ι κ μ ω) : AccountsAction ι κ μ → Prop
  | .lifecycle (.notifier .watchdog) =>
      (∃ target next, s.lifecycle.notifier .watchdog = .exchange target next) ∧
        s.lifecycle.shared.isBodyActive = false
  | .lifecycle (.notifier (.cancelCall k)) =>
      (∃ reason, s.lifecycle.notifier (.cancelCall k) = .swap reason) ∧
        s.lifecycle.shared.cancelled = true
  | _ => False

/-- Timeouts are counted once, and only where the watchdog itself failed the body;
a cancellation is counted once, by the call that took effect. -/
structure CountedOnce (s : Accounts ι κ μ ω) : Prop where
  timedOut : s.timeouts ≠ {} → s.expired = true
  once : s.timeouts.bodyReadTimeouts ≤ 1 ∧ s.timeouts.deferredBodyTimeouts ≤ 1 ∧
    s.timeouts.fired ≤ 1
  completed : s.lifecycle.shared.bodyState = .complete → s.timeouts = {}
  effective : ∀ k reason, s.cancelCall k = .returned reason true →
    s.winners = [(.cancelCall k, reason)] ∧ s.lifecycle.shared.reason = some reason
  counted : s.cancels = {} ∨ ∃ k reason, s.cancelCall k = .returned reason true ∧
    s.cancels = Cancels.add {} reason

/-! What a step on the shared state does to the parties and to the body. -/

variable {waker}

omit [DecidableEq μ] in
theorem notifier_stepNotifier {ν : Type} [DecidableEq ν] {s after : State ν μ ω} {n : ν}
    (h : s.stepNotifier waker n = some after) :
    ∃ pc, after.notifier = Function.update s.notifier n pc := by
  unfold State.stepNotifier at h
  split at h
  · cases h
  · split at h <;> cases h <;> exact ⟨_, rfl⟩
  · split at h <;> cases h <;> exact ⟨_, rfl⟩
  all_goals
    cases h
    exact ⟨_, rfl⟩

/-- Nobody moves another one's call. -/
theorem notifier_step {ν : Type} [DecidableEq ν] {s after : State ν μ ω} {action : Action ν μ}
    {n : ν} (h : s.step waker action = some after) (hCall : ∀ call, action ≠ .call n call)
    (hOwn : action ≠ .notifier n) : after.notifier n = s.notifier n := by
  cases action with
  | call m call =>
      obtain ⟨-, rfl⟩ := enabled_iff.mp h
      have hNe : n ≠ m := by
        rintro rfl
        exact hCall call rfl
      rw [State.notifier_setNotifier, if_neg hNe]
  | notifier m =>
      obtain ⟨pc, hAfter⟩ := notifier_stepNotifier h
      have hNe : n ≠ m := by
        rintro rfl
        exact hOwn rfl
      rw [hAfter, Function.update_of_ne hNe]
  | wait w signal =>
      obtain ⟨-, rfl⟩ := enabled_iff.mp h
      rfl
  | waiter w =>
      simp only [State.step, State.stepWaiter] at h
      split at h <;> cases h <;> rfl
  | repoll w =>
      simp only [State.step] at h
      split at h <;> cases h
      rfl
  | drop w =>
      simp only [State.step] at h
      split at h <;> cases h
      rfl
  | rest w =>
      obtain ⟨-, rfl⟩ := enabled_iff.mp h
      rfl

/-- The body moves only by an exchange that finds it active. -/
theorem bodyState_step {ν : Type} [DecidableEq ν] {s after : State ν μ ω} {action : Action ν μ}
    (h : s.step waker action = some after) :
    after.shared.bodyState = s.shared.bodyState ∨
      ∃ n target next, action = .notifier n ∧ s.notifier n = .exchange target next ∧
        s.shared.isBodyActive = true ∧ after.shared.bodyState = target.1 := by
  cases action with
  | call m call =>
      obtain ⟨-, rfl⟩ := enabled_iff.mp h
      exact .inl rfl
  | notifier n =>
      simp only [State.step] at h
      unfold State.stepNotifier at h
      split at h
      · cases h
      · rename_i target next hPc
        split at h <;> rename_i hActive <;> cases h
        · exact .inr ⟨n, target, next, rfl, hPc, hActive, rfl⟩
        · exact .inl rfl
      · split at h <;> cases h <;> exact .inl rfl
      all_goals
        cases h
        exact .inl rfl
  | wait w signal =>
      obtain ⟨-, rfl⟩ := enabled_iff.mp h
      exact .inl rfl
  | waiter w =>
      simp only [State.step, State.stepWaiter] at h
      split at h <;> cases h <;> exact .inl rfl
  | repoll w =>
      simp only [State.step] at h
      split at h <;> cases h
      exact .inl rfl
  | drop w =>
      simp only [State.step] at h
      split at h <;> cases h
      exact .inl rfl
  | rest w =>
      obtain ⟨-, rfl⟩ := enabled_iff.mp h
      exact .inl rfl

/-- Whoever wins stands before the store of the reason. -/
theorem winner_eq_some {s after : State (Party ι κ) μ ω} {action : Action (Party ι κ) μ}
    {party : Party ι κ} {reason : RequestCancellationReason}
    (h : s.step waker action = some after) (hWinner : winner s action = some (party, reason)) :
    action = .notifier party ∧ s.notifier party = .swap reason ∧ s.shared.cancelled = false ∧
      after.notifier party = .store reason := by
  unfold winner at hWinner
  split at hWinner
  · rename_i other
    obtain ⟨found, hWins, hPair⟩ := Option.map_eq_some_iff.mp hWinner
    cases hPair
    simp only [Observed.winning] at hWins
    split at hWins
    · rename_i pending hPc
      split at hWins
      · cases hWins
      · rename_i hCancelled
        cases hWins
        simp only [State.step, State.stepNotifier, hPc, if_neg hCancelled] at h
        cases h
        exact ⟨rfl, hPc, by simpa using hCancelled, State.notifier_setNotifier_self ..⟩
    · cases hWins
  · cases hWinner

omit [DecidableEq ι] [DecidableEq κ] [DecidableEq μ] [DecidableEq ω] in
theorem winning_of_winner (s : State (Party ι κ) μ ω) (action : Action (Party ι κ) μ) :
    (winner s action).map Prod.snd = Observed.winning s action := by
  cases action with
  | notifier party =>
      rw [winner, Option.map_map]
      exact Option.map_id'
  | _ => rfl

/-! The invariant of a run. -/

def WatchdogOk (s : Accounts ι κ μ ω) : Prop :=
  match s.watchdog with
  | .waiting => (s.lifecycle.notifier .watchdog = .idle ∧ s.expired = false) ∧ s.timeouts = {}
  | .check => (s.lifecycle.notifier .watchdog = .idle ∧ s.expired = false) ∧ s.timeouts = {}
  | .failing =>
      (s.expired = true ∨ s.expired = false ∧ s.lifecycle.notifier .watchdog =
        State.entry (.markFailedWithReason .connectionTimeout)) ∧ s.timeouts = {}
  | .countRead => s.expired = true ∧ s.timeouts = {}
  | .countDeferred => s.expired = true ∧ s.timeouts = ⟨1, 0, 0⟩
  | .fire => s.expired = true ∧ s.timeouts = ⟨1, 1, 0⟩
  | .done => s.expired = true ∧ s.timeouts = ⟨1, 1, 1⟩ ∨
      (s.lifecycle.notifier .watchdog = .idle ∧ s.expired = false) ∧ s.timeouts = {}

/-- The call has not taken effect. -/
def NotWon (s : Accounts ι κ μ ω) (k : κ) : Prop := ∀ reason, (.cancelCall k, reason) ∉ s.winners

/-- The call has taken effect, and its reason is the one to be read. -/
def Won (s : Accounts ι κ μ ω) (k : κ) (reason : RequestCancellationReason) : Prop :=
  (.cancelCall k, reason) ∈ s.winners ∧ s.lifecycle.shared.reason = some reason

def CancelOk (s : Accounts ι κ μ ω) (k : κ) : CancelPc → Prop
  | .fresh => s.lifecycle.notifier (.cancelCall k) = .idle ∧ s.NotWon k
  | .check _ => s.lifecycle.notifier (.cancelCall k) = .idle ∧ s.NotWon k
  | .cancelling reason => (.cancelCall k, reason) ∈ s.winners ∨
      s.lifecycle.notifier (.cancelCall k) = .swap reason ∧ s.NotWon k
  | .count reason => s.Won k reason
  | .returned reason value => value = true → s.Won k reason

/-- Nothing is counted and no call has returned `true`, or one of them has been
counted. -/
def Counted (cancels : Cancels) (cancelCall : κ → CancelPc) : Prop :=
  cancels = {} ∧ (∀ k reason, cancelCall k ≠ .returned reason true) ∨
    ∃ k reason, cancelCall k = .returned reason true ∧ cancels = Cancels.add {} reason

structure Sound (s : Accounts ι κ μ ω) : Prop where
  watchdog : s.WatchdogOk
  failed : s.expired = true → s.lifecycle.shared.bodyState = .failed
  phase : Observed.Phase s.lifecycle (s.winners.map Prod.snd)
  holder : ∀ party reason, (party, reason) ∈ s.winners →
    s.lifecycle.shared.reason = some reason ∨ s.lifecycle.notifier party = .store reason
  calls : ∀ k, s.CancelOk k (s.cancelCall k)
  counted : Counted s.cancels s.cancelCall

theorem sound_initial {s : Accounts ι κ μ ω} (hInitial : (machine waker).Initial s) : s.Sound := by
  obtain ⟨⟨hShared, -, hIdle, -⟩, hWatchdog, hFresh, hTimeouts, hCancels, hExpired, hWinners⟩ :=
    hInitial
  have hQuiet : s.lifecycle.shared.cancelled = false ∧ s.lifecycle.shared.reason = none := by
    rcases hShared with hShared | hShared <;> rw [hShared] <;> exact ⟨rfl, rfl⟩
  have hStore : ¬Observed.Unpublished s.lifecycle := by
    rintro ⟨n, reason, hPc⟩
    rw [hIdle n] at hPc
    cases hPc
  refine ⟨?_, ?_, ?_, ?_, ?_, ?_⟩
  · rw [WatchdogOk, hWatchdog]
    exact ⟨⟨hIdle _, hExpired⟩, hTimeouts⟩
  · simp [hExpired]
  · rw [hWinners]
    exact .quiet hQuiet.1 rfl hQuiet.2 hStore
  · simp [hWinners]
  · intro k
    rw [hFresh k]
    exact ⟨hIdle _, by simp [NotWon, hWinners]⟩
  · exact .inl ⟨hCancels, fun k reason => by simp [hFresh k]⟩

/-! Steps on the shared state. -/

omit [DecidableEq ι] [DecidableEq κ] [DecidableEq μ] [DecidableEq ω] in
theorem not_isOpen_call {party : Party ι κ} {call : Call}
    (hParty : ∀ i, party ≠ .consumer i) :
    isOpen (.call party call : Action (Party ι κ) μ) = false := by
  cases party with
  | consumer i => exact absurd rfl (hParty i)
  | watchdog => rfl
  | cancelCall k => rfl

/-- Between its calls a party stays idle. -/
theorem idle_step {s after : State (Party ι κ) μ ω} {action : Action (Party ι κ) μ}
    {party : Party ι κ} (hParty : ∀ i, party ≠ .consumer i) (hOpen : isOpen action = true)
    (h : s.step waker action = some after) (hIdle : s.notifier party = .idle) :
    after.notifier party = .idle ∧ action ≠ .notifier party := by
  have hOwn : action ≠ .notifier party := by
    rintro rfl
    simp [State.step, State.stepNotifier, hIdle] at h
  have hCall : ∀ call, action ≠ .call party call := by
    rintro call rfl
    rw [not_isOpen_call hParty] at hOpen
    cases hOpen
  exact ⟨(notifier_step h hCall hOwn).trans hIdle, hOwn⟩

omit [DecidableEq ι] [DecidableEq κ] [DecidableEq μ] [DecidableEq ω] in
theorem expires_eq_true {s : State (Party ι κ) μ ω} {action : Action (Party ι κ) μ} :
    expires s action = true ↔ action = .notifier .watchdog ∧
      (∃ target next, s.notifier .watchdog = .exchange target next) ∧
      s.shared.isBodyActive = true := by
  unfold expires
  split
  · split
    · rename_i target next hPc
      simp [hPc]
    · rename_i hPc
      constructor
      · intro h
        cases h
      · rintro ⟨-, ⟨target, next, hExchange⟩, -⟩
        exact absurd hExchange (hPc target next)
  · rename_i hAction
    constructor
    · intro h
      cases h
    · rintro ⟨rfl, -⟩
      exact absurd rfl hAction

/-- The watchdog that is idle does not expire. -/
theorem unexpired_step {s after : State (Party ι κ) μ ω} {action : Action (Party ι κ) μ}
    (hOpen : isOpen action = true) (h : s.step waker action = some after)
    (hIdle : s.notifier .watchdog = .idle) :
    after.notifier .watchdog = .idle ∧ expires s action = false := by
  obtain ⟨hAfter, hOwn⟩ := idle_step (by simp) hOpen h hIdle
  refine ⟨hAfter, Bool.eq_false_iff.mpr fun hExpires => ?_⟩
  exact hOwn (expires_eq_true.mp hExpires).1

/-- The state after a step on the shared state. -/
def recorded (s : Accounts ι κ μ ω) (action : Action (Party ι κ) μ)
    (after : State (Party ι κ) μ ω) : Accounts ι κ μ ω :=
  { s with
    lifecycle := after
    expired := s.expired || expires s.lifecycle action
    winners := (winner s.lifecycle action).toList ++ s.winners }

section Recorded

variable {s : Accounts ι κ μ ω} {action : Action (Party ι κ) μ} {after : State (Party ι κ) μ ω}

theorem watchdogOk_recorded (h : s.WatchdogOk) (hOpen : isOpen action = true)
    (hGuard : ¬s.Overtaken (.lifecycle action))
    (hStep : s.lifecycle.step waker action = some after) :
    (s.recorded action after).WatchdogOk := by
  have hStays : s.expired = true → (s.recorded action after).expired = true := by
    intro hExpired
    simp [recorded, hExpired]
  have hIdle : s.lifecycle.notifier .watchdog = .idle ∧ s.expired = false →
      (s.recorded action after).lifecycle.notifier .watchdog = .idle ∧
        (s.recorded action after).expired = false := by
    rintro ⟨hIdle, hExpired⟩
    obtain ⟨hAfter, hNot⟩ := unexpired_step hOpen hStep hIdle
    exact ⟨hAfter, by simp [recorded, hExpired, hNot]⟩
  unfold WatchdogOk at h ⊢
  have hPc : (s.recorded action after).watchdog = s.watchdog := rfl
  have hTimeouts : (s.recorded action after).timeouts = s.timeouts := rfl
  rw [hPc, hTimeouts]
  split <;> rename_i hWatchdog <;> rw [hWatchdog] at h <;> dsimp only at h
  · exact ⟨hIdle h.1, h.2⟩
  · exact ⟨hIdle h.1, h.2⟩
  · refine ⟨?_, h.2⟩
    rcases h.1 with hExpired | ⟨hExpired, hEntry⟩
    · exact .inl (hStays hExpired)
    · by_cases hOwn : action = .notifier .watchdog
      · subst hOwn
        have hActive : s.lifecycle.shared.isBodyActive = true :=
          eq_true_of_ne_false fun hNot => hGuard ⟨⟨_, _, hEntry⟩, hNot⟩
        left
        simp [recorded, expires_eq_true.mpr ⟨rfl, ⟨_, _, hEntry⟩, hActive⟩]
      · have hCall : ∀ call, action ≠ .call .watchdog call := by
          rintro call rfl
          rw [not_isOpen_call (by simp)] at hOpen
          cases hOpen
        have hNot : expires s.lifecycle action = false :=
          Bool.eq_false_iff.mpr fun hExpires => hOwn (expires_eq_true.mp hExpires).1
        right
        exact ⟨by simp [recorded, hExpired, hNot], (notifier_step hStep hCall hOwn).trans hEntry⟩
  · exact ⟨hStays h.1, h.2⟩
  · exact ⟨hStays h.1, h.2⟩
  · exact ⟨hStays h.1, h.2⟩
  · rcases h with ⟨hExpired, hCounted⟩ | ⟨hQuiet, hNone⟩
    · exact .inl ⟨hStays hExpired, hCounted⟩
    · exact .inr ⟨hIdle hQuiet, hNone⟩

theorem failed_recorded (h : s.Sound) (hStep : s.lifecycle.step waker action = some after)
    (hExpired : (s.recorded action after).expired = true) :
    after.shared.bodyState = .failed := by
  rw [recorded, Bool.or_eq_true] at hExpired
  rcases hExpired with hBefore | hNow
  · have hFailed := h.failed hBefore
    rcases bodyState_step hStep with hSame | ⟨n, target, next, -, -, hActive, -⟩
    · exact hSame.trans hFailed
    · simp [RequestShared.isBodyActive, hFailed] at hActive
  · obtain ⟨rfl, ⟨target, next, hPc⟩, hActive⟩ := expires_eq_true.mp hNow
    have hTarget : target.1 = .failed := by
      have hWatchdog := h.watchdog
      unfold WatchdogOk at hWatchdog
      have hIdle : ¬(s.lifecycle.notifier .watchdog = .idle ∧ s.expired = false) := by
        rintro ⟨hIdle, -⟩
        rw [hPc] at hIdle
        cases hIdle
      have hNot : s.expired ≠ true := by
        intro hBefore
        simp [RequestShared.isBodyActive, h.failed hBefore] at hActive
      split at hWatchdog
      · exact absurd hWatchdog.1 hIdle
      · exact absurd hWatchdog.1 hIdle
      · rcases hWatchdog.1 with hBefore | ⟨-, hEntry⟩
        · exact absurd hBefore hNot
        · rw [hPc, State.entry, NotifierPc.exchange.injEq] at hEntry
          rw [hEntry.1]
      · exact absurd hWatchdog.1 hNot
      · exact absurd hWatchdog.1 hNot
      · exact absurd hWatchdog.1 hNot
      · rcases hWatchdog with ⟨hBefore, -⟩ | ⟨hQuiet, -⟩
        · exact absurd hBefore hNot
        · exact absurd hQuiet hIdle
    rcases bodyState_step hStep with hSame | ⟨n, moved, rest, hAction, hOther, -, hAfter⟩
    · simp only [State.step, State.stepNotifier, hPc, if_pos hActive] at hStep
      cases hStep
      exact hTarget
    · cases hAction
      rw [hPc, NotifierPc.exchange.injEq] at hOther
      rw [hAfter, ← hOther.1, hTarget]

theorem phase_recorded (h : s.Sound) (hStep : s.lifecycle.step waker action = some after) :
    Observed.Phase after ((s.recorded action after).winners.map Prod.snd) := by
  have hPhase := Observed.phase_step h.phase hStep
  rw [← winning_of_winner] at hPhase
  rw [recorded, List.map_append, ← Option.toList_map]
  exact hPhase

omit [DecidableEq ι] [DecidableEq κ] [DecidableEq μ] [DecidableEq ω] in
/-- Nobody wins twice. -/
theorem winners_eq_singleton {winners : List (Party ι κ × RequestCancellationReason)}
    {lifecycle : State (Party ι κ) μ ω} (h : Observed.Phase lifecycle (winners.map Prod.snd))
    {entry : Party ι κ × RequestCancellationReason} (hEntry : entry ∈ winners) :
    winners = [entry] := by
  have hSingle : ∀ reason, winners.map Prod.snd = [reason] → winners = [entry] := by
    intro reason hMap
    obtain ⟨only, rfl, -⟩ := List.map_eq_singleton_iff.mp hMap
    rw [List.mem_singleton.mp hEntry]
  cases h with
  | quiet _ hNone =>
      rw [List.map_eq_nil_iff.mp hNone] at hEntry
      cases hEntry
  | claimed _ reason _ hOne => exact hSingle reason hOne
  | published reason _ hOne => exact hSingle reason hOne

theorem holder_recorded (h : s.Sound) (hStep : s.lifecycle.step waker action = some after)
    (party : Party ι κ) (reason : RequestCancellationReason)
    (hMem : (party, reason) ∈ (s.recorded action after).winners) :
    after.shared.reason = some reason ∨ after.notifier party = .store reason := by
  rw [recorded, List.mem_append, Option.mem_toList] at hMem
  rcases hMem with hNow | hBefore
  · exact .inr (winner_eq_some hStep hNow).2.2.2
  · rcases h.holder party reason hBefore with hReason | hStore
    · exact .inl (Observed.reason_step h.phase hStep hReason).1
    · cases Observed.publication_step hStep with
      | flips n other _ hNotCancelled =>
          cases h.phase with
          | quiet _ _ _ hNone => exact absurd ⟨party, reason, hStore⟩ hNone
          | claimed _ _ hCancelled => cases hNotCancelled.symm.trans hCancelled
          | published _ hCancelled => cases hNotCancelled.symm.trans hCancelled
      | stores n other _ hPc _ hReason =>
          cases h.phase with
          | quiet _ _ _ hNone => exact absurd ⟨party, reason, hStore⟩ hNone
          | published _ _ _ _ hNone => exact absurd ⟨party, reason, hStore⟩ hNone
          | claimed m won _ _ _ hOnly =>
              obtain ⟨-, rfl⟩ := (hOnly n other).mp hPc
              obtain ⟨-, rfl⟩ := (hOnly party reason).mp hStore
              exact .inl hReason
      | neither _ _ _ hSame => exact .inr ((hSame party reason).mpr hStore)

theorem won_recorded (h : s.Sound) (hStep : s.lifecycle.step waker action = some after) {k : κ}
    {reason : RequestCancellationReason} (hWon : s.Won k reason) :
    (s.recorded action after).Won k reason :=
  ⟨List.mem_append_right _ hWon.1, (Observed.reason_step h.phase hStep hWon.2).1⟩

theorem notWon_recorded (hStep : s.lifecycle.step waker action = some after) {k : κ}
    (hNotWon : s.NotWon k) (hOwn : action ≠ .notifier (.cancelCall k)) :
    (s.recorded action after).NotWon k := by
  intro reason hMem
  rw [recorded, List.mem_append, Option.mem_toList] at hMem
  rcases hMem with hNow | hBefore
  · exact hOwn (winner_eq_some hStep hNow).1
  · exact hNotWon reason hBefore

theorem cancelOk_recorded (h : s.Sound) (hOpen : isOpen action = true)
    (hGuard : ¬s.Overtaken (.lifecycle action))
    (hStep : s.lifecycle.step waker action = some after) (k : κ) :
    (s.recorded action after).CancelOk k (s.cancelCall k) := by
  have hCall := h.calls k
  have hIdle : s.lifecycle.notifier (.cancelCall k) = .idle ∧ s.NotWon k →
      (s.recorded action after).lifecycle.notifier (.cancelCall k) = .idle ∧
        (s.recorded action after).NotWon k := by
    rintro ⟨hIdle, hNotWon⟩
    obtain ⟨hAfter, hOwn⟩ := idle_step (by simp) hOpen hStep hIdle
    exact ⟨hAfter, notWon_recorded hStep hNotWon hOwn⟩
  cases hPc : s.cancelCall k with
  | fresh =>
      rw [hPc] at hCall
      exact hIdle hCall
  | check reason =>
      rw [hPc] at hCall
      exact hIdle hCall
  | cancelling reason =>
      rw [hPc] at hCall
      rcases hCall with hWon | ⟨hSwap, hNotWon⟩
      · exact .inl (List.mem_append_right _ hWon)
      · by_cases hOwn : action = .notifier (.cancelCall k)
        · subst hOwn
          have hNot : ¬s.lifecycle.shared.cancelled = true :=
            fun hCancelled => hGuard ⟨⟨reason, hSwap⟩, hCancelled⟩
          left
          simp [recorded, winner, Observed.winning, hSwap, hNot]
        · have hNoCall : ∀ call, action ≠ .call (.cancelCall k) call := by
            rintro call rfl
            rw [not_isOpen_call (by simp)] at hOpen
            cases hOpen
          right
          exact ⟨(notifier_step hStep hNoCall hOwn).trans hSwap, notWon_recorded hStep hNotWon hOwn⟩
  | count reason =>
      rw [hPc] at hCall
      exact won_recorded h hStep hCall
  | returned reason value =>
      rw [hPc] at hCall
      exact fun hTrue => won_recorded h hStep (hCall hTrue)

theorem sound_recorded (h : s.Sound) (hOpen : isOpen action = true)
    (hGuard : ¬s.Overtaken (.lifecycle action))
    (hStep : s.lifecycle.step waker action = some after) : (s.recorded action after).Sound where
  watchdog := watchdogOk_recorded h.watchdog hOpen hGuard hStep
  failed := failed_recorded h hStep
  phase := phase_recorded h hStep
  holder := holder_recorded h hStep
  calls := cancelOk_recorded h hOpen hGuard hStep
  counted := h.counted

end Recorded

/-! Steps of the watchdog and of the cancel calls. -/

omit [DecidableEq ι] [DecidableEq κ] [DecidableEq μ] [DecidableEq ω] in
/-- What the state of a call rests on. -/
theorem CancelOk.congr {s t : Accounts ι κ μ ω} {k : κ} {pc : CancelPc} (h : s.CancelOk k pc)
    (hNotifier : t.lifecycle.notifier (.cancelCall k) = s.lifecycle.notifier (.cancelCall k))
    (hWinners : t.winners = s.winners)
    (hReason : t.lifecycle.shared.reason = s.lifecycle.shared.reason) : t.CancelOk k pc := by
  cases pc <;> simpa only [CancelOk, Won, NotWon, hNotifier, hWinners, hReason] using h

section Called

variable {s : Accounts ι κ μ ω} {party : Party ι κ} {call : Call}
  {after : State (Party ι κ) μ ω}

theorem shared_called (hStep : s.lifecycle.step waker (.call party call) = some after) :
    after.shared = s.lifecycle.shared := by
  obtain ⟨-, rfl⟩ := enabled_iff.mp hStep
  rfl

theorem notifier_called (hStep : s.lifecycle.step waker (.call party call) = some after) :
    after.notifier = Function.update s.lifecycle.notifier party (State.entry call) := by
  obtain ⟨-, rfl⟩ := enabled_iff.mp hStep
  rfl

theorem holder_called (h : s.Sound)
    (hStep : s.lifecycle.step waker (.call party call) = some after) (other : Party ι κ)
    (reason : RequestCancellationReason) (hMem : (other, reason) ∈ s.winners) :
    after.shared.reason = some reason ∨ after.notifier other = .store reason := by
  rw [shared_called hStep]
  rcases h.holder other reason hMem with hReason | hStore
  · exact .inl hReason
  · obtain ⟨hIdle, -⟩ := enabled_iff.mp hStep
    have hNe : other ≠ party := by
      rintro rfl
      rw [hIdle] at hStore
      cases hStore
    rw [notifier_called hStep, Function.update_of_ne hNe]
    exact .inr hStore

end Called

theorem sound_watchdog {s s' : Accounts ι κ μ ω} (h : s.Sound)
    (hStep : s.stepWatchdog waker = some s') : s'.Sound := by
  have hWatchdog := h.watchdog
  unfold WatchdogOk at hWatchdog
  unfold stepWatchdog at hStep
  split at hStep <;> rename_i hPc <;> rw [hPc] at hWatchdog <;> dsimp only at hWatchdog
  · cases hStep
  · split_ifs at hStep
    · obtain ⟨after, hAfter, rfl⟩ := Option.map_eq_some_iff.mp hStep
      have hShared := shared_called hAfter
      refine ⟨⟨.inr ⟨hWatchdog.1.2, ?_⟩, hWatchdog.2⟩, ?_, ?_, ?_, ?_, h.counted⟩
      · rw [notifier_called hAfter, Function.update_self]
      · intro hExpired
        rw [hShared]
        exact h.failed hExpired
      · exact Observed.phase_step h.phase hAfter
      · exact fun other reason hMem => holder_called h hAfter other reason hMem
      · intro k
        refine (h.calls k).congr ?_ rfl (by rw [hShared])
        rw [notifier_called hAfter, Function.update_of_ne (by simp)]
    · cases hStep
      exact ⟨.inr hWatchdog, h.failed, h.phase, h.holder, h.calls, h.counted⟩
  · obtain ⟨hIdle, rfl⟩ := enabled_iff.mp hStep
    refine ⟨⟨?_, hWatchdog.2⟩, h.failed, h.phase, h.holder, h.calls, h.counted⟩
    rcases hWatchdog.1 with hExpired | ⟨-, hEntry⟩
    · exact hExpired
    · rw [hIdle] at hEntry
      cases hEntry
  · cases hStep
    exact ⟨⟨hWatchdog.1, by simp [hWatchdog.2]⟩, h.failed, h.phase, h.holder, h.calls, h.counted⟩
  · cases hStep
    exact ⟨⟨hWatchdog.1, by simp [hWatchdog.2]⟩, h.failed, h.phase, h.holder, h.calls, h.counted⟩
  · cases hStep
    exact ⟨.inl ⟨hWatchdog.1, by simp [hWatchdog.2]⟩, h.failed, h.phase, h.holder, h.calls,
      h.counted⟩
  · cases hStep

omit [DecidableEq ι] [DecidableEq μ] [DecidableEq ω] in
/-- A call that moves without returning `true` is not counted. -/
theorem Counted.update {cancels : Cancels} {cancelCall : κ → CancelPc} (h : Counted cancels cancelCall)
    {k : κ} {pc : CancelPc} (hBefore : ∀ reason, cancelCall k ≠ .returned reason true)
    (hAfter : ∀ reason, pc ≠ .returned reason true) :
    Counted cancels (Function.update cancelCall k pc) := by
  rcases h with ⟨hNone, hReturned⟩ | ⟨m, reason, hReturned, hSome⟩
  · refine .inl ⟨hNone, ?_⟩
    exact (Function.forall_update_iff cancelCall fun _ pc =>
      ∀ reason, pc ≠ .returned reason true).mpr ⟨hAfter, fun m _ => hReturned m⟩
  · have hNe : m ≠ k := by
      rintro rfl
      exact hBefore reason hReturned
    exact .inr ⟨m, reason, (Function.update_of_ne hNe ..).trans hReturned, hSome⟩

omit [DecidableEq ι] [DecidableEq μ] [DecidableEq ω] in
theorem sound_setCancelCall {s : Accounts ι κ μ ω} (h : s.Sound) {k : κ} {pc : CancelPc}
    (hBefore : ∀ reason, s.cancelCall k ≠ .returned reason true)
    (hAfter : ∀ reason, pc ≠ .returned reason true) (hOk : s.CancelOk k pc) :
    (s.setCancelCall k pc).Sound := by
  refine ⟨h.watchdog, h.failed, h.phase, h.holder, ?_, h.counted.update hBefore hAfter⟩
  exact (Function.forall_update_iff s.cancelCall fun m pc => s.CancelOk m pc).mpr
    ⟨hOk, fun m _ => h.calls m⟩

theorem sound_cancelCall {s s' : Accounts ι κ μ ω} {k : κ} (h : s.Sound)
    (hStep : s.stepCancelCall waker k = some s') : s'.Sound := by
  have hCall := h.calls k
  unfold stepCancelCall at hStep
  split at hStep <;> rename_i hPc <;> rw [hPc] at hCall
  · cases hStep
  · rename_i reason
    split_ifs at hStep
    · cases hStep
      exact sound_setCancelCall h (by simp [hPc]) (by simp) (by simp [CancelOk])
    · obtain ⟨after, hAfter, rfl⟩ := Option.map_eq_some_iff.mp hStep
      have hShared := shared_called hAfter
      refine ⟨?_, ?_, Observed.phase_step h.phase hAfter, ?_, ?_, ?_⟩
      · have hWatchdog := h.watchdog
        have hOther : after.notifier .watchdog = s.lifecycle.notifier .watchdog := by
          rw [notifier_called hAfter, Function.update_of_ne (by simp)]
        unfold WatchdogOk at hWatchdog ⊢
        simpa only [setCancelCall, hOther] using hWatchdog
      · intro hExpired
        rw [setCancelCall, hShared]
        exact h.failed hExpired
      · exact fun other reason hMem => holder_called h hAfter other reason hMem
      · refine (Function.forall_update_iff s.cancelCall fun m pc => CancelOk _ m pc).mpr
          ⟨.inr ⟨?_, hCall.2⟩, fun m hNe => ?_⟩
        · rw [setCancelCall, notifier_called hAfter, Function.update_self]
          rfl
        · refine (h.calls m).congr ?_ rfl (by rw [setCancelCall, hShared])
          rw [setCancelCall, notifier_called hAfter, Function.update_of_ne (by simp [hNe])]
      · exact h.counted.update (by simp [hPc]) (by simp)
  · rename_i reason
    obtain ⟨hIdle, rfl⟩ := enabled_iff.mp hStep
    refine sound_setCancelCall h (by simp [hPc]) (by simp) ?_
    rcases hCall with hWon | ⟨hSwap, -⟩
    · refine ⟨hWon, ?_⟩
      rcases h.holder _ _ hWon with hReason | hStore
      · exact hReason
      · rw [hIdle] at hStore
        cases hStore
    · rw [hIdle] at hSwap
      cases hSwap
  · rename_i reason
    cases hStep
    have hNone : s.cancels = {} := by
      rcases h.counted with ⟨hNone, -⟩ | ⟨m, other, hReturned, -⟩
      · exact hNone
      · have hOther := h.calls m
        rw [hReturned] at hOther
        have hSame := winners_eq_singleton h.phase (hOther rfl).1
        have hMem := hCall.1
        rw [hSame, List.mem_singleton, Prod.mk.injEq, Party.cancelCall.injEq] at hMem
        rw [← hMem.1, hPc] at hReturned
        cases hReturned
    refine ⟨h.watchdog, h.failed, h.phase, h.holder, ?_, .inr ⟨k, reason, ?_, ?_⟩⟩
    · exact (Function.forall_update_iff s.cancelCall fun m pc => s.CancelOk m pc).mpr
        ⟨fun _ => hCall, fun m _ => h.calls m⟩
    · exact Function.update_self ..
    · simp [setCancelCall, hNone]
  · cases hStep

theorem sound_step {s s' : Accounts ι κ μ ω} {action : AccountsAction ι κ μ} (h : s.Sound)
    (hGuard : ¬s.Overtaken action) (hStep : s.step waker action = some s') : s'.Sound := by
  cases action with
  | lifecycle action =>
      obtain ⟨hOpen, hMoved⟩ := Option.ite_none_right_eq_some.mp hStep
      obtain ⟨after, hAfter, rfl⟩ := Option.map_eq_some_iff.mp hMoved
      exact sound_recorded h hOpen hGuard hAfter
  | expire =>
      obtain ⟨hPc, rfl⟩ := enabled_iff.mp hStep
      have hWatchdog := h.watchdog
      rw [WatchdogOk, hPc] at hWatchdog
      exact ⟨hWatchdog, h.failed, h.phase, h.holder, h.calls, h.counted⟩
  | observe =>
      obtain ⟨hPc, rfl⟩ := enabled_iff.mp hStep
      have hWatchdog := h.watchdog
      rw [WatchdogOk, hPc.1] at hWatchdog
      exact ⟨.inr hWatchdog, h.failed, h.phase, h.holder, h.calls, h.counted⟩
  | watchdog => exact sound_watchdog h hStep
  | cancelShared k reason =>
      obtain ⟨hPc, rfl⟩ := enabled_iff.mp hStep
      have hCall := h.calls k
      rw [hPc] at hCall
      exact sound_setCancelCall h (by simp [hPc]) (by simp) hCall
  | cancelCall k => exact sound_cancelCall h hStep

omit [DecidableEq ι] [DecidableEq κ] [DecidableEq μ] [DecidableEq ω] in
/-- The counters of the watchdog and what they rest on. -/
theorem timeouts_of_watchdogOk {s : Accounts ι κ μ ω} (h : s.WatchdogOk) :
    (s.timeouts ≠ {} → s.expired = true) ∧ s.timeouts.bodyReadTimeouts ≤ 1 ∧
      s.timeouts.deferredBodyTimeouts ≤ 1 ∧ s.timeouts.fired ≤ 1 := by
  have hNone : s.timeouts = {} → (s.timeouts ≠ {} → s.expired = true) ∧
      s.timeouts.bodyReadTimeouts ≤ 1 ∧ s.timeouts.deferredBodyTimeouts ≤ 1 ∧
      s.timeouts.fired ≤ 1 := by
    intro hNone
    refine ⟨fun hSome => absurd hNone hSome, ?_⟩
    rw [hNone]
    decide
  unfold WatchdogOk at h
  split at h
  · exact hNone h.2
  · exact hNone h.2
  · exact hNone h.2
  · exact hNone h.2
  · refine ⟨fun _ => h.1, ?_⟩
    rw [h.2]
    decide
  · refine ⟨fun _ => h.1, ?_⟩
    rw [h.2]
    decide
  · rcases h with ⟨hExpired, hAll⟩ | ⟨-, hEmpty⟩
    · refine ⟨fun _ => hExpired, ?_⟩
      rw [hAll]
      decide
    · exact hNone hEmpty

omit [DecidableEq ι] [DecidableEq κ] [DecidableEq μ] [DecidableEq ω] in
theorem Sound.countedOnce {s : Accounts ι κ μ ω} (h : s.Sound) : s.CountedOnce := by
  obtain ⟨hTimedOut, hOnce⟩ := timeouts_of_watchdogOk h.watchdog
  refine ⟨hTimedOut, hOnce, fun hComplete => ?_, fun k reason hReturned => ?_, ?_⟩
  · by_contra hSome
    have hFailed := h.failed (hTimedOut hSome)
    rw [hComplete] at hFailed
    cases hFailed
  · have hCall := h.calls k
    rw [hReturned] at hCall
    obtain ⟨hMem, hReason⟩ := hCall rfl
    exact ⟨winners_eq_singleton h.phase hMem, hReason⟩
  · rcases h.counted with ⟨hNone, -⟩ | hSome
    · exact .inl hNone
    · exact .inr hSome

end Accounts

/-- In every run in which nobody overtakes the watchdog between its load and its
exchange, nor a cancel call between its load and its swap, failures are counted
once and by whom they are due to. -/
theorem failures_counted_once {ι κ μ ω : Type} [DecidableEq ι] [DecidableEq κ] [DecidableEq μ]
    [DecidableEq ω] (waker : μ → ω) (s : Accounts ι κ μ ω)
    (hReach : (Accounts.machine waker).ReachableUnder (fun s action => ¬s.Overtaken action) s) :
    s.CountedOnce := by
  have hSound := hReach.invariant (fun _ hInitial => Accounts.sound_initial hInitial)
    fun _ _ _ h hGuard hStep => Accounts.sound_step h hGuard hStep
  exact hSound.countedOnce

/-- A fresh request with one consumer and two cancel calls. -/
def freshAccounts : Accounts Unit Bool Unit Unit where
  lifecycle := ⟨{}, fun _ => {}, fun _ => .idle, fun _ => .idle, fun _ => false⟩
  watchdog := .waiting
  cancelCall := fun _ => .fresh
  timeouts := {}
  cancels := {}
  expired := false
  winners := []

def freshMachine : Transition.Machine (Accounts Unit Bool Unit Unit) (AccountsAction Unit Bool Unit) :=
  Accounts.machine id

theorem freshAccounts_initial : freshMachine.Initial freshAccounts :=
  ⟨⟨.inl rfl, fun _ => rfl, fun _ => rfl, fun _ => ⟨rfl, rfl⟩⟩, rfl, fun _ => rfl, rfl, rfl, rfl, rfl⟩

/-- The watchdog alone fails the body and counts. -/
theorem failures_counted_once_timeout :
    ∃ s, freshMachine.ReachableUnder (fun s action => ¬s.Overtaken action) s ∧
      s.timeouts = ⟨1, 0, 0⟩ ∧ s.CountedOnce := by
  have hStart : freshMachine.ReachableUnder (fun s action => ¬s.Overtaken action) freshAccounts :=
    .start freshAccounts_initial
  have hExpired := hStart.step (a := .expire) id rfl
  have hChecked := hExpired.step (a := .watchdog) id rfl
  have hMarked := hChecked.step (a := .lifecycle (.notifier .watchdog))
    (by rintro ⟨-, hNot⟩; cases hNot) rfl
  have hAdvanced := hMarked.step (a := .lifecycle (.notifier .watchdog))
    (by rintro ⟨⟨target, next, hPc⟩, -⟩; cases hPc) rfl
  have hTaken := hAdvanced.step (a := .lifecycle (.notifier .watchdog))
    (by rintro ⟨⟨target, next, hPc⟩, -⟩; cases hPc) rfl
  have hWoken := hTaken.step (a := .lifecycle (.notifier .watchdog))
    (by rintro ⟨⟨target, next, hPc⟩, -⟩; cases hPc) rfl
  have hCancelled := hWoken.step (a := .lifecycle (.notifier .watchdog))
    (by rintro ⟨⟨target, next, hPc⟩, -⟩; cases hPc) rfl
  have hStored := hCancelled.step (a := .lifecycle (.notifier .watchdog))
    (by rintro ⟨⟨target, next, hPc⟩, -⟩; cases hPc) rfl
  have hAdvanced' := hStored.step (a := .lifecycle (.notifier .watchdog))
    (by rintro ⟨⟨target, next, hPc⟩, -⟩; cases hPc) rfl
  have hTaken' := hAdvanced'.step (a := .lifecycle (.notifier .watchdog))
    (by rintro ⟨⟨target, next, hPc⟩, -⟩; cases hPc) rfl
  have hReturned := hTaken'.step (a := .lifecycle (.notifier .watchdog))
    (by rintro ⟨⟨target, next, hPc⟩, -⟩; cases hPc) rfl
  have hFailed := hReturned.step (a := .watchdog) id rfl
  have hCounted := hFailed.step (a := .watchdog) id rfl
  exact ⟨_, hCounted, rfl, failures_counted_once id _ hCounted⟩

/-- The consumer completes the body between the watchdog's load and its exchange;
and two cancel calls both find the request not cancelled. -/
theorem overtaken_failures_counted :
    (∃ s, freshMachine.Reachable s ∧ s.lifecycle.shared.bodyState = .complete ∧
      s.timeouts = ⟨1, 1, 1⟩ ∧ ¬s.CountedOnce) ∧
    ∃ s, freshMachine.Reachable s ∧ s.lifecycle.shared.reason = some .peerDisconnected ∧
      s.cancelCall true = .returned .serverShutdown true ∧ s.cancels = ⟨1, 1⟩ ∧
      ¬s.CountedOnce := by
  have hStart : freshMachine.Reachable freshAccounts := .start freshAccounts_initial
  constructor
  · have hExpired := hStart.step (a := .expire) trivial rfl
    have hChecked := hExpired.step (a := .watchdog) trivial rfl
    have hCall := hChecked.step (a := .lifecycle (.call (.consumer ()) .markComplete)) trivial rfl
    have hComplete := hCall.step (a := .lifecycle (.notifier (.consumer ()))) trivial rfl
    have hLate := hComplete.step (a := .lifecycle (.notifier .watchdog)) trivial rfl
    have hReturned := hLate.step (a := .watchdog) trivial rfl
    have hRead := hReturned.step (a := .watchdog) trivial rfl
    have hDeferred := hRead.step (a := .watchdog) trivial rfl
    have hFired := hDeferred.step (a := .watchdog) trivial rfl
    refine ⟨_, hFired, rfl, rfl, fun hOnce => ?_⟩
    exact absurd (hOnce.completed rfl) (by decide)
  · have hFirst := hStart.step (a := .cancelShared false .peerDisconnected) trivial rfl
    have hSecond := hFirst.step (a := .cancelShared true .serverShutdown) trivial rfl
    have hLoad := hSecond.step (a := .cancelCall false) trivial rfl
    have hLoad' := hLoad.step (a := .cancelCall true) trivial rfl
    have hSwap := hLoad'.step (a := .lifecycle (.notifier (.cancelCall false))) trivial rfl
    have hLate := hSwap.step (a := .lifecycle (.notifier (.cancelCall true))) trivial rfl
    have hStore := hLate.step (a := .lifecycle (.notifier (.cancelCall false))) trivial rfl
    have hAdvance := hStore.step (a := .lifecycle (.notifier (.cancelCall false))) trivial rfl
    have hTake := hAdvance.step (a := .lifecycle (.notifier (.cancelCall false))) trivial rfl
    have hWake := hTake.step (a := .lifecycle (.notifier (.cancelCall false))) trivial rfl
    have hCount := hWake.step (a := .cancelCall false) trivial rfl
    have hTrue := hCount.step (a := .cancelCall false) trivial rfl
    have hCount' := hTrue.step (a := .cancelCall true) trivial rfl
    have hTrue' := hCount'.step (a := .cancelCall true) trivial rfl
    refine ⟨_, hTrue', rfl, rfl, rfl, fun hOnce => ?_⟩
    have hReason := (hOnce.effective true .serverShutdown rfl).2
    cases hReason

end Eggserve.Server
