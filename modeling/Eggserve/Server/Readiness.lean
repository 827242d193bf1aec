import Eggserve.Server.AcceptLoop
import Eggserve.Transition.Watch

/-! Waiting for a server to be ready. The lifecycle state is an atomic, and its
changes are announced over a watch channel in a later step, so the callers of
`ready` and the transitions of the server interleave between the two. -/
namespace Eggserve.Server
open Rust Transition

/-- The errors of the lifecycle and of `ready`. -/
inductive ServerError where
  | alreadyStarted
  | config (message : Str)
  | startup (message : Str)
  deriving DecidableEq

namespace LifecycleState

def display : LifecycleState → Str
  | created => "created"
  | starting => "starting"
  | running => "running"
  | draining => "draining"
  | stopped => "stopped"
  | failed => "failed"

def isTerminal (state : LifecycleState) : Bool := state = stopped || state = failed

end LifecycleState

/-- A transition of the server. -/
inductive LifecycleCall where
  | start
  | markRunning
  | drain
  | markStopped
  | markFailed
  deriving DecidableEq, Repr

/-- Where a transition stands: what its next atomic operation is. -/
inductive TransitionPc where
  | idle
  | start
  | markRunning
  | drainLoad
  | drainExchange (seen : LifecycleState)
  | markStopped
  | failLoad
  | failExchange (seen : LifecycleState)
  /-- Send `true` on the ready channel; `terminal` says that the terminal
  channel follows. -/
  | sendReady (terminal : Bool)
  | sendTerminal
  | returned (result : Except ServerError Unit)
  deriving DecidableEq

namespace TransitionPc

def entry : LifecycleCall → TransitionPc
  | .start => .start
  | .markRunning => .markRunning
  | .drain => .drainLoad
  | .markStopped => .markStopped
  | .markFailed => .failLoad

/-- The call is over, or was never made. -/
def finished : TransitionPc → Bool
  | .idle | .returned _ => true
  | _ => false

end TransitionPc

/-- Where a caller stands. `ready` is `wait_ready` between two loads of the
state; `checks` says that the wait belongs to a call of `ready`. -/
inductive CallerPc where
  | idle
  | load
  | subscribe (checks : Bool)
  | borrow (checks : Bool)
  | changed (checks : Bool)
  | recheck
  | returned (result : Except ServerError Unit)
  | waited
  deriving DecidableEq

namespace CallerPc

/-- The call is over, or was never made. -/
def finished : CallerPc → Bool
  | .idle | .returned _ | .waited => true
  | _ => false

/-- The caller has a receiver. -/
def subscribed : CallerPc → Bool
  | .borrow _ | .changed _ => true
  | _ => false

end CallerPc

/-- What `ready` makes of the first state it loads; `none` is to wait. -/
def readyAtOnce : LifecycleState → Option (Except ServerError Unit)
  | .running => some (.ok ())
  | .starting => none
  | .failed => some (.error (.startup "server failed during startup"))
  | other => some (.error (.config ("server not ready: in ".toList ++ other.display ++ " state".toList)))

/-- What `ready` makes of the state after the wait. -/
def readyAfterWait : LifecycleState → Except ServerError Unit
  | .running => .ok ()
  | .failed => .error (.startup "server failed during startup")
  | .stopped => .error (.startup "shutdown raced with startup")
  | other => .error (.config ("unexpected state after ready: ".toList ++ other.display))

/-- The lifecycle with the transitions and callers at work on it. -/
structure Readiness (ι κ : Type) where
  state : LifecycleState
  ready : Watch Bool κ
  transition : ι → TransitionPc
  caller : κ → CallerPc
  /-- The history of the run: the server has been running. -/
  reachedRunning : Bool

inductive ReadinessAction (ι κ : Type) where
  | call (n : ι) (call : LifecycleCall)
  | transition (n : ι)
  | callReady (c : κ)
  | callWaitReady (c : κ)
  | caller (c : κ)
  /-- The future of a caller is dropped. -/
  | drop (c : κ)

namespace Readiness

variable {ι κ : Type} [DecidableEq ι] [DecidableEq κ]

def setTransition (s : Readiness ι κ) (n : ι) (pc : TransitionPc) : Readiness ι κ :=
  { s with transition := Function.update s.transition n pc }

def setCaller (s : Readiness ι κ) (c : κ) (pc : CallerPc) : Readiness ι κ :=
  { s with caller := Function.update s.caller c pc }

/-- A compare-exchange of the state succeeded. -/
def enter (s : Readiness ι κ) (state : LifecycleState) : Readiness ι κ :=
  { s with state, reachedRunning := s.reachedRunning || state = .running }

/-- The error of a failed `start`. -/
def startError (actual : LifecycleState) : ServerError :=
  if actual = .running ∨ actual = .starting then .alreadyStarted
  else .config ("cannot start: server is in ".toList ++ actual.display ++ " state".toList)

def stepTransition (s : Readiness ι κ) (n : ι) : Option (Readiness ι κ) :=
  match s.transition n with
  | .idle | .returned _ => none
  | .start =>
      if s.state = .created then some ((s.enter .starting).setTransition n (.returned (.ok ())))
      else some (s.setTransition n (.returned (.error (startError s.state))))
  | .markRunning =>
      if s.state = .starting then some ((s.enter .running).setTransition n (.sendReady false))
      else some (s.setTransition n (.returned (.error
        (.config ("cannot mark running: server is in ".toList ++ s.state.display ++
          " state".toList)))))
  | .drainLoad =>
      match s.state with
      | .running | .created | .starting => some (s.setTransition n (.drainExchange s.state))
      | _ => some (s.setTransition n (.returned (.ok ())))
  | .drainExchange seen =>
      if s.state = seen then
        some ((s.enter seen.drain).setTransition n
          (if seen = .running then .returned (.ok ()) else .sendReady true))
      else some (s.setTransition n .drainLoad)
  | .markStopped =>
      if s.state = .draining then some ((s.enter .stopped).setTransition n .sendTerminal)
      else if s.state.isTerminal then some (s.setTransition n (.returned (.ok ())))
      else some (s.setTransition n (.returned (.error
        (.config ("cannot stop: server is in ".toList ++ s.state.display ++ " state".toList)))))
  | .failLoad =>
      if s.state.isTerminal then some (s.setTransition n (.returned (.ok ())))
      else some (s.setTransition n (.failExchange s.state))
  | .failExchange seen =>
      if s.state = seen then some ((s.enter .failed).setTransition n (.sendReady true))
      else some (s.setTransition n .failLoad)
  | .sendReady terminal =>
      some ({ s with ready := s.ready.send true }.setTransition n
        (if terminal then .sendTerminal else .returned (.ok ())))
  | .sendTerminal => some (s.setTransition n (.returned (.ok ())))

/-- The end of `wait_ready`: its receiver is dropped. -/
def endWait (s : Readiness ι κ) (c : κ) (checks : Bool) : Readiness ι κ :=
  { s with ready := s.ready.unsubscribe c }.setCaller c (if checks then .recheck else .waited)

def stepCaller (s : Readiness ι κ) (c : κ) : Option (Readiness ι κ) :=
  match s.caller c with
  | .idle | .returned _ | .waited => none
  | .load =>
      match readyAtOnce s.state with
      | some result => some (s.setCaller c (.returned result))
      | none => some (s.setCaller c (.subscribe true))
  | .subscribe checks =>
      some ({ s with ready := s.ready.subscribe c }.setCaller c (.borrow checks))
  | .borrow checks =>
      if s.ready.value then some (s.endWait c checks) else some (s.setCaller c (.changed checks))
  | .changed checks =>
      if s.ready.hasChanged c then
        some ({ s with ready := s.ready.markSeen c }.endWait c checks)
      else none
  | .recheck => some (s.setCaller c (.returned (readyAfterWait s.state)))

def step (s : Readiness ι κ) : ReadinessAction ι κ → Option (Readiness ι κ)
  | .call n call =>
      if (s.transition n).finished then some (s.setTransition n (.entry call)) else none
  | .transition n => s.stepTransition n
  | .callReady c => if (s.caller c).finished then some (s.setCaller c .load) else none
  | .callWaitReady c =>
      if (s.caller c).finished then some (s.setCaller c (.subscribe false)) else none
  | .caller c => s.stepCaller c
  | .drop c =>
      match s.caller c with
      | .changed _ => some ({ s with ready := s.ready.unsubscribe c }.setCaller c .idle)
      | _ => none

def machine : Machine (Readiness ι κ) (ReadinessAction ι κ) where
  Initial s := s.state = .created ∧ s.ready = Watch.channel false ∧
    (∀ n, s.transition n = .idle) ∧ (∀ c, s.caller c = .idle) ∧ s.reachedRunning = false
  step := step

/-- A transition has changed the state and still has to announce it. -/
def Announcing (s : Readiness ι κ) : Prop := ∃ n terminal, s.transition n = .sendReady terminal

/-- A caller of `ready` waits although the server has left `Starting` and nobody
is left to wake it. -/
def Hangs (s : Readiness ι κ) : Prop :=
  s.state ≠ .starting ∧ (∀ n, (s.transition n).finished = true) ∧
    ∃ c, s.caller c = .changed true ∧ s.ready.hasChanged c = false

/-- A caller of `ready` subscribes after the announcement was sent to nobody. -/
def SubscribesLate (s : Readiness ι κ) : ReadinessAction ι κ → Prop
  | .caller c => s.caller c = .subscribe true ∧ s.ready.value = false ∧ s.state ≠ .starting ∧
      ¬s.Announcing
  | _ => False

/-! What a transition does. -/

inductive TransitionEffect (s : Readiness ι κ) (n : ι) : Readiness ι κ → Prop where
  | moves (pc : TransitionPc) (hBefore : ∀ terminal, s.transition n ≠ .sendReady terminal) :
      TransitionEffect s n (s.setTransition n pc)
  | enters (state : LifecycleState) (pc : TransitionPc)
      (hBefore : ∀ terminal, s.transition n ≠ .sendReady terminal)
      (hStarting : s.state = .starting → ∃ terminal, pc = .sendReady terminal) :
      TransitionEffect s n ((s.enter state).setTransition n pc)
  | sends (terminal : Bool) (pc : TransitionPc)
      (hBefore : s.transition n = .sendReady terminal) :
      TransitionEffect s n ({ s with ready := s.ready.send true }.setTransition n pc)

theorem transitionEffect {s s' : Readiness ι κ} {n : ι} (hStep : s.stepTransition n = some s') :
    TransitionEffect s n s' := by
  unfold stepTransition at hStep
  split at hStep
  · cases hStep
  · cases hStep
  · rename_i hPc
    split at hStep <;> rename_i hState <;> obtain rfl := Option.some.inj hStep
    · exact .enters .starting _ (by simp [hPc]) (by simp [hState])
    · exact .moves _ (by simp [hPc])
  · rename_i hPc
    split at hStep <;> obtain rfl := Option.some.inj hStep
    · exact .enters .running _ (by simp [hPc]) fun _ => ⟨false, rfl⟩
    · exact .moves _ (by simp [hPc])
  · rename_i hPc
    split at hStep <;> obtain rfl := Option.some.inj hStep <;> exact .moves _ (by simp [hPc])
  · rename_i seen hPc
    split at hStep <;> rename_i hState <;> obtain rfl := Option.some.inj hStep
    · refine .enters seen.drain _ (by simp [hPc]) fun hStarting => ⟨true, ?_⟩
      rw [if_neg (by rw [← hState, hStarting]; decide)]
    · exact .moves _ (by simp [hPc])
  · rename_i hPc
    split at hStep <;> rename_i hState
    · obtain rfl := Option.some.inj hStep
      exact .enters .stopped _ (by simp [hPc]) (by simp [hState])
    · split at hStep <;> obtain rfl := Option.some.inj hStep <;> exact .moves _ (by simp [hPc])
  · rename_i hPc
    split at hStep <;> obtain rfl := Option.some.inj hStep <;> exact .moves _ (by simp [hPc])
  · rename_i seen hPc
    split at hStep <;> obtain rfl := Option.some.inj hStep
    · exact .enters .failed _ (by simp [hPc]) fun _ => ⟨true, rfl⟩
    · exact .moves _ (by simp [hPc])
  · rename_i terminal hPc
    obtain rfl := Option.some.inj hStep
    exact .sends terminal _ hPc
  · rename_i hPc
    obtain rfl := Option.some.inj hStep
    exact .moves _ (by simp [hPc])

/-! Nobody is forgotten. -/

/-- Something will wake the caller: an unseen value, a transition that announces
itself, or one that still has to happen. -/
def Awaited (s : Readiness ι κ) (c : κ) : Prop :=
  s.ready.hasChanged c = true ∨ s.state = .starting ∨ s.Announcing

structure Notified (s : Readiness ι κ) : Prop where
  ordered : s.ready.Ordered
  live : ∀ c, (s.caller c).subscribed = true → c ∈ s.ready.live
  borrowing : ∀ c, s.caller c = .borrow true → s.ready.value = true ∨ s.Awaited c
  waiting : ∀ c, s.caller c = .changed true → s.Awaited c

omit [DecidableEq κ] in
theorem announcing_setTransition {s : Readiness ι κ} {n : ι}
    (hBefore : ∀ terminal, s.transition n ≠ .sendReady terminal) (pc : TransitionPc)
    (h : s.Announcing) : (s.setTransition n pc).Announcing := by
  obtain ⟨m, terminal, hPc⟩ := h
  have hOther : m ≠ n := by
    rintro rfl
    exact hBefore terminal hPc
  exact ⟨m, terminal, (Function.update_of_ne hOther ..).trans hPc⟩

theorem Notified.transition {s s' : Readiness ι κ} {n : ι} (h : s.Notified)
    (hEffect : TransitionEffect s n s') : s'.Notified := by
  cases hEffect with
  | moves pc hBefore =>
      have hAwaited : ∀ c, s.Awaited c → (s.setTransition n pc).Awaited c := by
        rintro c (hChanged | hStarting | hAnnouncing)
        · exact .inl hChanged
        · exact .inr (.inl hStarting)
        · exact .inr (.inr (announcing_setTransition hBefore pc hAnnouncing))
      exact ⟨h.ordered, h.live, fun c hPc => (h.borrowing c hPc).imp_right (hAwaited c),
        fun c hPc => hAwaited c (h.waiting c hPc)⟩
  | enters state pc hBefore hStarting =>
      have hAwaited : ∀ c, s.Awaited c → ((s.enter state).setTransition n pc).Awaited c := by
        rintro c (hChanged | hState | hAnnouncing)
        · exact .inl hChanged
        · obtain ⟨terminal, rfl⟩ := hStarting hState
          exact .inr (.inr ⟨n, terminal, Function.update_self ..⟩)
        · exact .inr (.inr (announcing_setTransition hBefore pc hAnnouncing))
      exact ⟨h.ordered, h.live, fun c hPc => (h.borrowing c hPc).imp_right (hAwaited c),
        fun c hPc => hAwaited c (h.waiting c hPc)⟩
  | sends terminal pc hBefore =>
      have hAwaited : ∀ c, (s.caller c).subscribed = true →
          (({ s with ready := s.ready.send true } : Readiness ι κ).setTransition n pc).Awaited c :=
        fun c hHolds => .inl (Watch.hasChanged_send h.ordered (h.live c hHolds) true)
      refine ⟨h.ordered.send true, fun c hHolds => ?_, fun c hPc => ?_, fun c hPc => ?_⟩
      · change c ∈ (s.ready.send true).live
        rw [Watch.live_send]
        exact h.live c hHolds
      · exact .inr (hAwaited c (by rw [show s.caller c = _ from hPc]; rfl))
      · exact hAwaited c (by rw [show s.caller c = _ from hPc]; rfl)

omit [DecidableEq ι] in
/-- A step of a caller that leaves the receivers of the others alone. -/
theorem Notified.caller {s : Readiness ι κ} (h : s.Notified) {c : κ} {pc : CallerPc}
    {ready : Watch Bool κ} (hOrdered : ready.Ordered) (hValue : ready.value = s.ready.value)
    (hOthers : ∀ d, d ≠ c → (d ∈ s.ready.live → d ∈ ready.live) ∧
      ready.hasChanged d = s.ready.hasChanged d)
    (hLive : pc.subscribed = true → c ∈ ready.live)
    (hBorrow : pc = .borrow true →
      ready.value = true ∨ ({ s with ready } : Readiness ι κ).Awaited c)
    (hChanged : pc = .changed true → ({ s with ready } : Readiness ι κ).Awaited c) :
    (({ s with ready } : Readiness ι κ).setCaller c pc).Notified := by
  have hCaller : ∀ d, (({ s with ready } : Readiness ι κ).setCaller c pc).caller d =
      if d = c then pc else s.caller d := fun d => Function.update_apply ..
  have hAwaited : ∀ d, d ≠ c → s.Awaited d → ({ s with ready } : Readiness ι κ).Awaited d := by
    intro d hOther hAwaited
    exact hAwaited.imp_left fun hUnseen => (hOthers d hOther).2.trans hUnseen
  refine ⟨hOrdered, fun d hHolds => ?_, fun d hPc => ?_, fun d hPc => ?_⟩
  · rw [hCaller] at hHolds
    split at hHolds
    · rename_i hSame
      exact hSame ▸ hLive hHolds
    · rename_i hOther
      exact (hOthers d hOther).1 (h.live d hHolds)
  · rw [hCaller] at hPc
    split at hPc
    · rename_i hSame
      exact hSame ▸ hBorrow hPc
    · rename_i hOther
      exact (h.borrowing d hPc).imp (hValue.trans ·) (hAwaited d hOther)
  · rw [hCaller] at hPc
    split at hPc
    · rename_i hSame
      exact hSame ▸ hChanged hPc
    · rename_i hOther
      exact hAwaited d hOther (h.waiting d hPc)

omit [DecidableEq ι] in
theorem Notified.stepCaller {s s' : Readiness ι κ} {c : κ} (h : s.Notified)
    (hGuard : ¬s.SubscribesLate (.caller c)) (hStep : s.stepCaller c = some s') :
    s'.Notified := by
  have hSame : ∀ d, d ≠ c → (d ∈ s.ready.live → d ∈ s.ready.live) ∧
      s.ready.hasChanged d = s.ready.hasChanged d := fun _ _ => ⟨id, rfl⟩
  have hLeft : ∀ d, d ≠ c → d ∈ s.ready.live → d ∈ (s.ready.unsubscribe c).live :=
    fun d hOther hMem => Finset.mem_erase.mpr ⟨hOther, hMem⟩
  unfold Readiness.stepCaller at hStep
  split at hStep
  · cases hStep
  · cases hStep
  · cases hStep
  · split at hStep <;> obtain rfl := Option.some.inj hStep
    · exact h.caller h.ordered rfl hSame (by simp [CallerPc.subscribed]) (by simp) (by simp)
    · exact h.caller h.ordered rfl hSame (by simp [CallerPc.subscribed]) (by simp) (by simp)
  · rename_i checks hPc
    obtain rfl := Option.some.inj hStep
    refine h.caller (h.ordered.subscribe c) rfl ?_ ?_ ?_ (by simp)
    · intro d hOther
      exact ⟨fun hMem => Finset.mem_insert_of_mem hMem, Watch.hasChanged_subscribe_of_ne hOther⟩
    · exact fun _ => Finset.mem_insert_self ..
    · intro hBorrow
      obtain rfl := CallerPc.borrow.inj hBorrow
      by_contra hNone
      simp only [Awaited, not_or] at hNone
      exact hGuard ⟨hPc, Bool.eq_false_iff.mpr hNone.1, hNone.2.2.1, hNone.2.2.2⟩
  · rename_i checks hPc
    split at hStep <;> rename_i hValue <;> obtain rfl := Option.some.inj hStep
    · refine h.caller (h.ordered.unsubscribe c) rfl (fun d hOther => ⟨hLeft d hOther, rfl⟩) ?_ ?_ ?_
      all_goals
        cases checks <;> simp [CallerPc.subscribed]
    · refine h.caller h.ordered rfl hSame ?_ (by simp) ?_
      · exact fun _ => h.live c (by rw [hPc]; rfl)
      · intro hChanged
        obtain rfl := CallerPc.changed.inj hChanged
        exact (h.borrowing c hPc).resolve_left hValue
  · rename_i checks hPc
    split at hStep
    · obtain rfl := Option.some.inj hStep
      refine h.caller ((h.ordered.markSeen c).unsubscribe c) rfl ?_ ?_ ?_ ?_
      · intro d hOther
        have hSeen : (s.ready.markSeen c).hasChanged d = s.ready.hasChanged d :=
          Watch.hasChanged_markSeen_of_ne hOther
        exact ⟨hLeft d hOther, hSeen⟩
      all_goals
        cases checks <;> simp [CallerPc.subscribed]
    · cases hStep
  · obtain rfl := Option.some.inj hStep
    exact h.caller h.ordered rfl hSame (by simp [CallerPc.subscribed]) (by simp) (by simp)

theorem Notified.step {s s' : Readiness ι κ} {action : ReadinessAction ι κ} (h : s.Notified)
    (hGuard : ¬s.SubscribesLate action) (hStep : s.step action = some s') : s'.Notified := by
  have hSame : ∀ c d : κ, d ≠ c → (d ∈ s.ready.live → d ∈ s.ready.live) ∧
      s.ready.hasChanged d = s.ready.hasChanged d := fun _ _ _ => ⟨id, rfl⟩
  cases action with
  | call n call =>
      obtain ⟨hFinished, rfl⟩ := enabled_iff.mp hStep
      refine h.transition (.moves _ fun terminal hPc => ?_)
      rw [hPc] at hFinished
      cases hFinished
  | transition n => exact h.transition (transitionEffect hStep)
  | callReady c =>
      obtain ⟨-, rfl⟩ := enabled_iff.mp hStep
      exact h.caller h.ordered rfl (hSame c) (by simp [CallerPc.subscribed]) (by simp) (by simp)
  | callWaitReady c =>
      obtain ⟨-, rfl⟩ := enabled_iff.mp hStep
      exact h.caller h.ordered rfl (hSame c) (by simp [CallerPc.subscribed]) (by simp) (by simp)
  | caller c => exact h.stepCaller hGuard hStep
  | drop c =>
      simp only [Readiness.step] at hStep
      split at hStep
      · obtain rfl := Option.some.inj hStep
        refine h.caller (h.ordered.unsubscribe c) rfl (fun d hOther => ⟨fun hMem => ?_, rfl⟩)
          (by simp [CallerPc.subscribed]) (by simp) (by simp)
        exact Finset.mem_erase.mpr ⟨hOther, hMem⟩
      · cases hStep

theorem notified_initial {s : Readiness ι κ} (hInitial : machine.Initial s) : s.Notified := by
  obtain ⟨-, hReady, -, hIdle, -⟩ := hInitial
  refine ⟨hReady ▸ Watch.ordered_channel false, fun c h => ?_, fun c h => ?_, fun c h => ?_⟩
  all_goals
    rw [hIdle c] at h
    cases h

omit [DecidableEq ι] [DecidableEq κ] in
/-- With everybody notified nobody hangs. -/
theorem Notified.not_hangs {s : Readiness ι κ} (h : s.Notified) : ¬s.Hangs := by
  rintro ⟨hState, hFinished, c, hPc, hSeen⟩
  rcases h.waiting c hPc with hChanged | hStarting | ⟨n, terminal, hAnnouncing⟩
  · rw [hSeen] at hChanged
    cases hChanged
  · exact hState hStarting
  · have hDone := hFinished n
    rw [hAnnouncing] at hDone
    cases hDone

/-! Success means that the server has been running. -/

structure RunningKnown (s : Readiness ι κ) : Prop where
  now : s.state = .running → s.reachedRunning = true
  returned : ∀ c, s.caller c = .returned (.ok ()) → s.reachedRunning = true

omit [DecidableEq ι] in
theorem RunningKnown.setCaller {s : Readiness ι κ} (h : s.RunningKnown) (c : κ) (pc : CallerPc)
    (hPc : pc = .returned (.ok ()) → s.state = .running) : (s.setCaller c pc).RunningKnown := by
  refine ⟨h.now, fun d hReturned => ?_⟩
  simp only [Readiness.setCaller, Function.update_apply] at hReturned
  split at hReturned
  · exact h.now (hPc hReturned)
  · exact h.returned d hReturned

theorem running_of_readyAtOnce {state : LifecycleState}
    (h : readyAtOnce state = some (.ok ())) : state = .running := by
  cases state <;> first | rfl | cases h

theorem running_of_readyAfterWait {state : LifecycleState}
    (h : readyAfterWait state = .ok ()) : state = .running := by
  cases state <;> first | rfl | cases h

omit [DecidableEq ι] [DecidableEq κ] in
theorem RunningKnown.setReady {s : Readiness ι κ} (h : s.RunningKnown) (ready : Watch Bool κ) :
    ({ s with ready } : Readiness ι κ).RunningKnown := ⟨h.now, h.returned⟩

omit [DecidableEq ι] [DecidableEq κ] in
theorem RunningKnown.enter {s : Readiness ι κ} (h : s.RunningKnown) (state : LifecycleState) :
    (s.enter state).RunningKnown := by
  refine ⟨fun hState => ?_, fun c hReturned => ?_⟩
  · obtain rfl : state = .running := hState
    exact Bool.or_true _
  · change (s.reachedRunning || decide (state = .running)) = true
    rw [h.returned c hReturned, Bool.true_or]

omit [DecidableEq ι] in
theorem RunningKnown.stepCaller {s s' : Readiness ι κ} {c : κ} (h : s.RunningKnown)
    (hStep : s.stepCaller c = some s') : s'.RunningKnown := by
  have hEnded : ∀ checks : Bool, (if checks then CallerPc.recheck else .waited) ≠
      .returned (.ok ()) := by
    intro checks
    cases checks <;> simp
  unfold Readiness.stepCaller at hStep
  split at hStep
  · cases hStep
  · cases hStep
  · cases hStep
  · split at hStep <;> obtain rfl := Option.some.inj hStep
    · rename_i result hResult
      refine h.setCaller c _ fun hReturned => running_of_readyAtOnce ?_
      rw [hResult, CallerPc.returned.inj hReturned]
    · exact h.setCaller c _ (by simp)
  · obtain rfl := Option.some.inj hStep
    exact (h.setReady _).setCaller c _ (by simp)
  · split at hStep <;> obtain rfl := Option.some.inj hStep
    · exact (h.setReady _).setCaller c _ fun hReturned => absurd hReturned (hEnded _)
    · exact h.setCaller c _ (by simp)
  · split at hStep
    · obtain rfl := Option.some.inj hStep
      exact (h.setReady _).setCaller c _ fun hReturned => absurd hReturned (hEnded _)
    · cases hStep
  · obtain rfl := Option.some.inj hStep
    exact h.setCaller c _ fun hReturned =>
      running_of_readyAfterWait (CallerPc.returned.inj hReturned)

theorem RunningKnown.step {s s' : Readiness ι κ} {action : ReadinessAction ι κ}
    (h : s.RunningKnown) (hStep : s.step action = some s') : s'.RunningKnown := by
  cases action with
  | call n call =>
      obtain ⟨-, rfl⟩ := enabled_iff.mp hStep
      exact ⟨h.now, h.returned⟩
  | transition n =>
      cases transitionEffect hStep with
      | moves pc => exact ⟨h.now, h.returned⟩
      | enters state pc =>
          have hEnter := h.enter state
          exact ⟨hEnter.now, hEnter.returned⟩
      | sends terminal pc => exact ⟨h.now, h.returned⟩
  | callReady c =>
      obtain ⟨-, rfl⟩ := enabled_iff.mp hStep
      exact h.setCaller c _ (by simp)
  | callWaitReady c =>
      obtain ⟨-, rfl⟩ := enabled_iff.mp hStep
      exact h.setCaller c _ (by simp)
  | caller c => exact h.stepCaller hStep
  | drop c =>
      simp only [Readiness.step] at hStep
      split at hStep
      · obtain rfl := Option.some.inj hStep
        exact (h.setReady _).setCaller c _ (by simp)
      · cases hStep

theorem runningKnown_initial {s : Readiness ι κ} (hInitial : machine.Initial s) :
    s.RunningKnown := by
  obtain ⟨hState, -, -, hIdle, -⟩ := hInitial
  refine ⟨fun h => ?_, fun c h => ?_⟩
  · rw [hState] at h
    cases h
  · rw [hIdle c] at h
    cases h

end Readiness

/-- A call of `ready` that succeeds does so only after the server was running. In
every run in which nobody subscribes after an announcement to nobody, no caller
of `ready` waits for good. -/
theorem ready_not_missed {ι κ : Type} [DecidableEq ι] [DecidableEq κ] (s : Readiness ι κ)
    (hReach : Readiness.machine.Reachable s) :
    (∀ c, s.caller c = .returned (.ok ()) → s.reachedRunning = true) ∧
      (Readiness.machine.ReachableUnder (fun s action => ¬s.SubscribesLate action) s →
        ¬s.Hangs) := by
  constructor
  · have hKnown : s.RunningKnown := by
      refine Machine.ReachableUnder.invariant ?_ ?_ hReach
      · intro start hInitial
        exact Readiness.runningKnown_initial hInitial
      · intro before action after h _ hStep
        exact h.step hStep
    exact hKnown.returned
  · intro hUnder
    have hNotified : s.Notified := by
      refine Machine.ReachableUnder.invariant ?_ ?_ hUnder
      · intro start hInitial
        exact Readiness.notified_initial hInitial
      · intro before action after h hGuard hStep
        exact h.step hGuard hStep
    exact hNotified.not_hangs

/-- A server that is created, with one caller. -/
def createdServer : Readiness Unit Unit where
  state := .created
  ready := Watch.channel false
  transition := fun _ => .idle
  caller := fun _ => .idle
  reachedRunning := false

theorem createdServer_initial : Readiness.machine.Initial createdServer :=
  ⟨rfl, rfl, fun _ => rfl, fun _ => rfl, rfl⟩

/-- A caller that subscribes while the server starts is told. -/
theorem ready_not_missed_told_in_time :
    ∃ s : Readiness Unit Unit,
      Readiness.machine.ReachableUnder (fun s action => ¬s.SubscribesLate action) s ∧
        s.caller () = .returned (.ok ()) ∧ s.reachedRunning = true ∧ ¬s.Hangs := by
  have hStart : Readiness.machine.ReachableUnder (fun s action => ¬s.SubscribesLate action)
      createdServer := .start createdServer_initial
  have hStarting := (hStart.step (a := .call () .start) id rfl).step (a := .transition ()) id rfl
  have hLoaded := (hStarting.step (a := .callReady ()) id rfl).step (a := .caller ())
    (fun h => by cases h.1) rfl
  have hSubscribed := hLoaded.step (a := .caller ()) (by exact fun h => h.2.2.1 rfl) rfl
  have hWaiting := hSubscribed.step (a := .caller ()) (fun h => by cases h.1) rfl
  have hRunning := (hWaiting.step (a := .call () .markRunning) id rfl).step (a := .transition ())
    id rfl
  have hSent := hRunning.step (a := .transition ()) id rfl
  have hWoken := hSent.step (a := .caller ()) (fun h => by cases h.1) rfl
  have hReturned := hWoken.step (a := .caller ()) (fun h => by cases h.1) rfl
  have hReady := ready_not_missed _ hReturned.reachable
  exact ⟨_, hReturned, rfl, hReady.1 () rfl, hReady.2 hReturned⟩

/-- The state is loaded, the server starts to run and announces it to nobody, and
only then does the caller subscribe. -/
theorem ready_hangs :
    ∃ s : Readiness Unit Unit, Readiness.machine.Reachable s ∧ s.state = .running ∧ s.Hangs := by
  have hStart : Readiness.machine.Reachable createdServer := .start createdServer_initial
  have hStarting := (hStart.step (a := .call () .start) trivial rfl).step (a := .transition ())
    trivial rfl
  have hLoaded := (hStarting.step (a := .callReady ()) trivial rfl).step (a := .caller ())
    trivial rfl
  have hRunning := (hLoaded.step (a := .call () .markRunning) trivial rfl).step
    (a := .transition ()) trivial rfl
  have hSent := hRunning.step (a := .transition ()) trivial rfl
  have hWaiting := (hSent.step (a := .caller ()) trivial rfl).step (a := .caller ()) trivial rfl
  exact ⟨_, hWaiting, rfl, by decide, fun _ => rfl, (), rfl, rfl⟩

end Eggserve.Server
