import Eggserve.Server.Readiness
import Eggserve.Transition.Broadcast
import Eggserve.Transition.Once

/-! Waiting for a server to end. A transition that makes the lifecycle terminal
sends a message over a broadcast channel in a later step, and `wait_internal`
subscribes before it looks at the state. -/
namespace Eggserve.Server
open Rust Transition

/-- The edges of the lifecycle. -/
def LifecycleState.Edge : LifecycleState → LifecycleState → Prop
  | created, next => next = starting ∨ next = stopped ∨ next = failed
  | starting, next => next = running ∨ next = stopped ∨ next = failed
  | running, next => next = draining ∨ next = failed
  | draining, next => next = stopped ∨ next = failed
  | stopped, _ => False
  | failed, _ => False

namespace LifecycleState

/-- How far the lifecycle has come. -/
def rank : LifecycleState → Nat
  | created => 0
  | starting => 1
  | running => 2
  | draining => 3
  | stopped | failed => 4

theorem Edge.rank_lt {old new : LifecycleState} (h : Edge old new) : old.rank < new.rank := by
  cases old with
  | created => rcases h with rfl | rfl | rfl <;> decide
  | starting => rcases h with rfl | rfl | rfl <;> decide
  | running => rcases h with rfl | rfl <;> decide
  | draining => rcases h with rfl | rfl <;> decide
  | stopped => cases h
  | failed => cases h

theorem Edge.not_terminal {old new : LifecycleState} (h : Edge old new) :
    old.isTerminal = false := by
  cases old with
  | stopped => cases h
  | failed => cases h
  | _ => rfl

theorem edge_failed {old : LifecycleState} (h : old.isTerminal = false) : Edge old .failed := by
  cases old with
  | created => exact Or.inr (Or.inr rfl)
  | starting => exact Or.inr (Or.inr rfl)
  | running => exact Or.inr rfl
  | draining => exact Or.inr rfl
  | stopped => cases h
  | failed => cases h

end LifecycleState

/-! What is done once. -/

/-- Done once, and not before the lifecycle has come this far. -/
def OnceFrom {ι : Type} (rank : Nat) (pending : TransitionPc → Bool) (transition : ι → TransitionPc)
    (state : LifecycleState) (count : Nat) : Prop :=
  ∃ due, Once pending transition due count ∧ (due = true → rank ≤ state.rank)

namespace OnceFrom

variable {ι : Type} {rank count : Nat} {pending : TransitionPc → Bool}
  {transition : ι → TransitionPc} {state next : LifecycleState} {n : ι} {pc : TransitionPc}

theorem early (h : OnceFrom rank pending transition state count) (hRank : state.rank < rank) :
    Once pending transition false count := by
  obtain ⟨due, hOnce, hDue⟩ := h
  cases due with
  | false => exact hOnce
  | true => exact absurd (hDue rfl) (Nat.not_le.mpr hRank)

theorem count_le (h : OnceFrom rank pending transition state count) : count ≤ 1 := by
  obtain ⟨due, hOnce, -⟩ := h
  exact hOnce.count_le

variable [DecidableEq ι]

theorem keep (h : OnceFrom rank pending transition state count) (hRank : state.rank ≤ next.rank)
    (hSame : pending pc = pending (transition n)) :
    OnceFrom rank pending (Function.update transition n pc) next count := by
  obtain ⟨due, hOnce, hDue⟩ := h
  exact ⟨due, hOnce.keep hSame, fun hTrue => (hDue hTrue).trans hRank⟩

theorem take (h : OnceFrom rank pending transition state count) (hBefore : state.rank < rank)
    (hAfter : rank ≤ next.rank) (hNew : pending pc = true) :
    OnceFrom rank pending (Function.update transition n pc) next count :=
  ⟨true, (h.early hBefore).take hNew, fun _ => hAfter⟩

theorem finish (h : OnceFrom rank pending transition state count)
    (hOld : pending (transition n) = true) (hNew : pending pc = false) :
    OnceFrom rank pending (Function.update transition n pc) state (count + 1) := by
  obtain ⟨due, hOnce, hDue⟩ := h
  exact ⟨due, hOnce.finish hOld hNew, hDue⟩

theorem atOnce (h : OnceFrom rank pending transition state count) (hBefore : state.rank < rank)
    (hAfter : rank ≤ next.rank) (hNew : pending pc = false) :
    OnceFrom rank pending (Function.update transition n pc) next (count + 1) :=
  ⟨true, (h.early hBefore).atOnce hNew, fun _ => hAfter⟩

end OnceFrom

/-- Where a caller of `wait_internal` stands. -/
inductive WaiterPc where
  | idle
  | subscribe
  | load (terminalRx : Receiver)
  | recv (terminalRx : Receiver)
  | returned
  deriving DecidableEq

def WaiterPc.finished : WaiterPc → Bool
  | .idle | .returned => true
  | _ => false

/-- The server with its terminal channel, its waiters and the history of what the
transitions returned and emitted. -/
structure LifecycleRun (ι κ ω : Type) where
  server : Readiness ι κ
  terminal : Broadcast Unit
  waiter : ω → WaiterPc
  /-- What each thread called last. -/
  called : ι → LifecycleCall
  results : List (LifecycleCall × Except ServerError Unit)
  drainingStarted : Nat

inductive LifecycleRunAction (ι κ ω : Type) where
  | server (action : ReadinessAction ι κ)
  | callWait (w : ω)
  | waiter (w : ω)
  /-- The future of a waiter is dropped. -/
  | dropWait (w : ω)

namespace LifecycleRun

variable {ι κ ω : Type}

/-- What is left of the step of a transition outside the server: the message, the
event, and the result where it returns. -/
def record (s : LifecycleRun ι κ ω) (n : ι) (next : Readiness ι κ) : LifecycleRun ι κ ω where
  server := next
  terminal := if s.server.transition n = .sendTerminal then s.terminal.send () else s.terminal
  waiter := s.waiter
  called := s.called
  results :=
    match next.transition n with
    | .returned result => (s.called n, result) :: s.results
    | _ => s.results
  drainingStarted :=
    if s.server.state = .running ∧ next.state = .draining then s.drainingStarted + 1
    else s.drainingStarted

/-- How many calls of this kind returned `Ok`. -/
def succeeded (s : LifecycleRun ι κ ω) (call : LifecycleCall) : Nat :=
  s.results.count (call, .ok ())

/-- A result that is not the success of the call leaves the count. -/
theorem succeeded_record {s : LifecycleRun ι κ ω} {n : ι} {next : Readiness ι κ}
    {call : LifecycleCall}
    (h : next.transition n = .returned (.ok ()) → s.called n ≠ call) :
    (s.record n next).succeeded call = s.succeeded call := by
  unfold succeeded record
  cases hPc : next.transition n with
  | returned result =>
      simp only
      rw [List.count_cons_of_ne]
      intro hEq
      obtain ⟨hCalled, rfl⟩ := Prod.mk.inj hEq
      exact h hPc hCalled
  | _ => rfl

theorem succeeded_record_ok {s : LifecycleRun ι κ ω} {n : ι} {next : Readiness ι κ}
    (h : next.transition n = .returned (.ok ())) :
    (s.record n next).succeeded (s.called n) = s.succeeded (s.called n) + 1 := by
  unfold succeeded record
  rw [h]
  exact List.count_cons_self

theorem terminal_record {s : LifecycleRun ι κ ω} {n : ι} {next : Readiness ι κ}
    (h : s.server.transition n ≠ .sendTerminal) : (s.record n next).terminal = s.terminal :=
  if_neg h

theorem drainingStarted_record {s : LifecycleRun ι κ ω} {n : ι} {next : Readiness ι κ}
    (h : next.state ≠ .draining) : (s.record n next).drainingStarted = s.drainingStarted :=
  if_neg fun hBoth => h hBoth.2

theorem drainingStarted_record_same {s : LifecycleRun ι κ ω} {n : ι} {next : Readiness ι κ}
    (h : next.state = s.server.state) : (s.record n next).drainingStarted = s.drainingStarted := by
  refine if_neg fun ⟨hRunning, hDraining⟩ => ?_
  cases hRunning.symm.trans (h.symm.trans hDraining)

/-- No message is taken back. -/
theorem sent_record (s : LifecycleRun ι κ ω) (n : ι) (next : Readiness ι κ) :
    s.terminal.sent.length ≤ (s.record n next).terminal.sent.length := by
  by_cases hPc : s.server.transition n = .sendTerminal
  · have hSent : (s.record n next).terminal = s.terminal.send () := if_pos hPc
    rw [hSent, Broadcast.send, List.length_append]
    exact Nat.le_add_right _ _
  · rw [terminal_record hPc]

variable [DecidableEq ι] [DecidableEq κ] [DecidableEq ω]

def setWaiter (s : LifecycleRun ι κ ω) (w : ω) (pc : WaiterPc) : LifecycleRun ι κ ω :=
  { s with waiter := Function.update s.waiter w pc }

def stepServer (s : LifecycleRun ι κ ω) (action : ReadinessAction ι κ) :
    Option (LifecycleRun ι κ ω) :=
  (s.server.step action).map fun next =>
    match action with
    | .call n call => { s with server := next, called := Function.update s.called n call }
    | .transition n => s.record n next
    | _ => { s with server := next }

/-- The receiver is made before the state is loaded. -/
def stepWaiter (s : LifecycleRun ι κ ω) (w : ω) : Option (LifecycleRun ι κ ω) :=
  match s.waiter w with
  | .idle | .returned => none
  | .subscribe => some (s.setWaiter w (.load s.terminal.subscribe))
  | .load terminalRx =>
      if s.server.state.isTerminal then some (s.setWaiter w .returned)
      else some (s.setWaiter w (.recv terminalRx))
  | .recv terminalRx =>
      if s.terminal.receivable terminalRx then some (s.setWaiter w .returned) else none

def step (s : LifecycleRun ι κ ω) : LifecycleRunAction ι κ ω → Option (LifecycleRun ι κ ω)
  | .server action => s.stepServer action
  | .callWait w => if (s.waiter w).finished then some (s.setWaiter w .subscribe) else none
  | .waiter w => s.stepWaiter w
  | .dropWait w =>
      match s.waiter w with
      | .recv _ => some (s.setWaiter w .idle)
      | _ => none

def machine : Machine (LifecycleRun ι κ ω) (LifecycleRunAction ι κ ω) where
  Initial s := Readiness.machine.Initial s.server ∧ s.terminal = ⟨1, []⟩ ∧
    (∀ w, s.waiter w = .idle) ∧ s.results = [] ∧ s.drainingStarted = 0
  step := step

/-- A transition has made the state terminal and still has to send the message. -/
def notifies : TransitionPc → Bool
  | .sendReady terminal => terminal
  | .sendTerminal => true
  | _ => false

/-- A waiter is parked without a message although the state is terminal and nobody
is left to send one. -/
def Forgotten (s : LifecycleRun ι κ ω) : Prop :=
  s.server.state.isTerminal = true ∧ (∀ n, notifies (s.server.transition n) = false) ∧
    ∃ w terminalRx, s.waiter w = .recv terminalRx ∧ s.terminal.receivable terminalRx = false

/-! What a transition does. -/

/-- A transition has made the server run and still has to announce it. -/
def announcesRunning (pc : TransitionPc) : Bool := pc = .sendReady false

/-- Nothing is left to send. -/
def Quiet (pc : TransitionPc) : Prop := notifies pc = false ∧ announcesRunning pc = false

/-- The place belongs to the call, and what it has seen of the state let it come
there. -/
def Belongs (call : LifecycleCall) : TransitionPc → Prop
  | .idle | .returned _ => True
  | .start => call = .start
  | .markRunning | .sendReady false => call = .markRunning
  | .drainLoad => call = .drain
  | .drainExchange seen =>
      call = .drain ∧ (seen = .running ∨ seen = .created ∨ seen = .starting)
  | .markStopped => call = .markStopped
  | .failLoad => call = .markFailed
  | .failExchange seen => call = .markFailed ∧ seen.isTerminal = false
  | .sendReady true | .sendTerminal => call ≠ .start ∧ call ≠ .markRunning

inductive Effect (s : Readiness ι κ) (n : ι) (call : LifecycleCall) : Readiness ι κ → Prop where
  | moves (pc : TransitionPc) (hOld : Quiet (s.transition n)) (hNew : Quiet pc)
      (hBelongs : Belongs call pc)
      (hOk : pc = .returned (.ok ()) → call ≠ .start ∧ call ≠ .markRunning) :
      Effect s n call (s.setTransition n pc)
  | starts (hOld : s.transition n = .start) (hCall : call = .start) (hState : s.state = .created) :
      Effect s n call ((s.enter .starting).setTransition n (.returned (.ok ())))
  | runs (hOld : s.transition n = .markRunning) (hCall : call = .markRunning)
      (hState : s.state = .starting) :
      Effect s n call ((s.enter .running).setTransition n (.sendReady false))
  | drains (hOld : Quiet (s.transition n)) (hCall : call = .drain) (hState : s.state = .running) :
      Effect s n call ((s.enter .draining).setTransition n (.returned (.ok ())))
  | ends (state : LifecycleState) (pc : TransitionPc) (hOld : Quiet (s.transition n))
      (hEdge : s.state.Edge state) (hTerminal : state.isTerminal = true)
      (hNotifies : notifies pc = true) (hBelongs : Belongs call pc) :
      Effect s n call ((s.enter state).setTransition n pc)
  | ran (hOld : s.transition n = .sendReady false) (hCall : call = .markRunning) :
      Effect s n call
        ({ s with ready := s.ready.send true }.setTransition n (.returned (.ok ())))
  | announced (hOld : s.transition n = .sendReady true)
      (hCall : call ≠ .start ∧ call ≠ .markRunning) :
      Effect s n call ({ s with ready := s.ready.send true }.setTransition n .sendTerminal)
  | sent (hOld : s.transition n = .sendTerminal) (hCall : call ≠ .start ∧ call ≠ .markRunning) :
      Effect s n call (s.setTransition n (.returned (.ok ())))

theorem effect {s s' : Readiness ι κ} {n : ι} {call : LifecycleCall}
    (hBelongs : Belongs call (s.transition n)) (hStep : s.stepTransition n = some s') :
    Effect s n call s' := by
  unfold Readiness.stepTransition at hStep
  cases hPc : s.transition n with
  | idle =>
      simp only [hPc] at hStep
      cases hStep
  | returned result =>
      simp only [hPc] at hStep
      cases hStep
  | start =>
      simp only [hPc] at hStep
      rw [hPc] at hBelongs
      split at hStep <;> rename_i hState <;> obtain rfl := Option.some.inj hStep
      · exact .starts hPc hBelongs hState
      · exact .moves _ (by rw [hPc]; exact ⟨rfl, rfl⟩) ⟨rfl, rfl⟩ trivial nofun
  | markRunning =>
      simp only [hPc] at hStep
      rw [hPc] at hBelongs
      split at hStep <;> rename_i hState <;> obtain rfl := Option.some.inj hStep
      · exact .runs hPc hBelongs hState
      · exact .moves _ (by rw [hPc]; exact ⟨rfl, rfl⟩) ⟨rfl, rfl⟩ trivial nofun
  | drainLoad =>
      simp only [hPc] at hStep
      rw [hPc] at hBelongs
      have hQuiet : Quiet (s.transition n) := by rw [hPc]; exact ⟨rfl, rfl⟩
      have hOther : call ≠ .start ∧ call ≠ .markRunning := by
        rw [show call = .drain from hBelongs]
        exact ⟨nofun, nofun⟩
      split at hStep <;> rename_i hState <;> obtain rfl := Option.some.inj hStep
      · exact .moves _ hQuiet ⟨rfl, rfl⟩ ⟨hBelongs, Or.inl hState⟩ nofun
      · exact .moves _ hQuiet ⟨rfl, rfl⟩ ⟨hBelongs, Or.inr (Or.inl hState)⟩ nofun
      · exact .moves _ hQuiet ⟨rfl, rfl⟩ ⟨hBelongs, Or.inr (Or.inr hState)⟩ nofun
      · exact .moves _ hQuiet ⟨rfl, rfl⟩ trivial fun _ => hOther
  | drainExchange seen =>
      simp only [hPc] at hStep
      rw [hPc] at hBelongs
      have hQuiet : Quiet (s.transition n) := by rw [hPc]; exact ⟨rfl, rfl⟩
      obtain ⟨rfl, hSeen⟩ := hBelongs
      split at hStep <;> rename_i hState <;> obtain rfl := Option.some.inj hStep
      · rcases hSeen with rfl | rfl | rfl
        · exact .drains hQuiet rfl hState
        · exact .ends .stopped _ hQuiet (by rw [hState]; exact Or.inr (Or.inl rfl)) rfl rfl
            ⟨nofun, nofun⟩
        · exact .ends .stopped _ hQuiet (by rw [hState]; exact Or.inr (Or.inl rfl)) rfl rfl
            ⟨nofun, nofun⟩
      · exact .moves _ hQuiet ⟨rfl, rfl⟩ rfl nofun
  | markStopped =>
      simp only [hPc] at hStep
      rw [hPc] at hBelongs
      have hQuiet : Quiet (s.transition n) := by rw [hPc]; exact ⟨rfl, rfl⟩
      have hOther : call ≠ .start ∧ call ≠ .markRunning := by
        rw [show call = .markStopped from hBelongs]
        exact ⟨nofun, nofun⟩
      split at hStep <;> rename_i hState
      · obtain rfl := Option.some.inj hStep
        exact .ends .stopped _ hQuiet (by rw [hState]; exact Or.inl rfl) rfl rfl hOther
      · split at hStep <;> obtain rfl := Option.some.inj hStep
        · exact .moves _ hQuiet ⟨rfl, rfl⟩ trivial fun _ => hOther
        · exact .moves _ hQuiet ⟨rfl, rfl⟩ trivial nofun
  | failLoad =>
      simp only [hPc] at hStep
      rw [hPc] at hBelongs
      have hQuiet : Quiet (s.transition n) := by rw [hPc]; exact ⟨rfl, rfl⟩
      have hOther : call ≠ .start ∧ call ≠ .markRunning := by
        rw [show call = .markFailed from hBelongs]
        exact ⟨nofun, nofun⟩
      split at hStep <;> rename_i hState <;> obtain rfl := Option.some.inj hStep
      · exact .moves _ hQuiet ⟨rfl, rfl⟩ trivial fun _ => hOther
      · exact .moves _ hQuiet ⟨rfl, rfl⟩ ⟨hBelongs, Bool.eq_false_of_not_eq_true hState⟩ nofun
  | failExchange seen =>
      simp only [hPc] at hStep
      rw [hPc] at hBelongs
      have hQuiet : Quiet (s.transition n) := by rw [hPc]; exact ⟨rfl, rfl⟩
      obtain ⟨rfl, hSeen⟩ := hBelongs
      split at hStep <;> rename_i hState <;> obtain rfl := Option.some.inj hStep
      · exact .ends .failed _ hQuiet (LifecycleState.edge_failed (hState ▸ hSeen)) rfl rfl
          ⟨nofun, nofun⟩
      · exact .moves _ hQuiet ⟨rfl, rfl⟩ rfl nofun
  | sendReady terminal =>
      simp only [hPc] at hStep
      rw [hPc] at hBelongs
      obtain rfl := Option.some.inj hStep
      cases terminal with
      | false => exact .ran hPc hBelongs
      | true => exact .announced hPc hBelongs
  | sendTerminal =>
      simp only [hPc] at hStep
      rw [hPc] at hBelongs
      obtain rfl := Option.some.inj hStep
      exact .sent hPc hBelongs

structure Ledger (s : LifecycleRun ι κ ω) : Prop where
  belongs : ∀ n, Belongs (s.called n) (s.server.transition n)
  starts : OnceFrom 1 (fun _ => false) s.server.transition s.server.state (s.succeeded .start)
  runs : OnceFrom 2 announcesRunning s.server.transition s.server.state
    (s.succeeded .markRunning)
  drains : OnceFrom 3 (fun _ => false) s.server.transition s.server.state s.drainingStarted
  sends : Once notifies s.server.transition s.server.state.isTerminal s.terminal.sent.length
  loads : ∀ w terminalRx, s.waiter w = .load terminalRx →
    terminalRx.next ≤ s.terminal.sent.length
  parks : ∀ w terminalRx, s.waiter w = .recv terminalRx → terminalRx.next = 0

omit [DecidableEq ι] in
/-- A caller of `ready` only looks at the state. -/
theorem stepCaller_frame {server next : Readiness ι κ} {c : κ}
    (hStep : server.stepCaller c = some next) :
    next.state = server.state ∧ next.transition = server.transition := by
  unfold Readiness.stepCaller at hStep
  split at hStep
  · cases hStep
  · cases hStep
  · cases hStep
  · split at hStep <;> obtain rfl := Option.some.inj hStep <;> exact ⟨rfl, rfl⟩
  · obtain rfl := Option.some.inj hStep
    exact ⟨rfl, rfl⟩
  · split at hStep <;> obtain rfl := Option.some.inj hStep <;> exact ⟨rfl, rfl⟩
  · obtain ⟨-, rfl⟩ := enabled_iff.mp hStep
    exact ⟨rfl, rfl⟩
  · obtain rfl := Option.some.inj hStep
    exact ⟨rfl, rfl⟩

section Steps

variable {s : LifecycleRun ι κ ω} {n : ι} {pc : TransitionPc} {next : Readiness ι κ}

theorem Quiet.ne_sendTerminal {pc : TransitionPc} (h : Quiet pc) : pc ≠ .sendTerminal := by
  rintro rfl
  cases h.1

omit [DecidableEq κ] [DecidableEq ω] in
/-- The waiters are as they were, and no message is lost. -/
theorem Ledger.recorded (h : s.Ledger)
    (hTransition : next.transition = Function.update s.server.transition n pc)
    (hBelongs : Belongs (s.called n) pc)
    (hStarts : OnceFrom 1 (fun _ => false) next.transition next.state
      ((s.record n next).succeeded .start))
    (hRuns : OnceFrom 2 announcesRunning next.transition next.state
      ((s.record n next).succeeded .markRunning))
    (hDrains : OnceFrom 3 (fun _ => false) next.transition next.state
      (s.record n next).drainingStarted)
    (hSends : Once notifies next.transition next.state.isTerminal
      (s.record n next).terminal.sent.length) : (s.record n next).Ledger := by
  refine ⟨fun m => ?_, hStarts, hRuns, hDrains, hSends, fun w terminalRx hLoad => ?_, h.parks⟩
  · change Belongs (s.called m) (next.transition m)
    rw [hTransition]
    by_cases hEq : m = n
    · rw [hEq, Function.update_self]
      exact hBelongs
    · rw [Function.update_of_ne hEq]
      exact h.belongs m
  · exact (h.loads w terminalRx hLoad).trans (sent_record s n next)

omit [DecidableEq ω] in
/-- A transition keeps the ledger. -/
theorem Ledger.transition (h : s.Ledger) (hEffect : Effect s.server n (s.called n) next) :
    (s.record n next).Ledger := by
  cases hEffect with
  | moves pc hOld hNew hBelongs hOk =>
      have hPc : (s.server.setTransition n pc).transition n = pc := Function.update_self ..
      refine h.recorded rfl hBelongs ?_ ?_ ?_ ?_
      · rw [succeeded_record fun hReturned => (hOk (hPc.symm.trans hReturned)).1]
        exact h.starts.keep (Nat.le_refl _) rfl
      · rw [succeeded_record fun hReturned => (hOk (hPc.symm.trans hReturned)).2]
        exact h.runs.keep (Nat.le_refl _) (hNew.2.trans hOld.2.symm)
      · rw [drainingStarted_record_same]
        · exact h.drains.keep (Nat.le_refl _) rfl
        · rfl
      · rw [terminal_record hOld.ne_sendTerminal]
        exact h.sends.keep (hNew.1.trans hOld.1.symm)
  | starts hOld hCall hState =>
      have hPc : ((s.server.enter .starting).setTransition n (.returned (.ok ()))).transition n =
          .returned (.ok ()) := Function.update_self ..
      have hRank : s.server.state.rank = 0 := by rw [hState]; rfl
      refine h.recorded rfl trivial ?_ ?_ ?_ ?_
      · rw [← hCall, succeeded_record_ok hPc, hCall]
        exact h.starts.atOnce (hRank ▸ Nat.one_pos) (Nat.le_refl 1) rfl
      · rw [succeeded_record fun _ => hCall ▸ nofun]
        exact h.runs.keep (hRank ▸ Nat.zero_le _) (by rw [hOld]; rfl)
      · rw [drainingStarted_record (show LifecycleState.starting ≠ .draining from nofun)]
        exact h.drains.keep (hRank ▸ Nat.zero_le _) rfl
      · rw [terminal_record (by rw [hOld]; exact nofun)]
        have hSends := h.sends
        rw [hState] at hSends
        exact hSends.keep (by rw [hOld]; rfl)
  | runs hOld hCall hState =>
      have hPc : ((s.server.enter .running).setTransition n (.sendReady false)).transition n =
          .sendReady false := Function.update_self ..
      have hRank : s.server.state.rank = 1 := by rw [hState]; rfl
      refine h.recorded rfl hCall ?_ ?_ ?_ ?_
      · rw [succeeded_record fun hReturned => nomatch hPc.symm.trans hReturned]
        exact h.starts.keep (hRank ▸ Nat.le_succ 1) rfl
      · rw [succeeded_record fun hReturned => nomatch hPc.symm.trans hReturned]
        exact h.runs.take (hRank ▸ Nat.lt_succ_self 1) (Nat.le_refl 2) rfl
      · rw [drainingStarted_record (show LifecycleState.running ≠ .draining from nofun)]
        exact h.drains.keep (hRank ▸ Nat.le_succ 1) rfl
      · rw [terminal_record (by rw [hOld]; exact nofun)]
        have hSends := h.sends
        rw [hState] at hSends
        exact hSends.keep (by rw [hOld]; rfl)
  | drains hOld hCall hState =>
      have hRank : s.server.state.rank = 2 := by rw [hState]; rfl
      refine h.recorded rfl trivial ?_ ?_ ?_ ?_
      · rw [succeeded_record fun _ => hCall ▸ nofun]
        exact h.starts.keep (hRank ▸ Nat.le_succ 2) rfl
      · rw [succeeded_record fun _ => hCall ▸ nofun]
        exact h.runs.keep (hRank ▸ Nat.le_succ 2) hOld.2.symm
      · have hEmitted : (s.record n ((s.server.enter .draining).setTransition n
            (.returned (.ok ())))).drainingStarted = s.drainingStarted + 1 := if_pos ⟨hState, rfl⟩
        rw [hEmitted]
        exact h.drains.atOnce (hRank ▸ Nat.lt_succ_self 2) (Nat.le_refl 3) rfl
      · rw [terminal_record hOld.ne_sendTerminal]
        have hSends := h.sends
        rw [hState] at hSends
        exact hSends.keep hOld.1.symm
  | ends state pc hOld hEdge hTerminal hNotifies hBelongs =>
      have hPc : ((s.server.enter state).setTransition n pc).transition n = pc :=
        Function.update_self ..
      have hSending : pc ≠ .returned (.ok ()) := by
        rintro rfl
        cases hNotifies
      have hRunning : announcesRunning pc = false := by
        refine decide_eq_false ?_
        rintro rfl
        cases hNotifies
      have hRank := Nat.le_of_lt hEdge.rank_lt
      refine h.recorded rfl hBelongs ?_ ?_ ?_ ?_
      · rw [succeeded_record fun hReturned => absurd (hPc.symm.trans hReturned) hSending]
        exact h.starts.keep hRank rfl
      · rw [succeeded_record fun hReturned => absurd (hPc.symm.trans hReturned) hSending]
        exact h.runs.keep hRank (hRunning.trans hOld.2.symm)
      · have hEnded : state ≠ .draining := by
          rintro rfl
          cases hTerminal
        rw [drainingStarted_record hEnded]
        exact h.drains.keep hRank rfl
      · rw [terminal_record hOld.ne_sendTerminal]
        have hSends := h.sends
        rw [hEdge.not_terminal] at hSends
        change Once notifies _ state.isTerminal _
        rw [hTerminal]
        exact hSends.take hNotifies
  | ran hOld hCall =>
      have hPc : (Readiness.setTransition { s.server with ready := s.server.ready.send true } n
          (.returned (.ok ()))).transition n = .returned (.ok ()) := Function.update_self ..
      refine h.recorded rfl trivial ?_ ?_ ?_ ?_
      · rw [succeeded_record fun _ => hCall ▸ nofun]
        exact h.starts.keep (Nat.le_refl _) rfl
      · rw [← hCall, succeeded_record_ok hPc, hCall]
        exact h.runs.finish (by rw [hOld]; rfl) rfl
      · rw [drainingStarted_record_same]
        · exact h.drains.keep (Nat.le_refl _) rfl
        · rfl
      · rw [terminal_record (by rw [hOld]; exact nofun)]
        exact h.sends.keep (by rw [hOld]; rfl)
  | announced hOld hCall =>
      refine h.recorded rfl hCall ?_ ?_ ?_ ?_
      · rw [succeeded_record fun _ => hCall.1]
        exact h.starts.keep (Nat.le_refl _) rfl
      · rw [succeeded_record fun _ => hCall.2]
        exact h.runs.keep (Nat.le_refl _) (by rw [hOld]; rfl)
      · rw [drainingStarted_record_same]
        · exact h.drains.keep (Nat.le_refl _) rfl
        · rfl
      · rw [terminal_record (by rw [hOld]; exact nofun)]
        exact h.sends.keep (by rw [hOld]; rfl)
  | sent hOld hCall =>
      refine h.recorded rfl trivial ?_ ?_ ?_ ?_
      · rw [succeeded_record fun _ => hCall.1]
        exact h.starts.keep (Nat.le_refl _) rfl
      · rw [succeeded_record fun _ => hCall.2]
        exact h.runs.keep (Nat.le_refl _) (by rw [hOld]; rfl)
      · rw [drainingStarted_record_same]
        · exact h.drains.keep (Nat.le_refl _) rfl
        · rfl
      · have hSent : (s.record n (s.server.setTransition n (.returned (.ok ())))).terminal =
            s.terminal.send () := if_pos hOld
        rw [hSent, Broadcast.send, List.length_append]
        exact h.sends.finish (by rw [hOld]; rfl) rfl

omit [DecidableEq ι] [DecidableEq κ] [DecidableEq ω] in
/-- The other steps of the server leave the transitions alone. -/
theorem Ledger.withServer (h : s.Ledger) (hState : next.state = s.server.state)
    (hTransition : next.transition = s.server.transition) :
    Ledger { s with server := next } := by
  obtain ⟨hBelongs, hStarts, hRuns, hDrains, hSends, hLoads, hParks⟩ := h
  rw [← hState, ← hTransition] at hStarts hRuns hDrains hSends
  rw [← hTransition] at hBelongs
  exact ⟨hBelongs, hStarts, hRuns, hDrains, hSends, hLoads, hParks⟩

omit [DecidableEq κ] [DecidableEq ω] in
theorem Ledger.call (h : s.Ledger) (call : LifecycleCall)
    (hFinished : (s.server.transition n).finished = true) :
    Ledger { s with
      server := s.server.setTransition n (.entry call)
      called := Function.update s.called n call } := by
  have hOld : Quiet (s.server.transition n) := by
    cases hPc : s.server.transition n with
    | idle => exact ⟨rfl, rfl⟩
    | returned result => exact ⟨rfl, rfl⟩
    | _ =>
        rw [hPc] at hFinished
        cases hFinished
  have hNew : Quiet (.entry call) := by
    cases call <;> exact ⟨rfl, rfl⟩
  have hBelongs : Belongs call (.entry call) := by
    cases call <;> rfl
  refine ⟨fun m => ?_, h.starts.keep (Nat.le_refl _) rfl,
    h.runs.keep (Nat.le_refl _) (hNew.2.trans hOld.2.symm), h.drains.keep (Nat.le_refl _) rfl,
    h.sends.keep (hNew.1.trans hOld.1.symm), h.loads, h.parks⟩
  by_cases hEq : m = n
  · simpa [Readiness.setTransition, hEq] using hBelongs
  · simpa [Readiness.setTransition, Function.update_of_ne hEq] using h.belongs m

/-- What a step of the server is for the rest: a call, a step of a transition, or
nothing. -/
inductive ServerEffect (s : LifecycleRun ι κ ω) : LifecycleRun ι κ ω → Prop where
  | call (n : ι) (call : LifecycleCall) (hFinished : (s.server.transition n).finished = true) :
      ServerEffect s { s with
        server := s.server.setTransition n (.entry call)
        called := Function.update s.called n call }
  | transition (n : ι) (next : Readiness ι κ) (hStep : s.server.stepTransition n = some next) :
      ServerEffect s (s.record n next)
  | other (next : Readiness ι κ) (hState : next.state = s.server.state)
      (hTransition : next.transition = s.server.transition) :
      ServerEffect s { s with server := next }

omit [DecidableEq ω] in
theorem serverEffect {s' : LifecycleRun ι κ ω} {action : ReadinessAction ι κ}
    (hStep : s.stepServer action = some s') : ServerEffect s s' := by
  obtain ⟨next, hServer, rfl⟩ := Option.map_eq_some_iff.mp hStep
  cases action with
  | call m call =>
      obtain ⟨hFinished, rfl⟩ := enabled_iff.mp hServer
      exact .call m call hFinished
  | transition m => exact .transition m next hServer
  | callReady c =>
      obtain ⟨-, rfl⟩ := enabled_iff.mp hServer
      exact .other _ rfl rfl
  | callWaitReady c =>
      obtain ⟨-, rfl⟩ := enabled_iff.mp hServer
      exact .other _ rfl rfl
  | caller c =>
      obtain ⟨hState, hTransition⟩ := stepCaller_frame hServer
      exact .other _ hState hTransition
  | drop c =>
      simp only [Readiness.step] at hServer
      split at hServer
      · obtain rfl := Option.some.inj hServer
        exact .other _ rfl rfl
      · cases hServer

omit [DecidableEq ω] in
theorem Ledger.stepServer {s' : LifecycleRun ι κ ω} (h : s.Ledger) (hEffect : ServerEffect s s') :
    s'.Ledger := by
  cases hEffect with
  | call n call hFinished => exact h.call call hFinished
  | transition n next hStep => exact h.transition (effect (h.belongs n) hStep)
  | other next hState hTransition => exact h.withServer hState hTransition

omit [DecidableEq ι] [DecidableEq κ] in
/-- A waiter keeps the ledger if its new place does. -/
theorem Ledger.setWaiter (h : s.Ledger) {w : ω} {new : WaiterPc}
    (hLoad : ∀ terminalRx, new = .load terminalRx → terminalRx.next ≤ s.terminal.sent.length)
    (hPark : ∀ terminalRx, new = .recv terminalRx → terminalRx.next = 0) :
    (s.setWaiter w new).Ledger := by
  refine ⟨h.belongs, h.starts, h.runs, h.drains, h.sends, fun v terminalRx hPc => ?_,
    fun v terminalRx hPc => ?_⟩
  · by_cases hEq : v = w
    · exact hLoad terminalRx (by simpa [LifecycleRun.setWaiter, hEq] using hPc)
    · exact h.loads v terminalRx (by simpa [LifecycleRun.setWaiter, hEq] using hPc)
  · by_cases hEq : v = w
    · exact hPark terminalRx (by simpa [LifecycleRun.setWaiter, hEq] using hPc)
    · exact h.parks v terminalRx (by simpa [LifecycleRun.setWaiter, hEq] using hPc)

omit [DecidableEq ι] [DecidableEq κ] in
/-- A waiter parks only before the message: it has subscribed before it saw that
the state is not terminal. -/
theorem Ledger.stepWaiter {s' : LifecycleRun ι κ ω} {w : ω} (h : s.Ledger)
    (hStep : s.stepWaiter w = some s') : s'.Ledger := by
  unfold LifecycleRun.stepWaiter at hStep
  split at hStep
  · cases hStep
  · cases hStep
  · obtain rfl := Option.some.inj hStep
    refine h.setWaiter (fun terminalRx hNew => ?_) nofun
    obtain rfl := WaiterPc.load.inj hNew
    exact Nat.le_refl _
  · rename_i terminalRx hPc
    split at hStep <;> rename_i hState <;> obtain rfl := Option.some.inj hStep
    · exact h.setWaiter nofun nofun
    · refine h.setWaiter nofun fun other hNew => ?_
      obtain rfl := WaiterPc.recv.inj hNew
      have hSends := h.sends
      rw [Bool.eq_false_of_not_eq_true hState] at hSends
      have hBefore := h.loads w terminalRx hPc
      rw [hSends.count_eq_zero] at hBefore
      exact Nat.le_zero.mp hBefore
  · obtain ⟨-, rfl⟩ := enabled_iff.mp hStep
    exact h.setWaiter nofun nofun

theorem Ledger.step {s' : LifecycleRun ι κ ω} {action : LifecycleRunAction ι κ ω} (h : s.Ledger)
    (hStep : s.step action = some s') : s'.Ledger := by
  cases action with
  | server action => exact h.stepServer (serverEffect hStep)
  | callWait w =>
      obtain ⟨-, rfl⟩ := enabled_iff.mp hStep
      exact h.setWaiter nofun nofun
  | waiter w => exact h.stepWaiter hStep
  | dropWait w =>
      simp only [LifecycleRun.step] at hStep
      split at hStep
      · obtain rfl := Option.some.inj hStep
        exact h.setWaiter nofun nofun
      · cases hStep

theorem ledger_initial (hInitial : machine.Initial s) : s.Ledger := by
  obtain ⟨⟨hState, -, hTransitions, -, -⟩, hTerminal, hWaiters, hResults, hDraining⟩ := hInitial
  have hNone : ∀ call, s.succeeded call = 0 := by
    intro call
    rw [succeeded, hResults]
    rfl
  have hEarly {P : Prop} (h : false = true) : P := by cases h
  refine ⟨fun n => ?_, ⟨false, ?_, hEarly⟩, ⟨false, ?_, hEarly⟩, ⟨false, ?_, hEarly⟩, ?_,
    fun w terminalRx hPc => ?_, fun w terminalRx hPc => ?_⟩
  · rw [hTransitions n]
    trivial
  · rw [hNone]
    exact .early fun _ => rfl
  · rw [hNone]
    exact .early fun n => by rw [hTransitions n]; rfl
  · rw [hDraining]
    exact .early fun _ => rfl
  · rw [hTerminal, hState]
    exact .early fun n => by rw [hTransitions n]; rfl
  · cases (hWaiters w).symm.trans hPc
  · cases (hWaiters w).symm.trans hPc

end Steps

theorem ledger_of_reachable {s : LifecycleRun ι κ ω} (hReach : machine.Reachable s) : s.Ledger := by
  refine Machine.ReachableUnder.invariant ?_ ?_ hReach
  · intro start hInitial
    exact ledger_initial hInitial
  · intro before action after h _ hStep
    exact h.step hStep

/-! The state and its waiters. -/

section States

variable {s s' : LifecycleRun ι κ ω}

omit [DecidableEq ι] [DecidableEq κ] in
theorem server_of_stepWaiter {w : ω} (hStep : s.stepWaiter w = some s') : s'.server = s.server := by
  unfold stepWaiter at hStep
  split at hStep
  · cases hStep
  · cases hStep
  · obtain rfl := Option.some.inj hStep
    rfl
  · split at hStep <;> obtain rfl := Option.some.inj hStep <;> rfl
  · obtain ⟨-, rfl⟩ := enabled_iff.mp hStep
    rfl

theorem Effect.edge {server next : Readiness ι κ} {n : ι} {call : LifecycleCall}
    (h : Effect server n call next) :
    next.state = server.state ∨ server.state.Edge next.state := by
  cases h with
  | moves _ _ _ _ _ => exact Or.inl rfl
  | starts _ _ hState => exact Or.inr (by rw [hState]; exact Or.inl rfl)
  | runs _ _ hState => exact Or.inr (by rw [hState]; exact Or.inl rfl)
  | drains _ _ hState => exact Or.inr (by rw [hState]; exact Or.inl rfl)
  | ends _ _ _ hEdge _ _ _ => exact Or.inr hEdge
  | ran _ _ => exact Or.inl rfl
  | announced _ _ => exact Or.inl rfl
  | sent _ _ => exact Or.inl rfl

/-- Every step keeps the state or takes an edge. -/
theorem Ledger.edge {action : LifecycleRunAction ι κ ω} (h : s.Ledger)
    (hStep : s.step action = some s') :
    s'.server.state = s.server.state ∨ s.server.state.Edge s'.server.state := by
  cases action with
  | server action =>
      cases serverEffect hStep with
      | call n call hFinished => exact Or.inl rfl
      | transition n next hNext => exact (effect (h.belongs n) hNext).edge
      | other next hState hTransition => exact Or.inl hState
  | callWait w =>
      obtain ⟨-, rfl⟩ := enabled_iff.mp hStep
      exact Or.inl rfl
  | waiter w => exact Or.inl (congrArg Readiness.state (server_of_stepWaiter hStep))
  | dropWait w =>
      simp only [LifecycleRun.step] at hStep
      split at hStep
      · obtain rfl := Option.some.inj hStep
        exact Or.inl rfl
      · cases hStep

/-- A transition that still has to send is never held up. -/
theorem notifies_enabled {n : ι} (h : notifies (s.server.transition n) = true) :
    ∃ s', s.step (.server (.transition n)) = some s' := by
  simp only [step, stepServer, Readiness.step, Readiness.stepTransition]
  cases hPc : s.server.transition n with
  | sendReady terminal => exact ⟨_, rfl⟩
  | sendTerminal => exact ⟨_, rfl⟩
  | _ =>
      rw [hPc] at h
      cases h

omit [DecidableEq ι] [DecidableEq κ] [DecidableEq ω] in
/-- A parked waiter has subscribed before the message. -/
theorem Ledger.not_forgotten (h : s.Ledger) : ¬s.Forgotten := by
  rintro ⟨hTerminal, hNobody, w, terminalRx, hParked, hNothing⟩
  have hSends := h.sends
  rw [hTerminal] at hSends
  have hReceivable : s.terminal.receivable terminalRx = true := by
    rw [Broadcast.receivable_iff, h.parks w terminalRx hParked, hSends.count_eq_one hNobody]
    exact Nat.one_pos
  rw [hReceivable] at hNothing
  cases hNothing

end States

/-- What holds of the server and its waiters. -/
structure Guarantees (s : LifecycleRun ι κ ω) : Prop where
  edges : ∀ action s', s.step action = some s' →
    s'.server.state = s.server.state ∨ s.server.state.Edge s'.server.state
  terminal : s.server.state.isTerminal = true → ∀ action s', s.step action = some s' →
    s'.server.state = s.server.state
  one_start : s.succeeded .start ≤ 1
  one_markRunning : s.succeeded .markRunning ≤ 1
  one_drainingStarted : s.drainingStarted ≤ 1
  /-- No message before the end, never two, and one as soon as nobody has to send it. -/
  early_message : s.server.state.isTerminal = false → s.terminal.sent = []
  one_message : s.terminal.sent.length ≤ 1
  message : s.server.state.isTerminal = true → (∀ n, notifies (s.server.transition n) = false) →
    s.terminal.sent.length = 1
  /-- Nothing keeps a transition from sending. -/
  notifier : ∀ n, notifies (s.server.transition n) = true →
    ∃ s', s.step (.server (.transition n)) = some s'
  not_forgotten : ¬s.Forgotten

end LifecycleRun

/-- The guarantees hold in every state of every run, with any number of threads
and of waiters. -/
theorem lifecycle_guarantees {ι κ ω : Type} [DecidableEq ι] [DecidableEq κ] [DecidableEq ω]
    (s : LifecycleRun ι κ ω) (hReach : LifecycleRun.machine.Reachable s) : s.Guarantees := by
  have hLedger := LifecycleRun.ledger_of_reachable hReach
  have hSends := hLedger.sends
  exact {
    edges := fun _ _ hStep => hLedger.edge hStep
    terminal := by
      intro hTerminal action s' hStep
      rcases hLedger.edge hStep with hSame | hEdge
      · exact hSame
      · rw [hEdge.not_terminal] at hTerminal
        cases hTerminal
    one_start := hLedger.starts.count_le
    one_markRunning := hLedger.runs.count_le
    one_drainingStarted := hLedger.drains.count_le
    early_message := by
      intro hTerminal
      rw [hTerminal] at hSends
      exact List.length_eq_zero_iff.mp hSends.count_eq_zero
    one_message := hSends.count_le
    message := by
      intro hTerminal hNobody
      rw [hTerminal] at hSends
      exact hSends.count_eq_one hNobody
    notifier := fun _ h => LifecycleRun.notifies_enabled h
    not_forgotten := hLedger.not_forgotten }

/-- A created server with one thread and one waiter. -/
def createdRun : LifecycleRun Unit Unit Unit where
  server := createdServer
  terminal := ⟨1, []⟩
  waiter := fun _ => .idle
  called := fun _ => .start
  results := []
  drainingStarted := 0

/-- A waiter parks, the server is shut down before it has started, and the
message is there for the waiter. -/
theorem lifecycle_guarantees_stopped_early :
    ∃ s : LifecycleRun Unit Unit Unit, LifecycleRun.machine.Reachable s ∧
      s.server.state = .stopped ∧ s.waiter () = .recv ⟨0⟩ ∧ s.terminal.sent = [()] ∧
      s.Guarantees := by
  have hStart : LifecycleRun.machine.Reachable createdRun :=
    .start ⟨createdServer_initial, rfl, fun _ => rfl, rfl, rfl⟩
  have hSubscribed := (hStart.step (a := .callWait ()) trivial rfl).step (a := .waiter ())
    trivial rfl
  have hParked := hSubscribed.step (a := .waiter ()) trivial rfl
  have hCalled := hParked.step (a := .server (.call () .drain)) trivial rfl
  have hLoaded := hCalled.step (a := .server (.transition ())) trivial rfl
  have hStopped := hLoaded.step (a := .server (.transition ())) trivial rfl
  have hReady := hStopped.step (a := .server (.transition ())) trivial rfl
  have hSent := hReady.step (a := .server (.transition ())) trivial rfl
  exact ⟨_, hSent, rfl, rfl, rfl, lifecycle_guarantees _ hSent⟩

end Eggserve.Server
