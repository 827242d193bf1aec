import Mathlib.Logic.Function.Basic
import Eggserve.Server.AcceptError
import Eggserve.Transition.Broadcast
import Eggserve.Transition.Machine

/-! The accept loop, the handle that shuts it down and the connection tasks, as one
machine. -/
namespace Eggserve.Server
open Rust Transition

inductive LifecycleState where
  | created
  | starting
  | running
  | draining
  | stopped
  | failed
  deriving DecidableEq, Repr

namespace LifecycleState

/-- `mark_running`, where it succeeds. -/
def markRunning : LifecycleState → Option LifecycleState
  | starting => some running
  | _ => none

/-- A server that is shut down before it runs is stopped at once. -/
def drain : LifecycleState → LifecycleState
  | running => draining
  | created | starting => stopped
  | draining => draining
  | stopped => stopped
  | failed => failed

def markStopped : LifecycleState → LifecycleState
  | draining => stopped
  | state => state

def markFailed : LifecycleState → LifecycleState
  | stopped => stopped
  | _ => failed

end LifecycleState

/-- Where the handle stands in its one call of `shutdown`. -/
inductive HandlePc where
  | ready
  | drained
  | sent
  deriving DecidableEq, Repr

/-- Where the accept loop stands. -/
inductive LoopPc where
  | starting
  /-- In the `select!` over the listeners and the shutdown message. -/
  | selecting
  /-- With an accepted stream, before its admission. -/
  | admitting
  /-- With a permit, before the connection's receiver is made. -/
  | spawning
  /-- In the `select!` over the backoff and the shutdown message. -/
  | backingOff (fatal : Bool)
  /-- Out of the loop, waiting for the connections. -/
  | draining
  | returned
  deriving DecidableEq, Repr

/-- The loop is still to run or running. -/
def LoopPc.inLoop : LoopPc → Bool
  | draining | returned => false
  | _ => true

/-- A connection task. It holds its receiver until the body ends or the message
arrives. -/
inductive ConnectionPc where
  | absent
  | live (shutdownRx : Receiver)
  | shuttingDown
  | done
  deriving DecidableEq, Repr

structure Runtime (γ : Type) where
  channel : Broadcast Unit
  lifecycle : LifecycleState
  handle : HandlePc
  loop : LoopPc
  shutdownRx : Receiver
  log : ErrorLog
  permits : Nat
  /-- The size of the set of connection tasks. -/
  tasks : Nat
  connection : γ → ConnectionPc

inductive RuntimeAction (γ : Type) where
  /-- `ServerHandle::shutdown`: first the lifecycle, then the message. -/
  | drain
  | send
  | markRunning
  | accept
  | acceptError (e : IoError)
  | tryAcquire
  | spawn (connection : γ)
  | recv
  | backoffElapsed
  | backoffRecv
  | joinAll
  | abortAll
  | connectionRecv (connection : γ)
  | connectionDone (connection : γ)

namespace Runtime

variable {γ : Type} [DecidableEq γ]

def setConnection (s : Runtime γ) (connection : γ) (pc : ConnectionPc) : Runtime γ :=
  { s with connection := Function.update s.connection connection pc }

/-- `break`: the loop is left through the drain of the lifecycle. -/
def leave (s : Runtime γ) : Runtime γ :=
  { s with loop := .draining, lifecycle := s.lifecycle.drain }

/-- The loop goes on after an error, or ends if it was fatal. -/
def afterError (s : Runtime γ) (fatal : Bool) : Runtime γ :=
  if fatal then s.leave else { s with loop := .selecting }

/-- The error is noted, and waited out where it is to be. -/
def handleError (s : Runtime γ) (e : IoError) : Runtime γ :=
  let (report, log) := s.log.note e
  let s := { s with log := log }
  if report.backoffMs.isSome then { s with loop := .backingOff report.isFatal }
  else s.afterError report.isFatal

/-- The connections are gone: the lifecycle stops and the loop's task returns. -/
def finish (s : Runtime γ) : Runtime γ :=
  { s with loop := .returned, lifecycle := s.lifecycle.markStopped }

/-- The body of a connection ends; its permit is free again. -/
def endConnection (s : Runtime γ) (connection : γ) : Runtime γ :=
  { s.setConnection connection .done with permits := s.permits + 1, tasks := s.tasks - 1 }

/-- The grace period is over. -/
def abort (s : Runtime γ) : Runtime γ :=
  { s with
    connection := fun c => if s.connection c = .absent then .absent else .done
    permits := s.permits + s.tasks
    tasks := 0 }

def step (s : Runtime γ) : RuntimeAction γ → Option (Runtime γ)
  | .drain =>
      if s.handle = .ready then
        some { s with handle := .drained, lifecycle := s.lifecycle.drain }
      else none
  | .send =>
      if s.handle = .drained then some { s with handle := .sent, channel := s.channel.send () }
      else none
  | .markRunning =>
      if s.loop = .starting then
        match s.lifecycle.markRunning with
        | some lifecycle => some { s with loop := .selecting, lifecycle := lifecycle }
        | none => some { s with loop := .returned, lifecycle := s.lifecycle.markFailed }
      else none
  | .accept => if s.loop = .selecting then some { s with loop := .admitting } else none
  | .acceptError e => if s.loop = .selecting then some (s.handleError e) else none
  | .tryAcquire =>
      -- Without a permit the stream is dropped.
      if s.loop = .admitting then
        if s.permits = 0 then some { s with loop := .selecting, log := {} }
        else some { s with loop := .spawning, permits := s.permits - 1 }
      else none
  | .spawn connection =>
      if s.loop = .spawning ∧ s.connection connection = .absent then
        some { s.setConnection connection (.live s.channel.subscribe) with
          loop := .selecting, log := {}, tasks := s.tasks + 1 }
      else none
  | .recv =>
      if s.loop = .selecting then
        (s.channel.recv s.shutdownRx).map fun (_, rx) => { s with shutdownRx := rx }.leave
      else none
  | .backoffElapsed =>
      match s.loop with
      | .backingOff fatal => some (s.afterError fatal)
      | _ => none
  | .backoffRecv =>
      match s.loop with
      | .backingOff fatal =>
          (s.channel.recv s.shutdownRx).map fun (_, rx) => { s with shutdownRx := rx }.afterError fatal
      | _ => none
  | .joinAll => if s.loop = .draining ∧ s.tasks = 0 then some s.finish else none
  | .abortAll => if s.loop = .draining then some s.abort.finish else none
  | .connectionRecv connection =>
      match s.connection connection with
      | .live rx =>
          (s.channel.recv rx).map fun _ => s.setConnection connection .shuttingDown
      | _ => none
  | .connectionDone connection =>
      match s.connection connection with
      | .live _ | .shuttingDown => some (s.endConnection connection)
      | _ => none

/-- A server just started: the loop's receiver is the channel's first. -/
def Initial (s : Runtime γ) : Prop :=
  s.channel = ⟨1, []⟩ ∧ s.lifecycle = .starting ∧ s.handle = .ready ∧ s.loop = .starting ∧
    s.shutdownRx = ⟨0⟩ ∧ s.log = {} ∧ s.tasks = 0 ∧ ∀ connection, s.connection connection = .absent

end Runtime

def runtime (γ : Type) [DecidableEq γ] : Machine (Runtime γ) (RuntimeAction γ) where
  Initial := Runtime.Initial
  step := Runtime.step

end Eggserve.Server
