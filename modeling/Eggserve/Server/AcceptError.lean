import Eggserve.Rust.Text
import Eggserve.Rust.Integer

/-! Classification of the errors of `accept`. -/
namespace Eggserve.Server
open Rust

/-- The kinds that the classification tells apart. -/
inductive ErrorKind where
  | interrupted
  | connectionRefused
  | connectionReset
  | connectionAborted
  | brokenPipe
  | wouldBlock
  | timedOut
  | outOfMemory
  | other
  | unlisted
  deriving DecidableEq, Repr

structure IoError where
  kind : ErrorKind
  rawOsError : Option Int
  message : Str

inductive Severity where
  | debug
  | info
  | warn
  | error
  deriving DecidableEq, Repr

inductive EventKind where
  | listenerTransientError
  | resourceExhaustion
  | listenerPersistentError
  deriving DecidableEq, Repr

def emfileRaw : Int := 24
def enfileRaw : Int := 23
def wsaemfileRaw : Int := 10024
def wsaenfileRaw : Int := 10023

/-- Descriptor exhaustion, by number, or by text where there is no number. -/
def isFdExhaustion (e : IoError) : Bool :=
  match e.rawOsError with
  | some raw => raw = emfileRaw || raw = enfileRaw || raw = wsaemfileRaw || raw = wsaenfileRaw
  | none =>
      let message := e.message.map Char.toLower
      decide ("too many open files".toList <:+: message) || decide ("emfile".toList <:+: message) ||
        decide ("enfile".toList <:+: message)

structure AcceptErrorClassification where
  severity : Severity
  eventKind : EventKind
  shouldBackoff : Bool
  isFatal : Bool
  fdExhausted : Bool
  deriving DecidableEq, Repr

def classifyAcceptError (e : IoError) : AcceptErrorClassification :=
  let fdExhausted := isFdExhaustion e
  let (severity, eventKind, shouldBackoff, isFatal) :=
    match e.kind with
    | .interrupted | .connectionRefused | .connectionReset | .connectionAborted | .brokenPipe =>
        (.debug, .listenerTransientError, true, false)
    | .wouldBlock | .timedOut => (.warn, .listenerTransientError, true, false)
    | .outOfMemory => (.error, .resourceExhaustion, true, false)
    | .other | .unlisted =>
        if fdExhausted then (.error, .resourceExhaustion, true, false)
        else (.error, .listenerPersistentError, false, true)
  ⟨severity, eventKind, shouldBackoff, isFatal, fdExhausted⟩

/-- An error that is waited out never ends the loop, and every other one does. -/
theorem isFatal_eq_not_shouldBackoff (e : IoError) :
    (classifyAcceptError e).isFatal = !(classifyAcceptError e).shouldBackoff := by
  unfold classifyAcceptError
  cases e.kind <;> simp only <;> (try split) <;> rfl

/-- The backoff ramp in milliseconds. -/
def acceptBackoffRamp : List Nat := [1, 2, 4, 8, 50, 100, 250, 500]

def acceptBackoffMs (index : Nat) : Nat :=
  acceptBackoffRamp.getD (min index (acceptBackoffRamp.length - 1)) 0

/-- What the accept loop remembers of its errors. -/
structure ErrorLog where
  backoffIdx : Nat := 0
  errorRepeatCount : Nat := 0
  lastErrorKind : Option EventKind := none
  deriving DecidableEq, Repr

/-- What the loop does about an error: the event it emits, if any, and how long it
waits, if it waits. -/
structure AcceptErrorReport where
  event : Option (Severity × EventKind × Str)
  backoffMs : Option Nat
  isFatal : Bool

/-- The part of the accept loop's error handling before its wait. A different kind
of error starts a new ramp; repeated errors are reported once in ten. -/
def ErrorLog.note (log : ErrorLog) (e : IoError) : AcceptErrorReport × ErrorLog :=
  let classification := classifyAcceptError e
  let log :=
    if log.lastErrorKind = some classification.eventKind then
      { log with errorRepeatCount := log.errorRepeatCount + 1 }
    else ⟨0, 1, some classification.eventKind⟩
  let message :=
    if log.errorRepeatCount > 1 then
      "accept error (".toList ++ decimal log.errorRepeatCount ++ " consecutive): ".toList ++ e.message
    else "accept error: ".toList ++ e.message
  let event :=
    if log.errorRepeatCount = 1 ∨ log.errorRepeatCount % 10 = 0 then
      some (classification.severity, classification.eventKind, message)
    else none
  if classification.shouldBackoff then
    (⟨event, some (acceptBackoffMs log.backoffIdx), classification.isFatal⟩,
      { log with backoffIdx := log.backoffIdx + 1 })
  else (⟨event, none, classification.isFatal⟩, log)

end Eggserve.Server
