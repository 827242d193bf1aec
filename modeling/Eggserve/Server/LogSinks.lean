import Eggserve.Server.EventJson

/-! Sinks of log events: the discarding sink, the filter and the fan-out of the crate over
the sinks of an embedder, which may panic. -/
namespace Eggserve.Server.Ops
open Rust

def Severity.rank : Severity → Nat
  | debug => 0
  | info => 1
  | warn => 2
  | error => 3

instance : LE Severity := ⟨fun first second => first.rank ≤ second.rank⟩

instance (first second : Severity) : Decidable (first ≤ second) :=
  inferInstanceAs (Decidable (first.rank ≤ second.rank))

/-- A sink of the embedder is known by a number, and so is a set of counters. -/
inductive LogSink where
  | nop
  | custom (sink : Nat)
  | filtered (inner : LogSink) (minSeverity : Severity)
  | composite (sinks : List LogSink) (failureCounters : Nat)

/-- A call of `emit` on a sink of the embedder. -/
structure Call where
  sink : Nat
  event : Event

/-- The calls that have been made, and the counters in which an event was counted as
dropped. -/
structure Sent where
  calls : List Call
  drops : List Nat

def Sent.drop (sent : Sent) (counters : Nat) : Sent := { sent with drops := sent.drops ++ [counters] }

/-- Whether the last of the calls panics. -/
abbrev Panics := List Call → Bool

variable (panics : Panics)

mutual

/-- `LogSink::emit`; the second component is a panic that gets out. -/
def LogSink.emit (event : Event) : LogSink → Sent → Sent × Bool
  | .nop, sent => (sent, false)
  | .custom sink, sent =>
      let calls := sent.calls ++ [⟨sink, event⟩]
      ({ sent with calls := calls }, panics calls)
  | .filtered inner minSeverity, sent =>
      if minSeverity ≤ event.severity then inner.emit event sent else (sent, false)
  | .composite sinks failureCounters, sent => (emitAll event failureCounters sinks sent, false)

/-- The loop of the fan-out, which goes on behind a panic. -/
def emitAll (event : Event) (failureCounters : Nat) : List LogSink → Sent → Sent
  | [], sent => sent
  | sink :: sinks, sent =>
      let (next, panicked) := sink.emit event sent
      emitAll event failureCounters sinks (if panicked then next.drop failureCounters else next)

end

/-- An answer of `enabled` of a sink of the embedder. -/
abbrev Probe := Nat → MayPanic Bool

mutual

/-- `LogSink::enabled`. -/
def LogSink.enabled (probe : Probe) (severity : Severity) : LogSink → MayPanic Bool
  | .nop => some false
  | .custom sink => probe sink
  | .filtered inner minSeverity =>
      if minSeverity ≤ severity then inner.enabled probe severity else some false
  | .composite sinks _ => anyEnabled probe severity sinks

def anyEnabled (probe : Probe) (severity : Severity) : List LogSink → MayPanic Bool
  | [] => some false
  | sink :: sinks =>
      match sink.enabled probe severity with
      | none => none
      | some true => some true
      | some false => anyEnabled probe severity sinks

end

structure OpsContext where
  sink : LogSink
  counters : Nat

def OpsContext.emit (context : OpsContext) (event : Event) (sent : Sent) : Sent :=
  let (next, panicked) := context.sink.emit panics event sent
  if panicked then next.drop context.counters else next

/-- The event is built only behind a sink that takes it. -/
def OpsContext.emitLazy (context : OpsContext) (probe : Probe) (event : Event) (sent : Sent) :
    Sent :=
  match context.sink.enabled probe event.severity with
  | some true => context.emit panics event sent
  | some false => sent
  | none => sent.drop context.counters

/-! What the sinks mean: the sinks of the embedder that the filters let an event through to. -/

mutual

/-- Each with the counters that count its panic. -/
def LogSink.reached (severity : Severity) (counters : Nat) : LogSink → List (Nat × Nat)
  | .nop => []
  | .custom sink => [(sink, counters)]
  | .filtered inner minSeverity =>
      if minSeverity ≤ severity then inner.reached severity counters else []
  | .composite sinks failureCounters => reachedAll severity failureCounters sinks

def reachedAll (severity : Severity) (counters : Nat) : List LogSink → List (Nat × Nat)
  | [] => []
  | sink :: sinks => sink.reached severity counters ++ reachedAll severity counters sinks

end

/-- The counters of the calls that panic, behind earlier calls. -/
def tally (event : Event) : List Call → List (Nat × Nat) → List Nat
  | _, [] => []
  | calls, (sink, counters) :: rest =>
      (if panics (calls ++ [⟨sink, event⟩]) then [counters] else []) ++
        tally event (calls ++ [⟨sink, event⟩]) rest

/-- Calls in order, each panic counted. -/
def deliver (event : Event) (targets : List (Nat × Nat)) (sent : Sent) : Sent :=
  ⟨sent.calls ++ targets.map fun target => ⟨target.1, event⟩,
    sent.drops ++ tally panics event sent.calls targets⟩

@[simp] theorem deliver_nil (event : Event) (sent : Sent) : deliver panics event [] sent = sent := by
  simp [deliver, tally]

theorem tally_append (event : Event) (first second : List (Nat × Nat)) (calls : List Call) :
    tally panics event calls (first ++ second) = tally panics event calls first ++
      tally panics event (calls ++ first.map fun target => ⟨target.1, event⟩) second := by
  induction first generalizing calls with
  | nil => simp [tally]
  | cons target first ih =>
      simp only [List.cons_append, tally, ih, List.map_cons, List.append_assoc, List.nil_append]

theorem deliver_append (event : Event) (first second : List (Nat × Nat)) (sent : Sent) :
    deliver panics event (first ++ second) sent =
      deliver panics event second (deliver panics event first sent) := by
  simp only [deliver, List.map_append, tally_append, List.append_assoc]

mutual

/-- A panic that gets out is counted where it is caught. -/
theorem emit_eq_deliver (event : Event) (counters : Nat) : (sink : LogSink) → (sent : Sent) →
    (if (sink.emit panics event sent).2 then (sink.emit panics event sent).1.drop counters
      else (sink.emit panics event sent).1) =
      deliver panics event (sink.reached event.severity counters) sent
  | .nop, sent => by simp [LogSink.emit, LogSink.reached]
  | .custom sink, sent => by
      cases hPanics : panics (sent.calls ++ [⟨sink, event⟩]) with
      | false => simp [LogSink.emit, LogSink.reached, deliver, tally, hPanics]
      | true => simp [LogSink.emit, LogSink.reached, deliver, tally, hPanics, Sent.drop]
  | .filtered inner minSeverity, sent => by
      rw [LogSink.emit, LogSink.reached]
      by_cases hPasses : minSeverity ≤ event.severity
      · rw [if_pos hPasses, if_pos hPasses]
        exact emit_eq_deliver event counters inner sent
      · rw [if_neg hPasses, if_neg hPasses, deliver_nil]
        rfl
  | .composite sinks failureCounters, sent => by
      rw [LogSink.emit, LogSink.reached]
      exact emitAll_eq_deliver event failureCounters sinks sent

theorem emitAll_eq_deliver (event : Event) (counters : Nat) : (sinks : List LogSink) →
    (sent : Sent) → emitAll panics event counters sinks sent =
      deliver panics event (reachedAll event.severity counters sinks) sent
  | [], sent => by simp [emitAll, reachedAll]
  | sink :: sinks, sent => by
      have hFirst := emit_eq_deliver event counters sink sent
      rw [emitAll, reachedAll, deliver_append, ← hFirst]
      exact emitAll_eq_deliver event counters sinks _

end

/-- The answers of the sinks in order, up to the first that is not `false`. -/
def anyAnswer (probe : Probe) : List (Nat × Nat) → MayPanic Bool
  | [] => some false
  | (sink, _) :: rest =>
      match probe sink with
      | none => none
      | some true => some true
      | some false => anyAnswer probe rest

theorem anyAnswer_append (probe : Probe) (first second : List (Nat × Nat)) :
    anyAnswer probe (first ++ second) =
      match anyAnswer probe first with
      | none => none
      | some true => some true
      | some false => anyAnswer probe second := by
  induction first with
  | nil => rfl
  | cons target first ih =>
      rw [List.cons_append, anyAnswer, anyAnswer, ih]
      cases probe target.1 with
      | none => rfl
      | some answer => cases answer <;> rfl

mutual

theorem enabled_eq_anyAnswer (probe : Probe) (severity : Severity) (counters : Nat) :
    (sink : LogSink) →
      sink.enabled probe severity = anyAnswer probe (sink.reached severity counters)
  | .nop => rfl
  | .custom sink => by
      rw [LogSink.enabled, LogSink.reached, anyAnswer]
      cases probe sink with
      | none => rfl
      | some answer => cases answer <;> rfl
  | .filtered inner minSeverity => by
      rw [LogSink.enabled, LogSink.reached]
      by_cases hPasses : minSeverity ≤ severity
      · rw [if_pos hPasses, if_pos hPasses]
        exact enabled_eq_anyAnswer probe severity counters inner
      · rw [if_neg hPasses, if_neg hPasses]
        rfl
  | .composite sinks failureCounters => by
      rw [LogSink.enabled, LogSink.reached]
      exact anyEnabled_eq_anyAnswer probe severity failureCounters sinks

theorem anyEnabled_eq_anyAnswer (probe : Probe) (severity : Severity) (counters : Nat) :
    (sinks : List LogSink) →
      anyEnabled probe severity sinks = anyAnswer probe (reachedAll severity counters sinks)
  | [] => rfl
  | sink :: sinks => by
      rw [anyEnabled, reachedAll, anyAnswer_append,
        enabled_eq_anyAnswer probe severity counters sink,
        anyEnabled_eq_anyAnswer probe severity counters sinks]

end

/-! Runs. -/

/-- An event that is emitted, at once or behind a probe, with what the probe finds then. -/
inductive Emission where
  | eager (event : Event)
  | behind (probe : Probe) (event : Event)

def Emission.event : Emission → Event
  | eager event => event
  | behind _ event => event

def Emission.run (context : OpsContext) : Emission → Sent → Sent
  | eager event => context.emit panics event
  | behind probe event => context.emitLazy panics probe event

/-- The sinks that an emission is for. -/
def Emission.targets (context : OpsContext) (emission : Emission) : List (Nat × Nat) :=
  context.sink.reached emission.event.severity context.counters

/-- What the sinks answer when they are asked beforehand. -/
def Emission.answer (context : OpsContext) : Emission → MayPanic Bool
  | eager _ => some true
  | behind probe event =>
      anyAnswer probe (context.sink.reached event.severity context.counters)

/-- The calls of an emission. -/
def Emission.calls (context : OpsContext) (emission : Emission) : List Call :=
  if emission.answer context = some true then
    (emission.targets context).map fun target => ⟨target.1, emission.event⟩
  else []

end Eggserve.Server.Ops
