import Eggserve.Server.Activity

/-! The loop that drives a connection: it samples the activity, arms a deadline, and
parks until it is notified or the deadline passes. Requests, response bodies, trackers
of deferred bodies and tunnels move on between any two of its operations. -/
namespace Eggserve.Server
open Transition

/-- The driver of HTTP/1, and the one that HTTP/2 connections use. -/
inductive DriverKind where
  | http1
  | http2 (multiplexed : Bool)
  deriving DecidableEq, Repr

/-- The deadlines of a connection. Instants count from its start, and `maxInstant` is
the last one that can be represented. -/
structure DriverConfig where
  kind : DriverKind
  keepAliveIdleTimeout : Nat
  responseWriteTimeout : Nat
  connectionTotalTimeout : Nat
  idleDeadlineOwned : Bool
  writeDeadlineOwned : Bool
  maxInstant : Nat

namespace DriverConfig

variable (config : DriverConfig)

/-- `Instant::checked_add`. -/
def checkedAdd (instant timeout : Nat) : Option Nat :=
  if instant + timeout ≤ config.maxInstant then some (instant + timeout) else none

def totalDeadline : Option Nat :=
  if config.connectionTotalTimeout = 0 then none
  else config.checkedAdd 0 config.connectionTotalTimeout

/-- The policy of HTTP/2 leaves no deadline to others. -/
def ownsIdleDeadline : Bool :=
  match config.kind with
  | .http1 => config.idleDeadlineOwned
  | .http2 _ => true

def isMultiplexed : Bool := config.kind = .http2 true

end DriverConfig

def minDeadline : Option Nat → Option Nat → Option Nat
  | some a, some b => some (min a b)
  | some a, none => some a
  | none, candidate => candidate

/-- What the driver holds in its locals. -/
structure Sample where
  now : Nat
  lastActivity : Nat
  lastWrite : Nat
  inFlight : Nat
  outstanding : Nat
  deferred : Nat
  tunnels : Nat
  deriving DecidableEq, Repr

def Sample.idle (sample : Sample) : Bool :=
  sample.inFlight = 0 && sample.outstanding = 0 && sample.deferred = 0 && sample.tunnels = 0

/-- The next operation of the driver. -/
inductive DriverPc where
  | top
  | takeTimeout
  | takeDrain
  | lockState
  | loadInFlight
  | loadOutstanding
  | loadDeferred
  | countTunnels
  | judge
  | arm
  | parked
  | left
  deriving DecidableEq, Repr

/-- What is left of a call that has moved a counter: `response_started` takes the time
and then stores it, the others touch, and all of them notify at the end. -/
inductive CallPc where
  | stamp
  | stamped (time : Nat)
  | touch
  | notify
  deriving DecidableEq, Repr

/-- A connection with its driver. `progress` holds the times at which the producers of
HTTP/2 responses were last polled. `tunnels` is the length of the set of tunnel tasks,
and `running` the number of those that have not ended. -/
structure Driven where
  activity : ConnectionActivity
  clock : Nat
  lastActivity : Nat
  lastWrite : Nat
  progress : List Nat
  bodyTimeoutFired : Bool
  drainRequested : Bool
  permit : Bool
  calls : List CallPc
  tunnelsStarted : Bool
  spawning : Nat
  tunnels : Nat
  running : Nat
  pc : DriverPc
  sample : Sample
  wake : Option Nat
  parkedAt : Nat

inductive DrivenAction where
  | activity (action : ActivityAction)
  /-- The next operation of a call in progress. -/
  | call (index : Nat)
  /-- Producers of responses come, go and are polled. -/
  | pollProgress (progress : List Nat)
  | fireBodyTimeout
  | requestDrain
  | recordRead
  /-- The time of a write is taken before the lock, in the driver's own task. -/
  | recordWrite (time : Nat)
  | startTunnel
  | spawnTunnel
  | tunnelEnds
  | tick
  | driver
  | notified
  | slept
  | finished

/-- What follows the operation on a counter within its call. -/
def followUp (s : ConnectionActivity) : ActivityAction → List CallPc
  | .newGuard => [.notify]
  | .guard guard =>
      match s.guards[guard]? with
      | some .finishSub => [.touch]
      | some .dropSub => [.touch]
      | some .finishStart => [.stamp]
      | _ => []
  | .body body =>
      match s.bodies[body]? with
      | some (.sub _) => if s.outstanding = 0 then [] else [.touch]
      | some (.restore _) => [.touch]
      | _ => []
  | .deferredStarted => [.notify]
  | .tracker tracker =>
      match s.trackers[tracker]? with
      | some .sub => if s.deferred = 0 then [] else [.touch]
      | some .restore => [.touch]
      | _ => []
  | _ => []

namespace Driven

variable (config : DriverConfig) (s : Driven)

/-- `tunnel_count`; HTTP/1 asks first whether any tunnel was started. -/
def tunnelCount : Nat :=
  match config.kind with
  | .http1 => if s.tunnelsStarted then s.tunnels else 0
  | .http2 _ => s.tunnels

/-- The write deadline has passed. -/
def writeStalled : Bool :=
  match config.kind with
  | .http2 true => s.progress.any fun last => config.responseWriteTimeout ≤ s.sample.now - last
  | .http2 false =>
      0 < s.sample.outstanding && config.responseWriteTimeout ≤ s.sample.now - s.sample.lastWrite
  | .http1 =>
      config.writeDeadlineOwned && 0 < s.sample.outstanding &&
        config.responseWriteTimeout ≤ s.sample.now - s.sample.lastWrite

/-- The deadline that the driver sleeps until. -/
def nextWake : Option Nat :=
  let wake := config.totalDeadline
  let wake :=
    if s.sample.idle && config.ownsIdleDeadline then
      minDeadline wake (config.checkedAdd s.sample.lastActivity config.keepAliveIdleTimeout)
    else wake
  match config.kind with
  | .http2 true =>
      minDeadline wake
        (s.progress.map fun last =>
          (config.checkedAdd last config.responseWriteTimeout).getD last).min?
  | .http2 false =>
      if 0 < s.sample.outstanding then
        minDeadline wake (config.checkedAdd s.sample.lastWrite config.responseWriteTimeout)
      else wake
  | .http1 =>
      if 0 < s.sample.outstanding && config.writeDeadlineOwned then
        minDeadline wake (config.checkedAdd s.sample.lastWrite config.responseWriteTimeout)
      else wake

/-- The next operation of the loop. The checks that end it leave it for good. -/
def stepDriver : Option Driven :=
  match s.pc with
  | .top =>
      if config.totalDeadline.any fun deadline => deadline ≤ s.clock then some { s with pc := .left }
      else some { s with pc := .takeTimeout, sample := { s.sample with now := s.clock } }
  | .takeTimeout =>
      if s.bodyTimeoutFired then some { s with bodyTimeoutFired := false, pc := .left }
      else some { s with pc := .takeDrain }
  | .takeDrain =>
      if config.isMultiplexed && s.drainRequested then
        some { s with drainRequested := false, pc := .left }
      else some { s with pc := .lockState }
  | .lockState =>
      some { s with
        pc := .loadInFlight
        sample := { s.sample with lastActivity := s.lastActivity, lastWrite := s.lastWrite } }
  | .loadInFlight =>
      some { s with
        pc := .loadOutstanding
        sample := { s.sample with inFlight := s.activity.inFlight } }
  | .loadOutstanding =>
      some { s with
        pc := .loadDeferred
        sample := { s.sample with outstanding := s.activity.outstanding } }
  | .loadDeferred =>
      some { s with
        pc := .countTunnels
        sample := { s.sample with deferred := s.activity.deferred } }
  | .countTunnels =>
      some { s with pc := .judge, sample := { s.sample with tunnels := s.tunnelCount config } }
  | .judge =>
      if s.sample.idle && config.ownsIdleDeadline &&
          config.keepAliveIdleTimeout ≤ s.sample.now - s.sample.lastActivity ||
          s.writeStalled config then
        some { s with pc := .left }
      else some { s with pc := .arm }
  | .arm => some { s with pc := .parked, wake := s.nextWake config, parkedAt := s.clock }
  | .parked => none
  | .left => none

def stepCall (index : Nat) : Option Driven :=
  match s.calls[index]? with
  | some .stamp => some { s with calls := s.calls.set index (.stamped s.clock) }
  | some (.stamped time) =>
      some { s with
        lastWrite := time
        lastActivity := time
        calls := s.calls.set index .notify }
  | some .touch =>
      some { s with lastActivity := s.clock, calls := s.calls.set index .notify }
  | some .notify => some { s with permit := true, calls := s.calls.eraseIdx index }
  | none => none

def step : DrivenAction → Option Driven
  | .activity action =>
      (s.activity.step action).map fun after =>
        { s with activity := after, calls := s.calls ++ followUp s.activity action }
  | .call index => s.stepCall index
  | .pollProgress progress => some { s with progress := progress, calls := s.calls ++ [.notify] }
  | .fireBodyTimeout => some { s with bodyTimeoutFired := true, calls := s.calls ++ [.notify] }
  | .requestDrain => some { s with drainRequested := true, calls := s.calls ++ [.notify] }
  | .recordRead => some { s with lastActivity := s.clock }
  | .recordWrite time =>
      if s.pc = .parked ∧ s.parkedAt ≤ time ∧ time ≤ s.clock then
        some { s with lastActivity := time, lastWrite := time }
      else none
  | .startTunnel => some { s with tunnelsStarted := true, spawning := s.spawning + 1 }
  | .spawnTunnel =>
      if 0 < s.spawning then
        some { s with
          spawning := s.spawning - 1
          tunnels := s.tunnels + 1
          running := s.running + 1 }
      else none
  -- A task that ends stays in the set, and notifies nobody.
  | .tunnelEnds => if 0 < s.running then some { s with running := s.running - 1 } else none
  | .tick => some { s with clock := s.clock + 1 }
  | .driver => s.stepDriver config
  | .notified =>
      if s.pc = .parked ∧ s.permit = true then some { s with pc := .top, permit := false } else none
  | .slept =>
      if s.pc = .parked ∧ s.wake.any (fun deadline => deadline ≤ s.clock) then
        some { s with pc := .top }
      else none
  | .finished => if s.pc = .parked then some { s with pc := .left } else none

/-- A new connection. -/
def new : Driven where
  activity := .new
  clock := 0
  lastActivity := 0
  lastWrite := 0
  progress := []
  bodyTimeoutFired := false
  drainRequested := false
  permit := false
  calls := []
  tunnelsStarted := false
  spawning := 0
  tunnels := 0
  running := 0
  pc := .top
  sample := ⟨0, 0, 0, 0, 0, 0, 0⟩
  wake := none
  parkedAt := 0

def machine : Transition.Machine Driven DrivenAction where
  Initial s := s = new
  step := step config

/-- A notification is stored, or a call that will send one is in progress. -/
def Pending : Prop := s.permit = true ∨ s.calls ≠ []

/-- Parked with nothing left to do and nothing to wake it, the driver sleeps no longer
than the idle timeout allows. -/
def IdleArmed : Prop :=
  s.pc = .parked → ¬s.Pending →
    s.activity.inFlight = 0 → s.activity.outstanding = 0 → s.activity.deferred = 0 →
    s.running = 0 → config.ownsIdleDeadline = true →
    s.lastActivity + config.keepAliveIdleTimeout ≤ config.maxInstant →
      ∃ deadline, s.wake = some deadline ∧ deadline ≤ s.lastActivity + config.keepAliveIdleTimeout

/-- A tunnel that has ended counts as active: the driver counts when all have ended and
none is gone from the set, or the last one ends after it was counted and nothing will
wake the driver. -/
def CountsEnded : DrivenAction → Prop
  | .driver => s.pc = .countTunnels ∧ s.running = 0 ∧ 0 < s.tunnels
  | .tunnelEnds =>
      s.running = 1 ∧ (s.pc = .judge ∨ s.pc = .arm ∨ s.pc = .parked) ∧ 0 < s.sample.tunnels ∧
        ¬s.Pending
  | _ => False

instance (s : Driven) : Decidable s.Pending := inferInstanceAs (Decidable (_ ∨ _))

instance (s : Driven) : DecidablePred s.CountsEnded
  | .driver => inferInstanceAs (Decidable (_ ∧ _))
  | .tunnelEnds => inferInstanceAs (Decidable (_ ∧ _))
  | .activity _ | .call _ | .pollProgress _ | .fireBodyTimeout | .requestDrain | .recordRead
  | .recordWrite _ | .startTunnel | .spawnTunnel | .tick | .notified | .slept | .finished =>
      .isFalse id

/-! The invariant: what the driver holds is still so, or something will wake it. -/

end Driven

/-- How far the driver has come in its loop. -/
def DriverPc.rank : DriverPc → Nat
  | .top => 0
  | .takeTimeout => 1
  | .takeDrain => 2
  | .lockState => 3
  | .loadInFlight => 4
  | .loadOutstanding => 5
  | .loadDeferred => 6
  | .countTunnels => 7
  | .judge => 8
  | .arm => 9
  | .parked => 10
  | .left => 0

namespace Driven

/-- A counter that was sampled above zero is so, or the driver will sample again. -/
def StillBusy (s : Driven) (rank sampled current : Nat) : Prop :=
  rank ≤ s.pc.rank → sampled ≠ 0 → current ≠ 0 ∨ s.Pending

structure Fresh (config : DriverConfig) (s : Driven) : Prop where
  clocked : s.lastActivity ≤ s.clock
  sampled : 4 ≤ s.pc.rank → s.sample.lastActivity ≤ s.clock ∧
    (s.sample.lastActivity ≤ s.lastActivity ∨ s.Pending)
  inFlight : s.StillBusy 5 s.sample.inFlight s.activity.inFlight
  outstanding : s.StillBusy 6 s.sample.outstanding s.activity.outstanding
  deferred : s.StillBusy 7 s.sample.deferred s.activity.deferred
  tunnels : s.StillBusy 8 s.sample.tunnels s.running
  parked : s.pc = .parked → s.sample.lastActivity ≤ s.parkedAt ∧
    (s.sample.idle = true → config.ownsIdleDeadline = true →
      s.sample.lastActivity + config.keepAliveIdleTimeout ≤ config.maxInstant →
        ∃ deadline, s.wake = some deadline ∧
          deadline ≤ s.sample.lastActivity + config.keepAliveIdleTimeout)

/-- What the others do to the driver. -/
structure Around (s s' : Driven) : Prop where
  pc : s'.pc = s.pc
  sample : s'.sample = s.sample
  wake : s'.wake = s.wake
  parkedAt : s'.parkedAt = s.parkedAt
  clock : s.clock ≤ s'.clock
  clocked : s'.lastActivity ≤ s'.clock
  pending : s.Pending → s'.Pending
  lastActivity : s.lastActivity ≤ s'.lastActivity ∨
    (s.pc = .parked ∧ s.parkedAt ≤ s'.lastActivity) ∨ s'.Pending
  inFlight : (s.activity.inFlight ≠ 0 → s'.activity.inFlight ≠ 0) ∨ s'.Pending
  outstanding : (s.activity.outstanding ≠ 0 → s'.activity.outstanding ≠ 0) ∨ s'.Pending
  deferred : (s.activity.deferred ≠ 0 → s'.activity.deferred ≠ 0) ∨ s'.Pending
  tunnels : 8 ≤ s.pc.rank → s.sample.tunnels ≠ 0 →
    (s.running ≠ 0 → s'.running ≠ 0) ∨ s'.Pending

theorem StillBusy.around {s s' : Driven} {rank sampled current current' : Nat}
    (h : s.StillBusy rank sampled current) (hPc : s'.pc = s.pc) (hPending : s.Pending → s'.Pending)
    (hCurrent : rank ≤ s.pc.rank → sampled ≠ 0 → (current ≠ 0 → current' ≠ 0) ∨ s'.Pending) :
    s'.StillBusy rank sampled current' := by
  intro hRank hSampled
  rw [hPc] at hRank
  rcases h hRank hSampled with hBusy | hBefore
  · rcases hCurrent hRank hSampled with hStays | hAfter
    · exact .inl (hStays hBusy)
    · exact .inr hAfter
  · exact .inr (hPending hBefore)

variable {config : DriverConfig} {s s' : Driven}

theorem Fresh.around (h : s.Fresh config) (hAround : s.Around s') : s'.Fresh config := by
  refine ⟨hAround.clocked, fun hRank => ?_, ?_, ?_, ?_, ?_, fun hParked => ?_⟩
  · rw [hAround.pc] at hRank
    obtain ⟨hClock, hLast⟩ := h.sampled hRank
    rw [hAround.sample]
    refine ⟨hClock.trans hAround.clock, ?_⟩
    rcases hLast with hLast | hBefore
    · rcases hAround.lastActivity with hGrows | ⟨hParked, hWritten⟩ | hAfter
      · exact .inl (hLast.trans hGrows)
      · exact .inl ((h.parked hParked).1.trans hWritten)
      · exact .inr hAfter
    · exact .inr (hAround.pending hBefore)
  · rw [hAround.sample]
    exact h.inFlight.around hAround.pc hAround.pending fun _ _ => hAround.inFlight
  · rw [hAround.sample]
    exact h.outstanding.around hAround.pc hAround.pending fun _ _ => hAround.outstanding
  · rw [hAround.sample]
    exact h.deferred.around hAround.pc hAround.pending fun _ _ => hAround.deferred
  · rw [hAround.sample]
    exact h.tunnels.around hAround.pc hAround.pending hAround.tunnels
  · rw [hAround.pc] at hParked
    rw [hAround.sample, hAround.parkedAt, hAround.wake]
    exact h.parked hParked

/-! Steps of the others. -/

/-- A step that leaves a call in progress. -/
theorem around_of_pending (hPc : s'.pc = s.pc) (hSample : s'.sample = s.sample)
    (hWake : s'.wake = s.wake) (hParkedAt : s'.parkedAt = s.parkedAt) (hClock : s.clock ≤ s'.clock)
    (hClocked : s'.lastActivity ≤ s'.clock) (hPending : s'.Pending) : s.Around s' :=
  ⟨hPc, hSample, hWake, hParkedAt, hClock, hClocked, fun _ => hPending, .inr (.inr hPending),
    .inr hPending, .inr hPending, .inr hPending, fun _ _ => .inr hPending⟩

/-- A step on the activity that leaves nothing to follow empties no counter. -/
theorem counters_step {before after : ConnectionActivity} {action : ActivityAction}
    (hStep : before.step action = some after) (hFollow : followUp before action = []) :
    (before.inFlight ≠ 0 → after.inFlight ≠ 0) ∧
      (before.outstanding ≠ 0 → after.outstanding ≠ 0) ∧
      (before.deferred ≠ 0 → after.deferred ≠ 0) := by
  cases action with
  | newGuard => cases hFollow
  | deferredStarted => cases hFollow
  | admission guard permitted =>
      simp only [ConnectionActivity.step] at hStep
      split at hStep
      · split at hStep <;> cases hStep <;> exact ⟨id, id, id⟩
      · cases hStep
  | finish guard =>
      simp only [ConnectionActivity.step] at hStep
      split at hStep <;> cases hStep
      exact ⟨id, id, id⟩
  | dropGuard guard =>
      simp only [ConnectionActivity.step] at hStep
      split at hStep <;> cases hStep
      exact ⟨id, id, id⟩
  | guard guard =>
      simp only [ConnectionActivity.step, ConnectionActivity.stepGuard] at hStep
      simp only [followUp] at hFollow
      split at hStep <;> rename_i hPc
      · cases hStep
        exact ⟨id, id, id⟩
      · rw [hPc] at hFollow
        cases hFollow
      · cases hStep
        exact ⟨id, id, id⟩
      · rw [hPc] at hFollow
        cases hFollow
      · cases hStep
        exact ⟨id, id, id⟩
      · cases hStep
        exact ⟨id, id, id⟩
      · rw [hPc] at hFollow
        cases hFollow
      · cases hStep
  | poll body result =>
      simp only [ConnectionActivity.step] at hStep
      split at hStep
      · cases result <;> cases hStep <;> exact ⟨id, id, id⟩
      · cases hStep
  | dropBody body =>
      simp only [ConnectionActivity.step] at hStep
      split at hStep <;> cases hStep
      exact ⟨id, id, id⟩
  | body body =>
      simp only [ConnectionActivity.step, ConnectionActivity.stepBody] at hStep
      simp only [followUp] at hFollow
      split at hStep <;> rename_i hPc
      · rw [hPc] at hFollow
        cases hStep
        by_cases hZero : before.outstanding = 0
        · exact ⟨id, fun hNe => absurd hZero hNe, id⟩
        · simp [hZero] at hFollow
      · rw [hPc] at hFollow
        cases hFollow
      · cases hStep
  | tracker tracker =>
      simp only [ConnectionActivity.step, ConnectionActivity.stepTracker] at hStep
      simp only [followUp] at hFollow
      split at hStep <;> rename_i hPc
      · cases hStep
        exact ⟨id, id, id⟩
      · cases hStep
        exact ⟨id, id, id⟩
      · rw [hPc] at hFollow
        cases hStep
        by_cases hZero : before.deferred = 0
        · exact ⟨id, id, fun hNe => absurd hZero hNe⟩
        · simp [hZero] at hFollow
      · rw [hPc] at hFollow
        cases hFollow
      · cases hStep

theorem around_activity (hClocked : s.lastActivity ≤ s.clock) {action : ActivityAction}
    (hStep : s.step config (.activity action) = some s') : s.Around s' := by
  obtain ⟨after, hAfter, rfl⟩ := Option.map_eq_some_iff.mp hStep
  cases hFollow : followUp s.activity action with
  | nil =>
      obtain ⟨hInFlight, hOutstanding, hDeferred⟩ := counters_step hAfter hFollow
      refine ⟨rfl, rfl, rfl, rfl, le_rfl, hClocked, ?_, .inl le_rfl, .inl hInFlight,
        .inl hOutstanding, .inl hDeferred, fun _ _ => .inl id⟩
      rintro (hPermit | hCalls)
      · exact .inl hPermit
      · exact .inr (by simpa using hCalls)
  | cons first rest =>
      exact around_of_pending rfl rfl rfl rfl le_rfl hClocked (.inr (by simp))

theorem around_call (hClocked : s.lastActivity ≤ s.clock) {index : Nat}
    (hTimes : ∀ time, .stamped time ∈ s.calls → time ≤ s.clock)
    (hStep : s.step config (.call index) = some s') : s.Around s' := by
  simp only [step, stepCall] at hStep
  split at hStep <;> rename_i hCall
  · cases hStep
    have hNe := List.ne_nil_of_mem (List.mem_of_getElem? hCall)
    exact around_of_pending rfl rfl rfl rfl le_rfl hClocked (.inr (by simpa using hNe))
  · rename_i time
    cases hStep
    have hMem := List.mem_of_getElem? hCall
    exact around_of_pending rfl rfl rfl rfl le_rfl (hTimes time hMem)
      (.inr (by simpa using List.ne_nil_of_mem hMem))
  · cases hStep
    have hNe := List.ne_nil_of_mem (List.mem_of_getElem? hCall)
    exact around_of_pending rfl rfl rfl rfl le_rfl le_rfl (.inr (by simpa using hNe))
  · cases hStep
    exact around_of_pending rfl rfl rfl rfl le_rfl hClocked (.inl rfl)
  · cases hStep

/-- A call is appended. -/
theorem pending_append (call : CallPc) (h : s'.calls = s.calls ++ [call]) : s'.Pending :=
  .inr (by simp [h])

theorem around_tunnelEnds (hClocked : s.lastActivity ≤ s.clock)
    (hGuard : ¬s.CountsEnded .tunnelEnds) (hStep : s.step config .tunnelEnds = some s') :
    s.Around s' := by
  obtain ⟨hRunning, rfl⟩ := enabled_iff.mp hStep
  refine ⟨rfl, rfl, rfl, rfl, le_rfl, hClocked, id, .inl le_rfl, .inl id, .inl id, .inl id, ?_⟩
  intro hRank hSampled
  by_cases hPending : s.Pending
  · exact .inr hPending
  · left
    have hCounted : s.pc = .judge ∨ s.pc = .arm ∨ s.pc = .parked := by
      cases hPc : s.pc <;> simp_all [DriverPc.rank]
    have hOthers : s.running ≠ 1 :=
      fun hOne => hGuard ⟨hOne, hCounted, Nat.pos_of_ne_zero hSampled, hPending⟩
    dsimp only
    omega

/-! Steps of the driver. -/

/-- A further candidate only brings the deadline forward. -/
theorem exists_minDeadline_left {bound : Nat} {current candidate : Option Nat}
    (h : ∃ deadline, current = some deadline ∧ deadline ≤ bound) :
    ∃ deadline, minDeadline current candidate = some deadline ∧ deadline ≤ bound := by
  obtain ⟨a, rfl, hBound⟩ := h
  cases candidate with
  | none => exact ⟨a, rfl, hBound⟩
  | some b => exact ⟨min a b, rfl, (min_le_left a b).trans hBound⟩

theorem exists_minDeadline_right (current : Option Nat) (b : Nat) :
    ∃ deadline, minDeadline current (some b) = some deadline ∧ deadline ≤ b := by
  cases current with
  | none => exact ⟨b, rfl, le_rfl⟩
  | some a => exact ⟨min a b, rfl, min_le_right a b⟩

/-- An idle sample arms the idle deadline. -/
theorem nextWake_idle (hIdle : s.sample.idle = true) (hOwned : config.ownsIdleDeadline = true)
    (hInstant : s.sample.lastActivity + config.keepAliveIdleTimeout ≤ config.maxInstant) :
    ∃ deadline, s.nextWake config = some deadline ∧
      deadline ≤ s.sample.lastActivity + config.keepAliveIdleTimeout := by
  have hArmed := exists_minDeadline_right config.totalDeadline
    (s.sample.lastActivity + config.keepAliveIdleTimeout)
  have hBoth : (s.sample.idle && config.ownsIdleDeadline) = true := by
    rw [hIdle, hOwned, Bool.and_self]
  have hAdd : config.checkedAdd s.sample.lastActivity config.keepAliveIdleTimeout =
      some (s.sample.lastActivity + config.keepAliveIdleTimeout) := if_pos hInstant
  unfold nextWake
  dsimp only
  rw [if_pos hBoth, hAdd]
  split
  · exact exists_minDeadline_left hArmed
  · split_ifs
    · exact exists_minDeadline_left hArmed
    · exact hArmed
  · split_ifs
    · exact exists_minDeadline_left hArmed
    · exact hArmed

/-- Before it samples, the driver holds nothing. -/
theorem fresh_of_rank (hClocked : s.lastActivity ≤ s.clock) (hRank : s.pc.rank < 4) :
    s.Fresh config := by
  have hBusy : ∀ rank sampled current, 4 ≤ rank → s.StillBusy rank sampled current :=
    fun rank _ _ hHigh hLow => absurd (hHigh.trans hLow) (Nat.not_le.mpr hRank)
  refine ⟨hClocked, fun hHigh => absurd hHigh (Nat.not_le.mpr hRank), hBusy _ _ _ (by decide),
    hBusy _ _ _ (by decide), hBusy _ _ _ (by decide), hBusy _ _ _ (by decide), fun hParked => ?_⟩
  rw [hParked] at hRank
  exact absurd hRank (by decide)

theorem fresh_driver (h : s.Fresh config) (hCount : s.tunnelCount config ≤ s.tunnels)
    (hGuard : ¬s.CountsEnded .driver) (hStep : s.stepDriver config = some s') :
    s'.Fresh config := by
  have hNow : ∀ {rank current : Nat} {t : Driven}, t.StillBusy rank current current :=
    fun _ hNe => .inl hNe
  unfold stepDriver at hStep
  split at hStep <;> rename_i hPc
  · split_ifs at hStep <;> cases hStep <;> exact fresh_of_rank h.clocked (by simp [DriverPc.rank])
  · split_ifs at hStep <;> cases hStep <;> exact fresh_of_rank h.clocked (by simp [DriverPc.rank])
  · split_ifs at hStep <;> cases hStep <;> exact fresh_of_rank h.clocked (by simp [DriverPc.rank])
  · cases hStep
    refine ⟨h.clocked, fun _ => ⟨h.clocked, .inl le_rfl⟩, ?_, ?_, ?_, ?_, by simp⟩
    all_goals exact fun hRank => absurd hRank (by simp [DriverPc.rank])
  · cases hStep
    have hSampled := h.sampled (by simp [hPc, DriverPc.rank])
    refine ⟨h.clocked, fun _ => hSampled, hNow, ?_, ?_, ?_, by simp⟩
    all_goals exact fun hRank => absurd hRank (by simp [DriverPc.rank])
  · cases hStep
    have hSampled := h.sampled (by simp [hPc, DriverPc.rank])
    have hInFlight := h.inFlight (by simp [hPc, DriverPc.rank])
    refine ⟨h.clocked, fun _ => hSampled, fun _ => hInFlight, hNow, ?_, ?_, by simp⟩
    all_goals exact fun hRank => absurd hRank (by simp [DriverPc.rank])
  · cases hStep
    have hSampled := h.sampled (by simp [hPc, DriverPc.rank])
    have hInFlight := h.inFlight (by simp [hPc, DriverPc.rank])
    have hOutstanding := h.outstanding (by simp [hPc, DriverPc.rank])
    refine ⟨h.clocked, fun _ => hSampled, fun _ => hInFlight, fun _ => hOutstanding, hNow, ?_,
      by simp⟩
    exact fun hRank => absurd hRank (by simp [DriverPc.rank])
  · cases hStep
    have hSampled := h.sampled (by simp [hPc, DriverPc.rank])
    have hInFlight := h.inFlight (by simp [hPc, DriverPc.rank])
    have hOutstanding := h.outstanding (by simp [hPc, DriverPc.rank])
    have hDeferred := h.deferred (by simp [hPc, DriverPc.rank])
    refine ⟨h.clocked, fun _ => hSampled, fun _ => hInFlight, fun _ => hOutstanding,
      fun _ => hDeferred, fun _ hSome => ?_, by simp⟩
    left
    intro hNone
    exact hGuard ⟨hPc, hNone, (Nat.pos_of_ne_zero hSome).trans_le hCount⟩
  · split_ifs at hStep <;> cases hStep
    · exact fresh_of_rank h.clocked (by simp [DriverPc.rank])
    · have hRank : ∀ rank, rank ≤ 8 → rank ≤ s.pc.rank := by
        intro rank hLe
        rwa [hPc]
      exact ⟨h.clocked, fun _ => h.sampled (hRank 4 (by decide)),
        fun _ => h.inFlight (hRank 5 (by decide)), fun _ => h.outstanding (hRank 6 (by decide)),
        fun _ => h.deferred (hRank 7 (by decide)), fun _ => h.tunnels (hRank 8 (by decide)), by simp⟩
  · cases hStep
    have hRank : ∀ rank, rank ≤ 9 → rank ≤ s.pc.rank := by
      intro rank hLe
      rwa [hPc]
    have hSampled := h.sampled (hRank 4 (by decide))
    exact ⟨h.clocked, fun _ => hSampled,
      fun _ => h.inFlight (hRank 5 (by decide)), fun _ => h.outstanding (hRank 6 (by decide)),
      fun _ => h.deferred (hRank 7 (by decide)), fun _ => h.tunnels (hRank 8 (by decide)),
      fun _ => ⟨hSampled.1, nextWake_idle⟩⟩
  · cases hStep
  · cases hStep

/-! Whole runs. -/

/-- The invariant with what the steps of the others need. -/
structure Sound (config : DriverConfig) (s : Driven) : Prop where
  fresh : s.Fresh config
  times : ∀ time, CallPc.stamped time ∈ s.calls → time ≤ s.clock

theorem tunnelCount_le : s.tunnelCount config ≤ s.tunnels := by
  unfold tunnelCount
  split
  · split_ifs
    · exact le_rfl
    · exact Nat.zero_le _
  · exact le_rfl

theorem times_step {action : DrivenAction}
    (h : ∀ time, CallPc.stamped time ∈ s.calls → time ≤ s.clock)
    (hStep : s.step config action = some s') :
    ∀ time, CallPc.stamped time ∈ s'.calls → time ≤ s'.clock := by
  have hAppend : ∀ {calls : List CallPc}, (∀ time, CallPc.stamped time ∉ calls) →
      ∀ time, CallPc.stamped time ∈ s.calls ++ calls → time ≤ s.clock := by
    intro calls hNone time hMem
    rcases List.mem_append.mp hMem with hMem | hMem
    · exact h time hMem
    · exact absurd hMem (hNone time)
  cases action with
  | activity action =>
      obtain ⟨after, -, rfl⟩ := Option.map_eq_some_iff.mp hStep
      refine hAppend fun time => ?_
      unfold followUp
      split
      · simp
      · split <;> simp
      · split
        · split_ifs <;> simp
        · simp
        · simp
      · simp
      · split
        · split_ifs <;> simp
        · simp
        · simp
      · simp
  | call index =>
      simp only [step, stepCall] at hStep
      split at hStep
      · cases hStep
        intro time hMem
        rcases List.mem_or_eq_of_mem_set hMem with hMem | hEq
        · exact h time hMem
        · cases hEq
          exact le_rfl
      · cases hStep
        intro time hMem
        rcases List.mem_or_eq_of_mem_set hMem with hMem | hEq
        · exact h time hMem
        · cases hEq
      · cases hStep
        intro time hMem
        rcases List.mem_or_eq_of_mem_set hMem with hMem | hEq
        · exact h time hMem
        · cases hEq
      · cases hStep
        exact fun time hMem => h time (List.mem_of_mem_eraseIdx hMem)
      · cases hStep
  | pollProgress progress =>
      cases hStep
      exact hAppend (by simp)
  | fireBodyTimeout =>
      cases hStep
      exact hAppend (by simp)
  | requestDrain =>
      cases hStep
      exact hAppend (by simp)
  | recordRead =>
      cases hStep
      exact h
  | recordWrite time =>
      obtain ⟨-, rfl⟩ := enabled_iff.mp hStep
      exact h
  | startTunnel =>
      cases hStep
      exact h
  | spawnTunnel =>
      obtain ⟨-, rfl⟩ := enabled_iff.mp hStep
      exact h
  | tunnelEnds =>
      obtain ⟨-, rfl⟩ := enabled_iff.mp hStep
      exact h
  | tick =>
      cases hStep
      exact fun time hMem => (h time hMem).trans (Nat.le_succ _)
  | driver =>
      simp only [step, stepDriver] at hStep
      split at hStep <;> (try split_ifs at hStep) <;> cases hStep <;> exact h
  | notified =>
      obtain ⟨-, rfl⟩ := enabled_iff.mp hStep
      exact h
  | slept =>
      obtain ⟨-, rfl⟩ := enabled_iff.mp hStep
      exact h
  | finished =>
      obtain ⟨-, rfl⟩ := enabled_iff.mp hStep
      exact h

theorem fresh_step {action : DrivenAction} (h : s.Sound config) (hGuard : ¬s.CountsEnded action)
    (hStep : s.step config action = some s') : s'.Fresh config := by
  have hFresh := h.fresh
  have hClocked := h.fresh.clocked
  cases action with
  | activity action => exact hFresh.around (around_activity hClocked hStep)
  | call index => exact hFresh.around (around_call hClocked h.times hStep)
  | pollProgress progress =>
      cases hStep
      exact hFresh.around (around_of_pending rfl rfl rfl rfl le_rfl hClocked (pending_append _ rfl))
  | fireBodyTimeout =>
      cases hStep
      exact hFresh.around (around_of_pending rfl rfl rfl rfl le_rfl hClocked (pending_append _ rfl))
  | requestDrain =>
      cases hStep
      exact hFresh.around (around_of_pending rfl rfl rfl rfl le_rfl hClocked (pending_append _ rfl))
  | recordRead =>
      cases hStep
      exact hFresh.around ⟨rfl, rfl, rfl, rfl, le_rfl, le_rfl, id, .inl hClocked, .inl id, .inl id,
        .inl id, fun _ _ => .inl id⟩
  | recordWrite time =>
      obtain ⟨⟨hParked, hAfter, hClock⟩, rfl⟩ := enabled_iff.mp hStep
      exact hFresh.around ⟨rfl, rfl, rfl, rfl, le_rfl, hClock, id, .inr (.inl ⟨hParked, hAfter⟩),
        .inl id, .inl id, .inl id, fun _ _ => .inl id⟩
  | startTunnel =>
      cases hStep
      exact hFresh.around ⟨rfl, rfl, rfl, rfl, le_rfl, hClocked, id, .inl le_rfl, .inl id, .inl id,
        .inl id, fun _ _ => .inl id⟩
  | spawnTunnel =>
      obtain ⟨-, rfl⟩ := enabled_iff.mp hStep
      exact hFresh.around ⟨rfl, rfl, rfl, rfl, le_rfl, hClocked, id, .inl le_rfl, .inl id, .inl id,
        .inl id, fun _ _ => .inl fun _ => Nat.succ_ne_zero _⟩
  | tunnelEnds => exact hFresh.around (around_tunnelEnds hClocked hGuard hStep)
  | tick =>
      cases hStep
      exact hFresh.around ⟨rfl, rfl, rfl, rfl, Nat.le_succ _, hClocked.trans (Nat.le_succ _), id,
        .inl le_rfl, .inl id, .inl id, .inl id, fun _ _ => .inl id⟩
  | driver => exact fresh_driver hFresh tunnelCount_le hGuard hStep
  | notified =>
      obtain ⟨-, rfl⟩ := enabled_iff.mp hStep
      exact fresh_of_rank hClocked (by simp [DriverPc.rank])
  | slept =>
      obtain ⟨-, rfl⟩ := enabled_iff.mp hStep
      exact fresh_of_rank hClocked (by simp [DriverPc.rank])
  | finished =>
      obtain ⟨-, rfl⟩ := enabled_iff.mp hStep
      exact fresh_of_rank hClocked (by simp [DriverPc.rank])

theorem sound_of_reachable
    (hReach : (machine config).ReachableUnder (fun s action => ¬s.CountsEnded action) s) :
    s.Sound config := by
  refine hReach.invariant (fun s hInitial => ?_) fun s action s' h hGuard hStep => ?_
  · rw [show s = new from hInitial]
    exact ⟨fresh_of_rank le_rfl (by decide), by simp [new]⟩
  · exact ⟨fresh_step h hGuard hStep, times_step h.times hStep⟩

theorem Sound.idleArmed (h : s.Sound config) : s.IdleArmed config := by
  intro hParked hQuiet hInFlight hOutstanding hDeferred hRunning hOwned hInstant
  have hZero : ∀ {rank sampled current : Nat}, s.StillBusy rank sampled current → rank ≤ 10 →
      current = 0 → sampled = 0 := by
    intro rank sampled current hBusy hRank hNone
    by_contra hSome
    rcases hBusy (by rwa [hParked]) hSome with hNe | hPending
    · exact hNe hNone
    · exact hQuiet hPending
  have hIdle : s.sample.idle = true := by
    simp [Sample.idle, hZero h.fresh.inFlight (by decide) hInFlight,
      hZero h.fresh.outstanding (by decide) hOutstanding,
      hZero h.fresh.deferred (by decide) hDeferred, hZero h.fresh.tunnels (by decide) hRunning]
  have hLast : s.sample.lastActivity ≤ s.lastActivity := by
    rcases (h.fresh.sampled (by simp [hParked, DriverPc.rank])).2 with hLast | hPending
    · exact hLast
    · exact absurd hPending hQuiet
  obtain ⟨deadline, hWake, hLe⟩ := (h.fresh.parked hParked).2 hIdle hOwned (by omega)
  exact ⟨deadline, hWake, hLe.trans (by omega)⟩

end Driven

/-- In every run in which no ended tunnel counts as active, a quiescent connection has its
idle deadline armed. -/
theorem quiescent_idle_armed (config : DriverConfig) (s : Driven)
    (hReach : (Driven.machine config).ReachableUnder (fun s action => ¬s.CountsEnded action) s) :
    s.IdleArmed config :=
  (Driven.sound_of_reachable hReach).idleArmed

/-- A minute of idleness, and no other deadline. -/
def idleOnly (kind : DriverKind) : DriverConfig := ⟨kind, 60, 30, 0, true, true, 1000000⟩

/-- One turn of the loop. -/
def driverTurn : List DrivenAction := List.replicate 10 .driver

def requestStarted : List DrivenAction := [.activity .newGuard, .call 0]

/-- The request is answered, and the body of its response ends. -/
def requestAnswered : List DrivenAction :=
  [.activity (.finish 0), .activity (.guard 0), .activity (.guard 0), .call 0, .call 0,
    .activity (.guard 0), .activity (.guard 0), .call 0, .call 0, .call 0, .activity (.guard 0),
    .activity (.poll 0 .finished), .activity (.body 0), .call 0, .call 0]

/-- After a request the driver wakes, samples and arms the deadline. -/
theorem quiescent_idle_armed_request :
    ∃ s, (Driven.machine (idleOnly (.http2 true))).ReachableUnder
        (fun s action => ¬s.CountsEnded action) s ∧
      s.pc = .parked ∧ s.wake = some 60 ∧ s.IdleArmed (idleOnly (.http2 true)) := by
  have hStart : (Driven.machine (idleOnly (.http2 true))).ReachableUnder
      (fun s action => ¬s.CountsEnded action) Driven.new := .start rfl
  have hEnd := hStart.run (show Machine.run _ _ _
    (requestStarted ++ requestAnswered ++ driverTurn ++ [.notified] ++ driverTurn) = some _ from rfl)
  exact ⟨_, hEnd, rfl, rfl, quiescent_idle_armed _ _ hEnd⟩

/-- The request sets up a tunnel, which ends later. -/
def tunnelEnded : List DrivenAction :=
  requestStarted ++ [.startTunnel, .spawnTunnel] ++ requestAnswered ++ driverTurn ++
    [.notified] ++ driverTurn ++ [.tunnelEnds]

theorem not_pending {s : Driven} (hPermit : s.permit = false) (hCalls : s.calls = []) :
    ¬s.Pending := by
  rintro (hStored | hCall)
  · rw [hPermit] at hStored
    cases hStored
  · exact hCall hCalls

/-- Nothing is left to do, and the driver sleeps without a deadline. -/
theorem ended_tunnel_leaves_idle_unarmed :
    (∃ s, (Driven.machine (idleOnly .http1)).Reachable s ∧ s.pc = .parked ∧ ¬s.Pending ∧
      s.running = 0 ∧ s.wake = none ∧ ¬s.IdleArmed (idleOnly .http1)) ∧
    ∃ s, (Driven.machine (idleOnly (.http2 true))).Reachable s ∧ s.pc = .parked ∧ ¬s.Pending ∧
      s.running = 0 ∧ s.wake = none ∧ ¬s.IdleArmed (idleOnly (.http2 true)) := by
  constructor
  · have hStart : (Driven.machine (idleOnly .http1)).Reachable Driven.new := .start rfl
    have hEnd := hStart.run (show Machine.run _ _ _ tunnelEnded = some _ from rfl)
    refine ⟨_, hEnd, rfl, not_pending rfl rfl, rfl, rfl, fun hArmed => ?_⟩
    obtain ⟨deadline, hWake, -⟩ :=
      hArmed rfl (not_pending rfl rfl) rfl rfl rfl rfl rfl (by decide)
    cases hWake
  · have hStart : (Driven.machine (idleOnly (.http2 true))).Reachable Driven.new := .start rfl
    have hEnd := hStart.run (show Machine.run _ _ _ tunnelEnded = some _ from rfl)
    refine ⟨_, hEnd, rfl, not_pending rfl rfl, rfl, rfl, fun hArmed => ?_⟩
    obtain ⟨deadline, hWake, -⟩ :=
      hArmed rfl (not_pending rfl rfl) rfl rfl rfl rfl rfl (by decide)
    cases hWake

end Eggserve.Server
