import Eggserve.Server.IdleTimer
import Eggserve.Transition.Deadline

/-! The deadline that the driver arms against the checks that it makes. A deadline is the
earliest of several checked additions, a check is a difference of instants. While the
state does not change, the two have to tell the same instants apart. -/
namespace Eggserve.Server
open Transition

namespace Driven

variable (config : DriverConfig) (s : Driven)

/-- The instants at which the state can stand: nothing it has recorded is later, and they
can be represented. -/
structure Stands (now : Nat) : Prop where
  lastActivity : s.lastActivity ≤ now
  lastWrite : s.lastWrite ≤ now
  progress : ∀ last ∈ s.progress, last ≤ now
  representable : now ≤ config.maxInstant

/-- What an iteration that starts at the given instant has in its locals. -/
def sampledAt (now : Nat) : Driven :=
  { s with
    clock := now
    sample :=
      { now := now
        lastActivity := s.lastActivity
        lastWrite := s.lastWrite
        inFlight := s.activity.inFlight
        outstanding := s.activity.outstanding
        deferred := s.activity.deferred
        tunnels := s.tunnelCount config } }

/-- The idle deadline has passed. -/
def idleExpired : Bool :=
  s.sample.idle && config.ownsIdleDeadline &&
    config.keepAliveIdleTimeout ≤ s.sample.now - s.sample.lastActivity

/-- One of the checks of an iteration at the given instant is true. -/
def Expired (now : Nat) : Prop :=
  config.totalDeadline.any (fun deadline => deadline ≤ now) = true ∨
    (s.sampledAt config now).idleExpired config = true ∨
    (s.sampledAt config now).writeStalled config = true

/-- The driver begins an iteration. -/
def startsAt (now : Nat) : Driven := { s with pc := .top, clock := now }

/-- The driver goes through its loop with nothing in between. -/
def turn (now : Nat) : Nat → Option Driven
  | 0 => some (s.startsAt now)
  | count + 1 => (turn now count).bind fun s' => s'.step config .driver

/-- The iteration computes a deadline and sleeps. -/
def Parks (now : Nat) (parked : Driven) : Prop :=
  s.turn config now 10 = some parked ∧ parked.pc = .parked

/-- The iteration ends the loop. -/
def Leaves (now : Nat) : Prop :=
  ∃ count left, s.turn config now count = some left ∧ left.pc = .left

/-- The deadline and the checks agree. -/
structure DeadlineAgrees (wake : Option Nat) : Prop where
  quiet : ∀ now, s.Stands config now → ¬Passed wake now → ¬s.Expired config now
  due : ∀ now, s.Stands config now → Passed wake now → s.Expired config now
  progresses : ∀ now, s.Stands config now → Passed wake now → s.Leaves config now
  ahead : ∀ now parked, s.Stands config now → s.Parks config now parked →
    ¬Passed parked.wake now

/-- The deadline of some response producer cannot be represented. -/
def ProducerOverflows : Prop :=
  config.isMultiplexed = true ∧
    ∃ last ∈ s.progress, config.maxInstant < last + config.responseWriteTimeout

variable {config s} {now : Nat} {parked : Driven}

/-! One iteration while the state does not change. -/

/-- The driver left within the first steps of the iteration. -/
def LeftBefore (config : DriverConfig) (s : Driven) (now bound : Nat) : Prop :=
  ∃ count left, count < bound ∧ s.turn config now count = some left ∧ left.pc = .left

/-- The driver does not come back. -/
theorem LeftBefore.turn_eq_none {bound : Nat} (h : s.LeftBefore config now bound) :
    s.turn config now bound = none := by
  obtain ⟨count, left, hLt, hTurn, hLeft⟩ := h
  induction bound with
  | zero => cases hLt
  | succ bound ih =>
      rw [turn]
      rcases Nat.lt_succ_iff_lt_or_eq.mp hLt with hEarlier | rfl
      · rw [ih hEarlier]
        rfl
      · rw [hTurn]
        simp [step, stepDriver, hLeft]

/-- The driver passes the first checks and reads the counters. -/
theorem leaves_or_judges (config : DriverConfig) (s : Driven) (now : Nat) :
    s.LeftBefore config now 10 ∨
      config.totalDeadline.any (fun deadline => deadline ≤ now) = false ∧
        s.turn config now 8 = some { s.sampledAt config now with pc := .judge } := by
  cases hTotal : config.totalDeadline.any fun deadline => deadline ≤ now with
  | true =>
      have hLeft : s.turn config now 1 = some { s.startsAt now with pc := .left } := by
        rw [turn, turn]
        exact if_pos hTotal
      exact .inl ⟨1, _, by decide, hLeft, rfl⟩
  | false =>
      have hTop : s.turn config now 1 = some { s with
          pc := .takeTimeout, clock := now, sample := { s.sample with now := now } } := by
        rw [turn, turn]
        exact if_neg (Bool.not_eq_true _ ▸ hTotal)
      cases hTimeout : s.bodyTimeoutFired with
      | true =>
          have hLeft : s.turn config now 2 = some { s with
              bodyTimeoutFired := false, pc := .left, clock := now
              sample := { s.sample with now := now } } := by
            rw [turn, hTop]
            exact if_pos hTimeout
          exact .inl ⟨2, _, by decide, hLeft, rfl⟩
      | false =>
          have hTaken : s.turn config now 2 = some { s with
              pc := .takeDrain, clock := now, sample := { s.sample with now := now } } := by
            rw [turn, hTop]
            exact if_neg (by simp [hTimeout])
          cases hDrain : config.isMultiplexed && s.drainRequested with
          | true =>
              have hLeft : s.turn config now 3 = some { s with
                  drainRequested := false, pc := .left, clock := now
                  sample := { s.sample with now := now } } := by
                rw [turn, hTaken]
                exact if_pos hDrain
              exact .inl ⟨3, _, by decide, hLeft, rfl⟩
          | false =>
              have hState : s.turn config now 3 = some { s with
                  pc := .lockState, clock := now, sample := { s.sample with now := now } } := by
                rw [turn, hTaken]
                exact if_neg (by simp [hDrain])
              refine .inr ⟨rfl, ?_⟩
              rw [turn, turn, turn, turn, turn, hState]
              rfl

/-- The iteration leaves, or finds nothing expired and sleeps until the next deadline. -/
theorem leaves_or_parks (config : DriverConfig) (s : Driven) (now : Nat) :
    s.LeftBefore config now 10 ∨
      ¬s.Expired config now ∧
        s.turn config now 10 = some { s.sampledAt config now with
          pc := .parked
          wake := (s.sampledAt config now).nextWake config
          parkedAt := now } := by
  rcases leaves_or_judges config s now with hLeft | ⟨hTotal, hTurn⟩
  · exact .inl hLeft
  cases hJudge : (s.sampledAt config now).idleExpired config ||
      (s.sampledAt config now).writeStalled config with
  | true =>
      have hLeft : s.turn config now 9 = some { s.sampledAt config now with pc := .left } := by
        rw [turn, hTurn]
        exact if_pos hJudge
      exact .inl ⟨9, _, by decide, hLeft, rfl⟩
  | false =>
      rw [Bool.or_eq_false_iff] at hJudge
      refine .inr ⟨?_, ?_⟩
      · rintro (hExpired | hExpired | hExpired)
        · exact Bool.false_ne_true (hTotal.symm.trans hExpired)
        · exact Bool.false_ne_true (hJudge.1.symm.trans hExpired)
        · exact Bool.false_ne_true (hJudge.2.symm.trans hExpired)
      · rw [turn, turn, hTurn]
        have hArm : Driven.step config { s.sampledAt config now with pc := .judge } .driver =
            some { s.sampledAt config now with pc := .arm } :=
          if_neg (by simpa [idleExpired, writeStalled] using hJudge)
        rw [Option.bind_some, hArm]
        rfl

/-! What the deadlines stand for. -/

theorem minDeadline_eq_merge (first second : Option Nat) :
    minDeadline first second = first.merge min second := by
  cases first <;> cases second <;> rfl

/-- A checked addition against a difference of instants. Where the sum cannot be
represented, no instant is late enough. -/
theorem announces_checkedAdd {last : Nat} (timeout : Nat)
    (hLast : ∀ now, s.Stands config now → last ≤ now) :
    Transition.Announces {now | s.Stands config now} (config.checkedAdd last timeout)
      fun now => timeout ≤ now - last := by
  intro now hNow
  have hAfter := hLast now hNow
  have hRange := hNow.representable
  unfold DriverConfig.checkedAdd
  split_ifs with hFits
  · rw [passed_some]
    omega
  · simp only [passed_none, iff_false]
    omega

/-- The earliest producer deadline, when all of them can be represented. -/
theorem announces_producers
    (hFits : ∀ last ∈ s.progress, last + config.responseWriteTimeout ≤ config.maxInstant) :
    Transition.Announces {now | s.Stands config now}
      (s.progress.map fun last =>
        (config.checkedAdd last config.responseWriteTimeout).getD last).min?
      fun now => ∃ last ∈ s.progress, config.responseWriteTimeout ≤ now - last := by
  intro now hNow
  rw [passed_minimum]
  constructor
  · rintro ⟨last, hMem, hLate⟩
    refine ⟨_, List.mem_map_of_mem hMem, ?_⟩
    have hBefore := hNow.progress last hMem
    simp only [DriverConfig.checkedAdd, if_pos (hFits last hMem), Option.getD_some]
    omega
  · rintro ⟨instant, hMem, hLate⟩
    obtain ⟨last, hLast, rfl⟩ := List.mem_map.mp hMem
    simp only [DriverConfig.checkedAdd, if_pos (hFits last hLast), Option.getD_some] at hLate
    exact ⟨last, hLast, by omega⟩

theorem announces_total :
    Transition.Announces {now | s.Stands config now} config.totalDeadline
      fun now => config.totalDeadline.any (fun deadline => deadline ≤ now) = true := by
  intro now _
  cases config.totalDeadline with
  | none => simp [passed_none]
  | some deadline => simp [passed_some]

/-- The deadline that an iteration computes stands for all its checks. -/
theorem announces_nextWake (armed : Nat) (hFits : ¬s.ProducerOverflows config) :
    Transition.Announces {now | s.Stands config now} ((s.sampledAt config armed).nextWake config)
      (s.Expired config) := by
  have hBase := (@announces_total config s).mergeIf
    (((s.sampledAt config armed).sample.idle && config.ownsIdleDeadline) = true)
    (announces_checkedAdd config.keepAliveIdleTimeout fun now hNow => hNow.lastActivity)
  have hWrite := announces_checkedAdd config.responseWriteTimeout
    (fun now (hNow : s.Stands config now) => hNow.lastWrite)
  have hIdle : ∀ now, (s.sampledAt config now).idleExpired config = true ↔
      ((s.sampledAt config armed).sample.idle && config.ownsIdleDeadline) = true ∧
        config.keepAliveIdleTimeout ≤ now - s.lastActivity := by
    intro now
    rw [idleExpired, Bool.and_eq_true, decide_eq_true_iff]
    rfl
  unfold nextWake
  simp only [minDeadline_eq_merge]
  split
  next hKind =>
    refine (hBase.merge (announces_producers fun last hLast => ?_)).congr fun now => ?_
    · by_contra hOver
      exact hFits ⟨by simp [DriverConfig.isMultiplexed, hKind], last, hLast, Nat.not_le.mp hOver⟩
    · have hStalled : (s.sampledAt config now).writeStalled config = true ↔
          ∃ last ∈ s.progress, config.responseWriteTimeout ≤ now - last := by
        simp only [writeStalled, hKind, List.any_eq_true, decide_eq_true_iff]
        rfl
      rw [Expired, hIdle, hStalled, or_assoc]
  next hKind =>
    refine (hBase.mergeIf (0 < s.activity.outstanding) hWrite).congr fun now => ?_
    have hStalled : (s.sampledAt config now).writeStalled config = true ↔
        0 < s.activity.outstanding ∧ config.responseWriteTimeout ≤ now - s.lastWrite := by
      simp only [writeStalled, hKind, Bool.and_eq_true, decide_eq_true_iff]
      rfl
    rw [Expired, hIdle, hStalled, or_assoc]
  next hKind =>
    refine (hBase.mergeIf ((decide (0 < s.activity.outstanding) &&
      config.writeDeadlineOwned) = true) hWrite).congr fun now => ?_
    have hStalled : (s.sampledAt config now).writeStalled config = true ↔
        (decide (0 < s.activity.outstanding) && config.writeDeadlineOwned) = true ∧
          config.responseWriteTimeout ≤ now - s.lastWrite := by
      simp only [writeStalled, hKind, Bool.and_eq_true, decide_eq_true_iff]
      exact and_congr_left fun _ => and_comm
    rw [Expired, hIdle, hStalled, or_assoc]

/-- A producer deadline that cannot be represented falls back to an instant that has
passed. -/
theorem passed_of_overflow (armed : Nat) (hOver : s.ProducerOverflows config)
    (hStands : s.Stands config now) : Passed ((s.sampledAt config armed).nextWake config) now := by
  obtain ⟨hMultiplexed, last, hMem, hLate⟩ := hOver
  have hKind : config.kind = .http2 true := by simpa [DriverConfig.isMultiplexed] using hMultiplexed
  have hFallback : (config.checkedAdd last config.responseWriteTimeout).getD last = last := by
    rw [DriverConfig.checkedAdd, if_neg (Nat.not_le.mpr hLate)]
    rfl
  unfold nextWake
  simp only [minDeadline_eq_merge, hKind]
  rw [passed_merge, passed_minimum]
  exact .inr ⟨last, List.mem_map.mpr ⟨last, hMem, hFallback⟩, hStands.progress last hMem⟩

/-- An iteration that sleeps has found nothing expired. -/
theorem Parks.not_expired (h : s.Parks config now parked) :
    ¬s.Expired config now ∧ parked.wake = (s.sampledAt config now).nextWake config := by
  rcases leaves_or_parks config s now with hLeft | ⟨hExpired, hTurn⟩
  · exact absurd (h.1.symm.trans hLeft.turn_eq_none) (Option.some_ne_none parked)
  · obtain rfl := Option.some.inj (h.1.symm.trans hTurn)
    exact ⟨hExpired, rfl⟩

theorem leaves_of_expired (h : s.Expired config now) : s.Leaves config now := by
  rcases leaves_or_parks config s now with ⟨count, left, -, hTurn, hLeft⟩ | ⟨hExpired, -⟩
  · exact ⟨count, left, hTurn, hLeft⟩
  · exact absurd h hExpired

end Driven

/-- The deadline that an iteration computes agrees with the checks exactly when every
response producer of a multiplexed connection has a deadline that can be represented. -/
theorem deadline_agrees_iff (config : DriverConfig) (s parked : Driven) (now : Nat)
    (hStands : s.Stands config now) (hParks : s.Parks config now parked) :
    s.DeadlineAgrees config parked.wake ↔ ¬s.ProducerOverflows config := by
  obtain ⟨hQuiet, hWake⟩ := hParks.not_expired
  rw [hWake]
  constructor
  · intro hAgrees hOver
    exact hQuiet (hAgrees.due now hStands (Driven.passed_of_overflow now hOver hStands))
  · intro hFits
    have hAnnounces := Driven.announces_nextWake now hFits
    refine ⟨?_, ?_, ?_, ?_⟩
    · intro later hLater hEarly hExpired
      exact hEarly ((hAnnounces later hLater).mp hExpired)
    · intro later hLater hPassed
      exact (hAnnounces later hLater).mpr hPassed
    · intro later hLater hPassed
      exact Driven.leaves_of_expired ((hAnnounces later hLater).mpr hPassed)
    · intro later other hLater hOther hPassed
      obtain ⟨hNothing, hArmed⟩ := hOther.not_expired
      rw [hArmed] at hPassed
      exact hNothing ((Driven.announces_nextWake later hFits later hLater).mpr hPassed)

/-- A response is handed over, and its producer is polled a second into the connection. -/
def responseStarted : List DrivenAction :=
  requestStarted ++ requestAnswered.take 11 ++ [.tick, .pollProgress [1], .call 0, .tick, .tick]

/-- The connection two seconds later. None of these steps depends on the deadlines. -/
def responding : Driven :=
  ((Driven.machine (idleOnly .http1)).run (fun _ _ => True) .new responseStarted).getD .new

theorem responding_reachable (config : DriverConfig) :
    (Driven.machine config).Reachable responding := by
  have hStart : (Driven.machine config).Reachable Driven.new := .start rfl
  exact hStart.run (show Machine.run _ _ _ responseStarted = some _ from rfl)

theorem responding_stands {config : DriverConfig} (hMax : 3 ≤ config.maxInstant) :
    responding.Stands config 3 :=
  ⟨by decide, by decide, by decide, hMax⟩

/-- The write deadline is still ahead. -/
theorem deadline_agrees_responding :
    (Driven.machine (idleOnly (.http2 true))).Reachable responding ∧
      ∃ parked, responding.Parks (idleOnly (.http2 true)) 3 parked ∧ parked.wake = some 31 ∧
        responding.DeadlineAgrees (idleOnly (.http2 true)) parked.wake := by
  refine ⟨responding_reachable _, _, ⟨rfl, rfl⟩, rfl, ?_⟩
  refine (deadline_agrees_iff _ _ _ 3 (responding_stands (by decide)) ⟨rfl, rfl⟩).mpr ?_
  rintro ⟨-, last, hMem, hLate⟩
  obtain rfl := List.mem_singleton.mp hMem
  exact absurd hLate (by decide)

/-- Instants count seconds in 64 bits, and the write timeout is the longest there is. -/
def longestWrite : DriverConfig := ⟨.http2 true, 60, 2 ^ 64 - 1, 0, true, true, 2 ^ 63 - 1⟩

/-- With a write timeout that no instant can reach, nothing has expired, and yet the
driver arms a deadline that has passed. -/
theorem passed_deadline_rearmed :
    (Driven.machine longestWrite).Reachable responding ∧
      ∃ parked, responding.Parks longestWrite 3 parked ∧ parked.wake = some 1 ∧
        ¬responding.Expired longestWrite 3 ∧
        ¬responding.DeadlineAgrees longestWrite parked.wake := by
  have hQuiet : ¬responding.Expired longestWrite 3 := by
    rintro (hTotal | hIdle | hStalled)
    · cases hTotal
    · cases hIdle
    · cases hStalled
  refine ⟨responding_reachable _, _, ⟨rfl, rfl⟩, rfl, hQuiet, ?_⟩
  intro hAgrees
  exact hQuiet (hAgrees.due 3 (responding_stands (by decide)) ⟨1, rfl, by decide⟩)

end Eggserve.Server
