import Eggserve.Primitives.LifecycleNotify

/-! When a waiter can be left asleep. -/
namespace Eggserve.Primitives.Lifecycle
open Transition

variable {ι κ ω : Type}

/-- All notifiers are done, the flag is set, and a waiter sleeps with its waker
registered and no wake on its way. -/
def LostWakeup (waker : κ → ω) (s : State ι κ ω) : Prop :=
  (∀ n, s.notifier n = .idle) ∧ ∃ w signal generation,
    s.waiter w = .parked signal generation ∧ s.flag signal = true ∧
    waker w ∈ (s.notify signal).waiters ∧ s.woken w = false

/-- The notifier has set the flag and has yet to advance the generation. -/
def NotifierPc.Announces (signal : Signal) : NotifierPc ω → Prop
  | .store _ => signal = .cancel
  | .advance other _ => signal = other
  | _ => False

/-- The notifier is before the flag or past the last waker. -/
def NotifierPc.Quiet : NotifierPc ω → Prop
  | .idle | .exchange _ _ | .swap _ | .wake _ [] _ => True
  | _ => False

theorem NotifierPc.Quiet.not_announces {pc : NotifierPc ω} (hQuiet : pc.Quiet) (signal : Signal) :
    ¬pc.Announces signal := by
  cases pc <;> simp_all [Quiet, Announces]

theorem NotifierPc.Quiet.ne_take {pc : NotifierPc ω} (hQuiet : pc.Quiet) (signal : Signal)
    (next : Option RequestCancellationReason) : pc ≠ .take signal next := by
  rintro rfl
  exact hQuiet

theorem NotifierPc.Quiet.wakers_eq_nil {pc : NotifierPc ω} (hQuiet : pc.Quiet) {signal : Signal}
    {wakers : List ω} {next : Option RequestCancellationReason}
    (hPc : pc = .wake signal wakers next) : wakers = [] := by
  subst hPc
  cases wakers with
  | nil => rfl
  | cons _ _ => exact hQuiet.elim

/-- The waiter found the flag unset. -/
def WaiterPc.Passed (signal : Signal) : WaiterPc → Prop
  | .snapshot other | .poll other _ | .register other _ | .reload other _ | .parked other _ =>
      signal = other
  | _ => False

/-- The waiter holds a snapshot of the generation. -/
def WaiterPc.Holds (signal : Signal) (generation : UInt64) : WaiterPc → Prop
  | .poll other held | .register other held | .reload other held | .parked other held =>
      signal = other ∧ generation = held
  | _ => False

/-- The flag is set and its notifier has advanced the generation. -/
def State.announced (s : State ι κ ω) (signal : Signal) : Bool :=
  s.flag signal && (s.notify signal).generation != 0

/-- A waiter takes its snapshot of the generation after the notifier of the flag
it waits for has advanced it. -/
def lateSnapshot (s : State ι κ ω) : Action ι κ → Bool
  | .waiter w =>
      match s.waiter w with
      | .snapshot signal => s.announced signal
      | _ => false
  | _ => false

/-- A flag is announced by one notifier, once. -/
structure AnnouncedOnce (s : State ι κ ω) : Prop where
  pending : ∀ n signal, (s.notifier n).Announces signal →
    s.flag signal = true ∧ (s.notify signal).generation = 0
  unique : ∀ n n' signal, (s.notifier n).Announces signal → (s.notifier n').Announces signal →
    n = n'
  quiet : ∀ signal, s.flag signal = false → (s.notify signal).generation = 0
  advanced : ∀ n signal next, s.notifier n = .take signal next →
    (s.notify signal).generation ≠ 0

/-- The waker of a sleeping waiter is where a notifier will find it, or found it. -/
def Covered (waker : κ → ω) (s : State ι κ ω) (w : κ) (signal : Signal) : Prop :=
  (waker w ∈ (s.notify signal).waiters ∧
    ((s.notify signal).generation = 0 ∨ ∃ n next, s.notifier n = .take signal next)) ∨
  (∃ n wakers next, s.notifier n = .wake signal wakers next ∧ waker w ∈ wakers) ∨
  s.woken w = true

structure WaitersCovered (waker : κ → ω) (s : State ι κ ω) : Prop where
  early : ∀ w signal generation, (s.waiter w).Holds signal generation → generation = 0
  announced : ∀ w signal, (s.waiter w).Passed signal → s.flag signal = true →
    (s.notify signal).generation = 0 → ∃ n, (s.notifier n).Announces signal
  registered : ∀ w signal generation, s.waiter w = .reload signal generation →
    (s.notify signal).generation = 0 → waker w ∈ (s.notify signal).waiters
  parked : ∀ w signal generation, s.waiter w = .parked signal generation →
    Covered waker s w signal

/-- A covered waiter is not lost. -/
theorem not_lostWakeup {waker : κ → ω} {s : State ι κ ω} (hCovered : WaitersCovered waker s) :
    ¬LostWakeup waker s := by
  rintro ⟨hIdle, w, signal, generation, hParked, hFlag, -, hAsleep⟩
  rcases hCovered.parked w signal generation hParked with ⟨-, hFresh | ⟨n, next, hTake⟩⟩ |
    ⟨n, wakers, next, hWake, -⟩ | hWoken
  · obtain ⟨n, hAnnounces⟩ := hCovered.announced w signal (by simp [hParked, WaiterPc.Passed])
      hFlag hFresh
    simp [hIdle n, NotifierPc.Announces] at hAnnounces
  · simp [hIdle n] at hTake
  · simp [hIdle n] at hWake
  · simp [hAsleep] at hWoken

/-- What every allowed step keeps. -/
structure Kept (waker : κ → ω) (s : State ι κ ω) : Prop where
  once : AnnouncedOnce s
  covered : WaitersCovered waker s

theorem kept_initial {waker : κ → ω} {s : State ι κ ω} (hInitial : s.Initial) : Kept waker s := by
  obtain ⟨-, hNotify, hNotifier, hWaiter⟩ := hInitial
  have hPc (w : κ) := (hWaiter w).1
  refine ⟨⟨?_, ?_, ?_, ?_⟩, ⟨?_, ?_, ?_, ?_⟩⟩
  · simp [hNotifier, NotifierPc.Announces]
  · simp [hNotifier, NotifierPc.Announces]
  · simp [hNotify]
  · simp [hNotifier]
  · simp [hPc, WaiterPc.Holds]
  · simp [hPc, WaiterPc.Passed]
  · simp [hPc]
  · simp [hPc]

section Frames

variable {s s' : State ι κ ω} {waker : κ → ω}

/-- A step that neither sets a flag nor advances a generation, and after which no
further notifier announces or takes. -/
theorem AnnouncedOnce.mono (hOnce : AnnouncedOnce s)
    (hFlag : ∀ signal, s'.flag signal = s.flag signal)
    (hGeneration : ∀ signal, (s'.notify signal).generation = (s.notify signal).generation)
    (hAnnounces : ∀ n signal, (s'.notifier n).Announces signal → (s.notifier n).Announces signal)
    (hTake : ∀ n signal next, s'.notifier n = .take signal next → s.notifier n = .take signal next) :
    AnnouncedOnce s' where
  pending n signal h := by
    rw [hFlag, hGeneration]
    exact hOnce.pending n signal (hAnnounces n signal h)
  unique n n' signal h h' :=
    hOnce.unique n n' signal (hAnnounces n signal h) (hAnnounces n' signal h')
  quiet signal h := by
    rw [hGeneration]
    exact hOnce.quiet signal (hFlag signal ▸ h)
  advanced n signal next h := by
    rw [hGeneration]
    exact hOnce.advanced n signal next (hTake n signal next h)

/-- A flag is set by the exchange or by the swap, each for its own signal. -/
theorem flag_exchange (s : State ι κ ω) (target : TerminalState) :
    { s with shared := { s.shared with bodyState := target.1 } }.flag .body = true ∧
    ∀ other, other ≠ .body →
      { s with shared := { s.shared with bodyState := target.1 } }.flag other = s.flag other := by
  refine ⟨by simp [State.flag, RequestShared.isBodyTerminal, target.2], ?_⟩
  intro other hOther
  cases other with
  | body => exact absurd rfl hOther
  | cancel => rfl

theorem flag_swap (s : State ι κ ω) :
    { s with shared := { s.shared with cancelled := true } }.flag .cancel = true ∧
    ∀ other, other ≠ .cancel →
      { s with shared := { s.shared with cancelled := true } }.flag other = s.flag other := by
  refine ⟨rfl, ?_⟩
  intro other hOther
  cases other with
  | body => rfl
  | cancel => exact absurd rfl hOther

/-- A waiter stays covered where its cell and the takes of its signal stay. -/
theorem Covered.frame {w : κ} {signal : Signal} (hCovered : Covered waker s w signal)
    (hNotify : s'.notify signal = s.notify signal)
    (hTake : ∀ m next, s.notifier m = .take signal next → s'.notifier m = .take signal next)
    (hWake : ∀ m wakers next, s.notifier m = .wake signal wakers next → waker w ∈ wakers →
      Covered waker s' w signal)
    (hWoken : s.woken w = true → s'.woken w = true) : Covered waker s' w signal := by
  rcases hCovered with ⟨hMem, hZero | ⟨m, next, hm⟩⟩ | ⟨m, wakers, next, hm, hMem⟩ | hDone
  · exact .inl ⟨hNotify ▸ hMem, .inl (hNotify ▸ hZero)⟩
  · exact .inl ⟨hNotify ▸ hMem, .inr ⟨m, next, hTake m next hm⟩⟩
  · exact hWake m wakers next hm hMem
  · exact .inr (.inr (hWoken hDone))

/-- The waiters and the wakes are not part of it. -/
theorem AnnouncedOnce.setWaiters (hOnce : AnnouncedOnce s) (waiter : κ → WaiterPc)
    (woken : κ → Bool) : AnnouncedOnce { s with waiter := waiter, woken := woken } := by
  refine hOnce.mono ?_ (fun _ => rfl) (fun _ _ h => h) (fun _ _ _ h => h)
  intro signal
  cases signal <;> rfl

/-- A notifier that holds no wakers of the signal moves without uncovering anyone. -/
theorem Covered.move (n : ι) {w : κ} {signal : Signal} (hCovered : Covered waker s w signal)
    (hNotify : s'.notify signal = s.notify signal) (hWoken : s'.woken = s.woken)
    (hNotifier : ∀ m, m ≠ n → s'.notifier m = s.notifier m)
    (hTake : ∀ next, s.notifier n ≠ .take signal next)
    (hWake : ∀ wakers next, s.notifier n = .wake signal wakers next → wakers = []) :
    Covered waker s' w signal := by
  refine hCovered.frame hNotify ?_ ?_ (by rw [hWoken]; exact id)
  · intro m next hm
    have hSame : m ≠ n := fun hSame => hTake next (hSame ▸ hm)
    rw [hNotifier m hSame, hm]
  · intro m wakers next hm hMem
    have hSame : m ≠ n := by
      rintro rfl
      simp [hWake wakers next hm] at hMem
    exact .inr (.inl ⟨m, wakers, next, by rw [hNotifier m hSame, hm], hMem⟩)

/-- The cell of the signal changes hands; what was taken from it before stays taken. -/
theorem Covered.handOver (n : ι) {w : κ} {signal : Signal} (hCovered : Covered waker s w signal)
    (hCell : waker w ∈ (s.notify signal).waiters → Covered waker s' w signal)
    (hWoken : s'.woken = s.woken) (hNotifier : ∀ m, m ≠ n → s'.notifier m = s.notifier m)
    (hWake : ∀ wakers next, s.notifier n ≠ .wake signal wakers next) :
    Covered waker s' w signal := by
  rcases hCovered with ⟨hMem, -⟩ | ⟨m, wakers, next, hm, hMem⟩ | hDone
  · exact hCell hMem
  · have hSame : m ≠ n := by
      rintro rfl
      exact hWake wakers next hm
    exact .inr (.inl ⟨m, wakers, next, by rw [hNotifier m hSame, hm], hMem⟩)
  · exact .inr (.inr (by rw [hWoken, hDone]))

/-- The executor answers the wakes of a task whose waiter does not sleep. -/
theorem WaitersCovered.answer (hCovered : WaitersCovered waker s) [DecidableEq κ] (w : κ)
    (hAwake : ∀ signal generation, s.waiter w ≠ .parked signal generation) :
    WaitersCovered waker { s with woken := Function.update s.woken w false } where
  early := hCovered.early
  announced v signal hPassed hSet hFresh :=
    hCovered.announced v signal hPassed (by cases signal <;> exact hSet) hFresh
  registered := hCovered.registered
  parked v signal generation hParked := by
    have hSame : v ≠ w := by
      rintro rfl
      exact hAwake signal generation hParked
    refine (hCovered.parked v signal generation hParked).frame rfl (fun _ _ h => h) ?_ ?_
    · intro m wakers next hm hMem
      exact .inr (.inl ⟨m, wakers, next, hm, hMem⟩)
    · intro hWoken
      simpa [Function.update_apply, hSame] using hWoken

theorem AnnouncedOnce.setNotify (hOnce : AnnouncedOnce s) {signal : Signal} {cell : AsyncNotify ω}
    (hGeneration : cell.generation = (s.notify signal).generation) :
    AnnouncedOnce (s.setNotify signal cell) := by
  refine hOnce.mono (by simp) ?_ (fun _ _ h => h) (fun _ _ _ h => h)
  intro other
  by_cases hSame : other = signal
  · simp [hSame, hGeneration]
  · simp [hSame]

end Frames

section Notifiers

variable [DecidableEq ι] {s : State ι κ ω} {waker : κ → ω}

/-- A notifier moves to a point where it neither announces nor takes. -/
theorem AnnouncedOnce.retire (hOnce : AnnouncedOnce s) (n : ι) (pc : NotifierPc ω)
    (hAnnounces : ∀ signal, ¬pc.Announces signal) (hTake : ∀ signal next, pc ≠ .take signal next) :
    AnnouncedOnce (s.setNotifier n pc) := by
  refine hOnce.mono (by simp) (fun _ => rfl) ?_ ?_
  · intro m signal h
    by_cases hSame : m = n
    · simp [hSame, hAnnounces] at h
    · simpa [hSame] using h
  · intro m signal next h
    by_cases hSame : m = n
    · simp [hSame, hTake] at h
    · simpa [hSame] using h

/-- A notifier sets a flag that was unset and goes on to announce it. -/
theorem AnnouncedOnce.set (hOnce : AnnouncedOnce s) {n : ι} {pc : NotifierPc ω} (signal : Signal)
    {shared : RequestShared} (hUnset : s.flag signal = false)
    (hSet : { s with shared := shared }.flag signal = true)
    (hOther : ∀ other, other ≠ signal → { s with shared := shared }.flag other = s.flag other)
    (hAnnounces : ∀ other, pc.Announces other ↔ other = signal)
    (hTake : ∀ other next, pc ≠ .take other next) :
    AnnouncedOnce ({ s with shared := shared }.setNotifier n pc) := by
  have hNone (m : ι) : ¬(s.notifier m).Announces signal := by
    intro h
    have hFlag := (hOnce.pending m signal h).1
    simp [hUnset] at hFlag
  constructor
  · intro m other h
    by_cases hSignal : other = signal
    · subst hSignal
      exact ⟨by simpa using hSet, hOnce.quiet other hUnset⟩
    · have hPrior : (s.notifier m).Announces other := by
        by_cases hSame : m = n
        · simp [hSame, hAnnounces, hSignal] at h
        · simpa [hSame] using h
      simpa [hOther other hSignal] using hOnce.pending m other hPrior
  · intro m m' other h h'
    have hUnique := hOnce.unique m m' other
    grind
  · intro other h
    by_cases hSignal : other = signal
    · simp [hSignal, hSet] at h
    · exact hOnce.quiet other (by simpa [hOther other hSignal] using h)
  · intro m other next h
    by_cases hSame : m = n
    · simp [hSame, hTake] at h
    · exact hOnce.advanced m other next (by simpa [hSame] using h)

/-- The announcing notifier advances the generation. -/
theorem AnnouncedOnce.advance (hOnce : AnnouncedOnce s) {n : ι} {signal : Signal}
    {next : Option RequestCancellationReason} (hPc : s.notifier n = .advance signal next) :
    AnnouncedOnce ((s.setNotify signal (s.notify signal).advance).setNotifier n
      (.take signal next)) := by
  have hHere : (s.notifier n).Announces signal := by simp [hPc, NotifierPc.Announces]
  obtain ⟨hFlag, hZero⟩ := hOnce.pending n signal hHere
  have hOne : (s.notify signal).advance.generation ≠ 0 := by
    simp [AsyncNotify.advance, hZero]
  constructor
  · intro m other h
    by_cases hSame : m = n
    · simp [hSame, NotifierPc.Announces] at h
    · have hPrior : (s.notifier m).Announces other := by simpa [hSame] using h
      have hSignal : other ≠ signal := by
        rintro rfl
        exact hSame (hOnce.unique m n other hPrior hHere)
      simpa [hSignal] using hOnce.pending m other hPrior
  · intro m m' other h h'
    by_cases hSame : m = n
    · simp [hSame, NotifierPc.Announces] at h
    · by_cases hSame' : m' = n
      · simp [hSame', NotifierPc.Announces] at h'
      · exact hOnce.unique m m' other (by simpa [hSame] using h) (by simpa [hSame'] using h')
  · intro other h
    have hSignal : other ≠ signal := by
      rintro rfl
      simp [hFlag] at h
    simpa [hSignal] using hOnce.quiet other (by simpa using h)
  · intro m other later h
    by_cases hSignal : other = signal
    · simpa [hSignal] using hOne
    · by_cases hSame : m = n
      · simp [hSame, Ne.symm hSignal] at h
      · simpa [hSignal] using hOnce.advanced m other later (by simpa [hSame] using h)

/-- The same for all waiters, where the notifier announces each flag that it sets
and goes on announcing what it announced. -/
theorem WaitersCovered.move (hCovered : WaitersCovered waker s) {n : ι} {pc : NotifierPc ω}
    {shared : RequestShared}
    (hAnnounced : ∀ signal, { s with shared := shared }.flag signal = true →
      pc.Announces signal ∨ (s.flag signal = true ∧ ¬(s.notifier n).Announces signal))
    (hTake : ∀ signal next, s.notifier n ≠ .take signal next)
    (hWake : ∀ signal wakers next, s.notifier n = .wake signal wakers next → wakers = []) :
    WaitersCovered waker ({ s with shared := shared }.setNotifier n pc) where
  early := hCovered.early
  announced w signal hPassed hSet hZero := by
    rcases hAnnounced signal (by simpa using hSet) with hHere | ⟨hBefore, hElsewhere⟩
    · exact ⟨n, by simpa using hHere⟩
    · obtain ⟨m, hm⟩ := hCovered.announced w signal hPassed hBefore hZero
      have hSame : m ≠ n := fun hSame => hElsewhere (hSame ▸ hm)
      exact ⟨m, by simpa [hSame] using hm⟩
  registered := hCovered.registered
  parked w signal generation hParked :=
    (hCovered.parked w signal generation hParked).move n rfl rfl (fun m hSame => by simp [hSame])
      (hTake signal) (hWake signal)

/-- Advancing the generation leaves the registered wakers to the one who advanced it. -/
theorem WaitersCovered.advance (hCovered : WaitersCovered waker s) (hOnce : AnnouncedOnce s)
    {n : ι} {signal : Signal} {next : Option RequestCancellationReason}
    (hPc : s.notifier n = .advance signal next) :
    WaitersCovered waker ((s.setNotify signal (s.notify signal).advance).setNotifier n
      (.take signal next)) := by
  obtain ⟨-, hZero⟩ := hOnce.pending n signal (by simp [hPc, NotifierPc.Announces])
  have hOne : (s.notify signal).advance.generation ≠ 0 := by simp [AsyncNotify.advance, hZero]
  constructor
  · exact hCovered.early
  · intro w other hPassed hSet hFresh
    have hSignal : other ≠ signal := by
      rintro rfl
      exact hOne (by simpa using hFresh)
    obtain ⟨m, hm⟩ := hCovered.announced w other hPassed (by simpa using hSet)
      (by simpa [hSignal] using hFresh)
    have hSame : m ≠ n := by
      rintro rfl
      simp [hPc, NotifierPc.Announces, hSignal] at hm
    exact ⟨m, by simpa [hSame] using hm⟩
  · intro w other generation hReload hFresh
    have hSignal : other ≠ signal := by
      rintro rfl
      exact hOne (by simpa using hFresh)
    simpa [hSignal] using
      hCovered.registered w other generation hReload (by simpa [hSignal] using hFresh)
  · intro w other generation hParked
    have hPrior := hCovered.parked w other generation hParked
    by_cases hSignal : other = signal
    · subst hSignal
      refine hPrior.handOver n (fun hMem => ?_) rfl (fun m hSame => by simp [hSame]) (by simp [hPc])
      exact .inl ⟨by simpa [AsyncNotify.advance] using hMem, .inr ⟨n, next, by simp⟩⟩
    · exact hPrior.move n (by simp [hSignal]) rfl (fun m hSame => by simp [hSame]) (by simp [hPc])
        (by simp [hPc])

/-- Taking the wakers moves them to the notifier. -/
theorem WaitersCovered.take (hCovered : WaitersCovered waker s) (hOnce : AnnouncedOnce s)
    {n : ι} {signal : Signal} {next : Option RequestCancellationReason}
    (hPc : s.notifier n = .take signal next) :
    WaitersCovered waker ((s.setNotify signal (s.notify signal).take).setNotifier n
      (.wake signal (s.notify signal).waiters next)) := by
  have hOne := hOnce.advanced n signal next hPc
  have hGeneration (other : Signal) :
      (((s.setNotify signal (s.notify signal).take).setNotifier n
        (.wake signal (s.notify signal).waiters next)).notify other).generation =
        (s.notify other).generation := by
    by_cases hSignal : other = signal <;> simp [hSignal, AsyncNotify.take]
  constructor
  · exact hCovered.early
  · intro w other hPassed hSet hFresh
    obtain ⟨m, hm⟩ := hCovered.announced w other hPassed (by simpa using hSet)
      (hGeneration other ▸ hFresh)
    have hSame : m ≠ n := by
      rintro rfl
      simp [hPc, NotifierPc.Announces] at hm
    exact ⟨m, by simpa [hSame] using hm⟩
  · intro w other generation hReload hFresh
    rw [hGeneration] at hFresh
    have hSignal : other ≠ signal := by
      rintro rfl
      exact hOne hFresh
    simpa [hSignal] using hCovered.registered w other generation hReload hFresh
  · intro w other generation hParked
    have hPrior := hCovered.parked w other generation hParked
    by_cases hSignal : other = signal
    · subst hSignal
      refine hPrior.handOver n (fun hMem => ?_) rfl (fun m hSame => by simp [hSame]) (by simp [hPc])
      exact .inr (.inl ⟨n, _, next, by simp, hMem⟩)
    · exact hPrior.move n (by simp [hSignal]) rfl (fun m hSame => by simp [hSame])
        (by simp [hPc, Ne.symm hSignal]) (by simp [hPc])

/-- Waking hands the wake over to the executor. -/
theorem WaitersCovered.wake [DecidableEq ω] (hCovered : WaitersCovered waker s)
    {n : ι} {signal : Signal} {woken : ω} {rest : List ω} {next : Option RequestCancellationReason}
    (hPc : s.notifier n = .wake signal (woken :: rest) next) :
    WaitersCovered waker ({ s with woken := fun w => waker w = woken || s.woken w }.setNotifier n
      (.wake signal rest next)) := by
  constructor
  · exact hCovered.early
  · intro w other hPassed hSet hFresh
    have hBefore : s.flag other = true := by
      cases other <;> exact hSet
    obtain ⟨m, hm⟩ := hCovered.announced w other hPassed hBefore hFresh
    have hSame : m ≠ n := by
      rintro rfl
      simp [hPc, NotifierPc.Announces] at hm
    exact ⟨m, by simpa [hSame] using hm⟩
  · exact hCovered.registered
  · intro w other generation hParked
    refine (hCovered.parked w other generation hParked).frame rfl ?_ ?_ (by simp +contextual)
    · intro m later hm
      have hSame : m ≠ n := by
        rintro rfl
        simp [hPc] at hm
      simpa [hSame] using hm
    · intro m wakers later hm hMem
      by_cases hSame : m = n
      · subst hSame
        rw [hPc] at hm
        obtain ⟨rfl, rfl, rfl⟩ : signal = other ∧ woken :: rest = wakers ∧ next = later := by
          simpa using hm
        rcases List.mem_cons.mp hMem with hHead | hTail
        · exact .inr (.inr (by simp [hHead]))
        · exact .inr (.inl ⟨m, rest, next, by simp, hTail⟩)
      · exact .inr (.inl ⟨m, wakers, later, by simpa [hSame] using hm, hMem⟩)

end Notifiers

section Waiters

variable [DecidableEq κ] {s : State ι κ ω} {waker : κ → ω}

/-- A waiter moves to a point before its registration, or parks covered. -/
theorem WaitersCovered.setWaiter (hCovered : WaitersCovered waker s) (w : κ) (pc : WaiterPc)
    (hEarly : ∀ signal generation, pc.Holds signal generation → generation = 0)
    (hPassed : ∀ signal, pc.Passed signal → (s.waiter w).Passed signal ∨ s.flag signal = false)
    (hReload : ∀ signal generation, pc ≠ .reload signal generation)
    (hParked : ∀ signal generation, pc = .parked signal generation → Covered waker s w signal) :
    WaitersCovered waker (s.setWaiter w pc) := by
  constructor
  · intro v signal generation h
    by_cases hSame : v = w
    · exact hEarly signal generation (by simpa [hSame] using h)
    · exact hCovered.early v signal generation (by simpa [hSame] using h)
  · intro v signal h hSet hFresh
    rw [State.flag_setWaiter] at hSet
    by_cases hSame : v = w
    · rcases hPassed signal (by simpa [hSame] using h) with hBefore | hUnset
      · exact hCovered.announced w signal hBefore hSet hFresh
      · simp [hUnset] at hSet
    · exact hCovered.announced v signal (by simpa [hSame] using h) hSet hFresh
  · intro v signal generation h hFresh
    by_cases hSame : v = w
    · exact absurd (by simpa [hSame] using h) (hReload signal generation)
    · exact hCovered.registered v signal generation (by simpa [hSame] using h) hFresh
  · intro v signal generation h
    by_cases hSame : v = w
    · subst hSame
      exact hParked signal generation (by simpa using h)
    · exact hCovered.parked v signal generation (by simpa [hSame] using h)

/-- A waiter goes back before its check. -/
theorem WaitersCovered.restart (hCovered : WaitersCovered waker s) (w : κ) (pc : WaiterPc)
    (hPassed : ∀ signal, ¬pc.Passed signal) : WaitersCovered waker (s.setWaiter w pc) := by
  refine hCovered.setWaiter w pc ?_ (fun signal h => absurd h (hPassed signal)) ?_ ?_
  · intro signal generation hHolds
    refine absurd ?_ (hPassed signal)
    cases pc <;> simp_all [WaiterPc.Holds, WaiterPc.Passed]
  · rintro signal generation rfl
    exact hPassed signal rfl
  · rintro signal generation rfl
    exact absurd rfl (hPassed signal)

@[simp] theorem generation_register [DecidableEq ω] (cell : AsyncNotify ω) (waker : ω) :
    (cell.register waker).generation = cell.generation := by
  unfold AsyncNotify.register
  split <;> rfl

theorem mem_register [DecidableEq ω] (cell : AsyncNotify ω) (waker : ω) :
    waker ∈ (cell.register waker).waiters := by
  unfold AsyncNotify.register
  split <;> simp_all

theorem mem_register_of_mem [DecidableEq ω] {cell : AsyncNotify ω} {waker other : ω}
    (hMem : other ∈ cell.waiters) : other ∈ (cell.register waker).waiters := by
  unfold AsyncNotify.register
  split <;> simp_all

/-- Registering keeps every cell's generation and wakers. -/
theorem WaitersCovered.register [DecidableEq ω] (hCovered : WaitersCovered waker s) {w : κ}
    {signal : Signal} {generation : UInt64} (hPc : s.waiter w = .register signal generation) :
    WaitersCovered waker ((s.setNotify signal ((s.notify signal).register (waker w))).setWaiter w
      (.reload signal generation)) := by
  have hGeneration (other : Signal) :
      (((s.setNotify signal ((s.notify signal).register (waker w))).setWaiter w
        (.reload signal generation)).notify other).generation = (s.notify other).generation := by
    by_cases hSignal : other = signal <;> simp [hSignal]
  have hWaiters {other : Signal} {v : κ} (hMem : waker v ∈ (s.notify other).waiters) :
      waker v ∈ (((s.setNotify signal ((s.notify signal).register (waker w))).setWaiter w
        (.reload signal generation)).notify other).waiters := by
    by_cases hSignal : other = signal
    · subst hSignal
      simpa using mem_register_of_mem hMem
    · simpa [hSignal] using hMem
  constructor
  · intro v other held h
    by_cases hSame : v = w
    · refine hCovered.early w other held ?_
      simpa [hSame, hPc, WaiterPc.Holds] using h
    · exact hCovered.early v other held (by simpa [hSame] using h)
  · intro v other h hSet hFresh
    rw [hGeneration] at hFresh
    by_cases hSame : v = w
    · refine hCovered.announced w other ?_ (by simpa using hSet) hFresh
      simpa [hSame, hPc, WaiterPc.Passed] using h
    · exact hCovered.announced v other (by simpa [hSame] using h) (by simpa using hSet) hFresh
  · intro v other held h hFresh
    by_cases hSame : v = w
    · obtain ⟨rfl, rfl⟩ : signal = other ∧ generation = held := by simpa [hSame] using h
      simpa [hSame] using mem_register (s.notify signal) (waker w)
    · rw [hGeneration] at hFresh
      exact hWaiters (hCovered.registered v other held (by simpa [hSame] using h) hFresh)
  · intro v other held h
    have hSame : v ≠ w := by
      rintro rfl
      simp at h
    rcases hCovered.parked v other held (by simpa [hSame] using h) with ⟨hMem, hZero | hTake⟩ |
      hWake | hWoken
    · exact .inl ⟨hWaiters hMem, .inl ((hGeneration other).trans hZero)⟩
    · exact .inl ⟨hWaiters hMem, .inr hTake⟩
    · exact .inr (.inl hWake)
    · exact .inr (.inr hWoken)

end Waiters

variable [DecidableEq ι] [DecidableEq κ] [DecidableEq ω]

section Steps

variable {s s' : State ι κ ω} {waker : κ → ω}

omit [DecidableEq κ] [DecidableEq ω] in
/-- A notifier that moves between quiet places changes nothing for the waiters. -/
theorem Kept.setQuiet {n : ι} {pc : NotifierPc ω} (hKept : Kept waker s)
    (hBefore : (s.notifier n).Quiet) (hAfter : pc.Quiet) : Kept waker (s.setNotifier n pc) where
  once := hKept.once.retire n pc hAfter.not_announces hAfter.ne_take
  covered := hKept.covered.move (fun signal hFlag => .inr ⟨hFlag, hBefore.not_announces signal⟩)
    hBefore.ne_take fun _ _ _ => hBefore.wakers_eq_nil

omit [DecidableEq κ] in
theorem Kept.stepNotifier {n : ι} (hKept : Kept waker s)
    (hStep : s.stepNotifier waker n = some s') : Kept waker s' := by
  have hOnce := hKept.once
  have hCovered := hKept.covered
  cases hPc : s.notifier n with
  | idle => simp [State.stepNotifier, hPc] at hStep
  | exchange target next =>
      simp only [State.stepNotifier, hPc] at hStep
      split at hStep
      · rename_i hActive
        obtain rfl := Option.some.inj hStep
        obtain ⟨hSet, hOther⟩ := flag_exchange s target
        constructor
        · refine hOnce.set .body ?_ hSet hOther ?_ ?_
          · simpa [State.flag, RequestShared.isBodyTerminal, RequestShared.isBodyActive] using hActive
          · intro other
            simp [NotifierPc.Announces]
          · simp
        · refine hCovered.move ?_ (by simp [hPc]) (by simp [hPc])
          intro signal hFlag
          cases signal with
          | body => exact .inl rfl
          | cancel => exact .inr ⟨hFlag, by simp [hPc, NotifierPc.Announces]⟩
      · obtain rfl := Option.some.inj hStep
        exact hKept.setQuiet (by simp [hPc, NotifierPc.Quiet]) trivial
  | swap reason =>
      simp only [State.stepNotifier, hPc] at hStep
      split at hStep
      · obtain rfl := Option.some.inj hStep
        exact hKept.setQuiet (by simp [hPc, NotifierPc.Quiet]) trivial
      · rename_i hCancelled
        obtain rfl := Option.some.inj hStep
        obtain ⟨hSet, hOther⟩ := flag_swap s
        constructor
        · refine hOnce.set .cancel ?_ hSet hOther ?_ ?_
          · simpa [State.flag] using hCancelled
          · intro other
            simp [NotifierPc.Announces]
          · simp
        · refine hCovered.move ?_ (by simp [hPc]) (by simp [hPc])
          intro signal hFlag
          cases signal with
          | body => exact .inr ⟨hFlag, by simp [hPc, NotifierPc.Announces]⟩
          | cancel => exact .inl rfl
  | store reason =>
      simp only [State.stepNotifier, hPc, Option.some.injEq] at hStep
      subst hStep
      constructor
      · refine hOnce.mono ?_ (fun _ => rfl) ?_ ?_
        · intro signal
          cases signal <;> rfl
        · intro m signal h
          by_cases hSame : m = n
          · simpa [hSame, hPc, NotifierPc.Announces] using h
          · simpa [hSame] using h
        · intro m signal next h
          by_cases hSame : m = n
          · simp [hSame] at h
          · simpa [hSame] using h
      · refine hCovered.move ?_ (by simp [hPc]) (by simp [hPc])
        intro signal hFlag
        cases signal with
        | body => exact .inr ⟨hFlag, by simp [hPc, NotifierPc.Announces]⟩
        | cancel => exact .inl rfl
  | advance signal next =>
      simp only [State.stepNotifier, hPc, Option.some.injEq] at hStep
      subst hStep
      exact ⟨hOnce.advance hPc, hCovered.advance hOnce hPc⟩
  | take signal next =>
      simp only [State.stepNotifier, hPc, Option.some.injEq] at hStep
      subst hStep
      have hTaken : AnnouncedOnce (s.setNotify signal (s.notify signal).take) := hOnce.setNotify rfl
      exact ⟨hTaken.retire n (.wake signal _ next) (by simp [NotifierPc.Announces]) (by simp),
        hCovered.take hOnce hPc⟩
  | wake signal wakers next =>
      cases wakers with
      | nil =>
          have hQuiet : (s.notifier n).Quiet := by simp [hPc, NotifierPc.Quiet]
          cases next with
          | none =>
              simp only [State.stepNotifier, hPc, Option.some.injEq] at hStep
              subst hStep
              exact hKept.setQuiet hQuiet trivial
          | some reason =>
              simp only [State.stepNotifier, hPc, Option.some.injEq] at hStep
              subst hStep
              exact hKept.setQuiet hQuiet trivial
      | cons woken rest =>
          simp only [State.stepNotifier, hPc, Option.some.injEq] at hStep
          subst hStep
          exact ⟨(hOnce.setWaiters s.waiter _).retire n _ (by simp [NotifierPc.Announces]) (by simp),
            hCovered.wake hPc⟩

omit [DecidableEq ι] in
theorem Kept.stepWaiter {w : κ} (hKept : Kept waker s)
    (hInTime : lateSnapshot s (.waiter w : Action ι κ) = false)
    (hStep : s.stepWaiter waker w = some s') : Kept waker s' := by
  obtain ⟨hOnce, hCovered⟩ := hKept
  cases hPc : s.waiter w with
  | idle => simp [State.stepWaiter, hPc] at hStep
  | parked signal generation => simp [State.stepWaiter, hPc] at hStep
  | check signal =>
      simp only [State.stepWaiter, hPc, Option.some.injEq] at hStep
      subst hStep
      refine ⟨hOnce.setWaiters _ s.woken, ?_⟩
      cases hFlag : s.flag signal with
      | true => exact hCovered.restart w .idle (by simp [WaiterPc.Passed])
      | false =>
          exact hCovered.setWaiter w (.snapshot signal) (by simp [WaiterPc.Holds])
            (by simp [WaiterPc.Passed, hFlag]) (by simp) (by simp)
  | snapshot signal =>
      simp only [State.stepWaiter, hPc, Option.some.injEq] at hStep
      subst hStep
      -- The only place where the generation is copied.
      have hFresh : (s.notify signal).generation = 0 := by
        by_contra hAdvanced
        cases hFlag : s.flag signal with
        | true => simp [lateSnapshot, hPc, State.announced, hFlag, hAdvanced] at hInTime
        | false => exact hAdvanced (hOnce.quiet signal hFlag)
      refine ⟨hOnce.setWaiters _ s.woken, hCovered.setWaiter w _ ?_ ?_ (by simp) (by simp)⟩
      · simp +contextual [WaiterPc.Holds, hFresh]
      · simp +contextual [WaiterPc.Passed, hPc]
  | poll signal generation =>
      simp only [State.stepWaiter, hPc, Option.some.injEq] at hStep
      subst hStep
      have hHeld := hCovered.early w signal generation (by simp [hPc, WaiterPc.Holds])
      refine ⟨hOnce.setWaiters _ s.woken, ?_⟩
      split
      · exact hCovered.restart w (.check signal) (by simp [WaiterPc.Passed])
      · exact hCovered.setWaiter w _ (by simp +contextual [WaiterPc.Holds, hHeld])
          (by simp +contextual [WaiterPc.Passed, hPc]) (by simp) (by simp)
  | register signal generation =>
      simp only [State.stepWaiter, hPc, Option.some.injEq] at hStep
      subst hStep
      exact ⟨(hOnce.setNotify (generation_register _ _)).setWaiters _ s.woken,
        hCovered.register hPc⟩
  | reload signal generation =>
      simp only [State.stepWaiter, hPc, Option.some.injEq] at hStep
      subst hStep
      have hHeld := hCovered.early w signal generation (by simp [hPc, WaiterPc.Holds])
      refine ⟨hOnce.setWaiters _ s.woken, ?_⟩
      split
      · exact hCovered.restart w (.check signal) (by simp [WaiterPc.Passed])
      · rename_i hSame
        have hFresh : (s.notify signal).generation = 0 := by
          rw [← hHeld]
          exact not_not.mp hSame
        refine hCovered.setWaiter w _ (by simp +contextual [WaiterPc.Holds, hHeld])
          (by simp +contextual [WaiterPc.Passed, hPc]) (by simp) ?_
        intro other held hParked
        obtain ⟨rfl, -⟩ : signal = other ∧ generation = held := by simpa using hParked
        exact .inl ⟨hCovered.registered w signal generation hPc hFresh, .inl hFresh⟩

theorem Kept.step {action : Action ι κ} (hKept : Kept waker s)
    (hInTime : lateSnapshot s action = false) (hStep : s.step waker action = some s') :
    Kept waker s' := by
  cases action with
  | call n call =>
      simp only [State.step] at hStep
      split at hStep
      · rename_i hIdle
        obtain rfl := Option.some.inj hStep
        refine hKept.setQuiet (by simp [hIdle, NotifierPc.Quiet]) ?_
        cases call <;> trivial
      · cases hStep
  | notifier n => exact hKept.stepNotifier hStep
  | wait w signal =>
      simp only [State.step] at hStep
      split at hStep
      · obtain rfl := Option.some.inj hStep
        exact ⟨hKept.once.setWaiters _ s.woken,
          hKept.covered.restart w _ (by simp [WaiterPc.Passed])⟩
      · cases hStep
  | waiter w => exact hKept.stepWaiter hInTime hStep
  | repoll w =>
      simp only [State.step] at hStep
      split at hStep
      · rename_i signal generation hPc
        obtain rfl := Option.some.inj hStep
        have hHeld := hKept.covered.early w signal generation (by simp [hPc, WaiterPc.Holds])
        have hPolled := hKept.covered.setWaiter w (.poll signal generation)
          (by simp +contextual [WaiterPc.Holds, hHeld])
          (by simp +contextual [WaiterPc.Passed, hPc]) (by simp) (by simp)
        exact ⟨hKept.once.setWaiters _ _, hPolled.answer w (by simp)⟩
      · cases hStep
  | drop w =>
      simp only [State.step] at hStep
      split at hStep
      · obtain rfl := Option.some.inj hStep
        exact ⟨hKept.once.setWaiters _ s.woken,
          hKept.covered.restart w _ (by simp [WaiterPc.Passed])⟩
      · cases hStep
  | rest w =>
      simp only [State.step] at hStep
      split at hStep
      · rename_i hIdle
        obtain rfl := Option.some.inj hStep
        exact ⟨hKept.once.setWaiters s.waiter _, hKept.covered.answer w (by simp [hIdle])⟩
      · cases hStep

end Steps

/-- In a run where every waiter that found the flag unset takes its snapshot before
the notifier advances the generation, no wakeup is lost. -/
theorem no_lost_wakeup (waker : κ → ω) {s : State ι κ ω}
    (hReach : (machine waker).ReachableUnder (fun s action => lateSnapshot s action = false) s) :
    ¬LostWakeup waker s := by
  have hKept : Kept waker s := hReach.invariant (fun _ hInitial => kept_initial hInitial)
    fun _ _ _ hKept hInTime hStep => Kept.step hKept hInTime hStep
  exact not_lostWakeup hKept.covered

/-- One notifier and one waiter, on a fresh request. -/
def freshPair : State Unit Unit Unit where
  shared := {}
  notify := fun _ => {}
  notifier := fun _ => .idle
  waiter := fun _ => .idle
  woken := fun _ => false

theorem freshPair_initial : freshPair.Initial :=
  ⟨.inl rfl, fun _ => rfl, fun _ => rfl, fun _ => ⟨rfl, rfl⟩⟩

/-- The waiter goes to sleep, then the body completes and wakes it. -/
def parkThenComplete : List (Action Unit Unit) :=
  [.wait () .body, .waiter (), .waiter (), .waiter (), .waiter (), .waiter (),
    .call () .markComplete, .notifier (), .notifier (), .notifier (), .notifier (), .notifier ()]

theorem no_lost_wakeup_parked_first :
    ∃ s : State Unit Unit Unit,
      (machine id).ReachableUnder (fun s action => lateSnapshot s action = false) s ∧
      s.waiter () = .parked .body 0 ∧ s.notifier () = .idle ∧ s.flag .body = true ∧
      ¬LostWakeup id s := by
  obtain ⟨s, hRun, hWaiter, hNotifier, hFlag⟩ : ∃ s,
      (machine id).run (fun s action => lateSnapshot s action = false) freshPair
        parkThenComplete = some s ∧ s.waiter () = .parked .body 0 ∧ s.notifier () = .idle ∧
        s.flag .body = true := ⟨_, rfl, rfl, rfl, rfl⟩
  have hReach := (Transition.Machine.ReachableUnder.start freshPair_initial).run hRun
  exact ⟨s, hReach, hWaiter, hNotifier, hFlag, no_lost_wakeup id hReach⟩

/-- The waiter finds the body active; the body completes and notifies nobody; then the
waiter takes the new generation for the one to wait on. -/
def completeBeforeSnapshot : List (Action Unit Unit) :=
  [.wait () .body, .waiter (), .call () .markComplete, .notifier (), .notifier (), .notifier (),
    .notifier (), .waiter (), .waiter (), .waiter (), .waiter ()]

theorem lost_wakeup_reachable :
    ∃ s : State Unit Unit Unit, (machine id).Reachable s ∧ LostWakeup id s := by
  obtain ⟨s, hRun, hLost⟩ : ∃ s,
      (machine id).run (fun _ _ => True) freshPair completeBeforeSnapshot = some s ∧
        LostWakeup id s :=
    ⟨_, rfl, fun _ => rfl, (), .body, 1, rfl, rfl, by decide, rfl⟩
  exact ⟨s, (Transition.Machine.ReachableUnder.start freshPair_initial).run hRun, hLost⟩

end Eggserve.Primitives.Lifecycle
