import Eggserve.Primitives.LifecycleNotify

/-! Observers of a cancellation. An observer loads the flag and then locks the
reason, and the steps of the cancel calls interleave with both. -/
namespace Eggserve.Primitives.Lifecycle
open Transition

/-- One call of `cancellation_reason`, and whether its observer had seen the flag. -/
structure ReasonRead (β : Type) where
  observer : β
  sawCancelled : Bool
  value : Option RequestCancellationReason
  deriving DecidableEq

/-- The lifecycle with its observers, and the history of a run: the cancel calls
that won, and the reads so far, both with the latest first. -/
structure Observed (ι κ ω β : Type) where
  lifecycle : State ι κ ω
  sawCancelled : β → Bool
  winners : List RequestCancellationReason
  reads : List (ReasonRead β)

inductive ObservedAction (ι κ β : Type) where
  | lifecycle (action : Action ι κ)
  | isCancelled (observer : β)
  | cancellationReason (observer : β)

namespace Observed

variable {ι κ ω β : Type} [DecidableEq ι] [DecidableEq κ] [DecidableEq ω] [DecidableEq β]

/-- The reason of a cancel call whose next operation flips the flag. -/
def winning (s : State ι κ ω) : Action ι κ → Option RequestCancellationReason
  | .notifier n =>
      match s.notifier n with
      | .swap reason => if s.shared.cancelled then none else some reason
      | _ => none
  | _ => none

variable (waker : κ → ω)

def step (s : Observed ι κ ω β) : ObservedAction ι κ β → Option (Observed ι κ ω β)
  | .lifecycle action =>
      (s.lifecycle.step waker action).map fun after =>
        { s with
          lifecycle := after
          winners := (winning s.lifecycle action).toList ++ s.winners }
  | .isCancelled observer =>
      some { s with
        sawCancelled := Function.update s.sawCancelled observer s.lifecycle.shared.cancelled }
  | .cancellationReason observer =>
      some { s with
        reads := ⟨observer, s.sawCancelled observer, s.lifecycle.shared.reason⟩ :: s.reads }

def machine : Transition.Machine (Observed ι κ ω β) (ObservedAction ι κ β) where
  Initial s := s.lifecycle.Initial ∧ (∀ observer, s.sawCancelled observer = false) ∧
    s.winners = [] ∧ s.reads = []
  step := step waker

/-- Some call has flipped the flag and not stored its reason yet. -/
def Unpublished (s : State ι κ ω) : Prop := ∃ n reason, s.notifier n = .store reason

/-- An observer that saw the flag reads the reason before it is stored. -/
def ReadsUnpublished (s : Observed ι κ ω β) : ObservedAction ι κ β → Prop
  | .cancellationReason observer =>
      s.sawCancelled observer = true ∧ Unpublished s.lifecycle
  | _ => False

/-- Whoever saw the flag reads the reason of the one call that won, and so does
everyone who reads after that. -/
def PublishedWithFlag (s : Observed ι κ ω β) : Prop :=
  (∀ read ∈ s.reads, read.sawCancelled = true →
      ∃ reason, s.winners = [reason] ∧ read.value = some reason) ∧
    s.reads.Pairwise fun later earlier =>
      earlier.sawCancelled = true → later.value = earlier.value

/-! What a step of the lifecycle does to the flag and the reason. -/

/-- The three kinds of steps: a call flips the flag, it stores its reason, or
neither the flag, the reason nor anyone about to store is touched. -/
inductive Publication (s s' : State ι κ ω) (action : Action ι κ) : Prop where
  | flips (n : ι) (reason : RequestCancellationReason)
      (hWins : winning s action = some reason)
      (hBefore : s.shared.cancelled = false) (hAfter : s'.shared.cancelled = true)
      (hReason : s'.shared.reason = s.shared.reason)
      (hNotifier : s'.notifier = Function.update s.notifier n (.store reason))
  | stores (n : ι) (reason : RequestCancellationReason)
      (hWins : winning s action = none) (hPc : s.notifier n = .store reason)
      (hCancelled : s'.shared.cancelled = s.shared.cancelled)
      (hReason : s'.shared.reason = some reason)
      (hNotifier : s'.notifier = Function.update s.notifier n (.advance .cancel none))
  | neither (hWins : winning s action = none)
      (hCancelled : s'.shared.cancelled = s.shared.cancelled)
      (hReason : s'.shared.reason = s.shared.reason)
      (hStore : ∀ m reason, s'.notifier m = .store reason ↔ s.notifier m = .store reason)

variable {waker}

omit [DecidableEq ω] in
theorem store_update_iff {notifier : ι → NotifierPc ω} {n : ι} {pc : NotifierPc ω}
    (hBefore : ∀ reason, notifier n ≠ .store reason) (hAfter : ∀ reason, pc ≠ .store reason)
    (m : ι) (reason : RequestCancellationReason) :
    Function.update notifier n pc m = .store reason ↔ notifier m = .store reason := by
  revert m
  refine (Function.forall_update_iff notifier fun m pc =>
    pc = .store reason ↔ notifier m = .store reason).mpr ⟨?_, fun _ _ => Iff.rfl⟩
  exact iff_of_false (hAfter reason) (hBefore reason)

omit [DecidableEq κ] in
theorem publication_stepNotifier {s s' : State ι κ ω} {n : ι}
    (hStep : s.stepNotifier waker n = some s') : Publication s s' (.notifier n) := by
  unfold State.stepNotifier at hStep
  split at hStep
  · cases hStep
  · rename_i target next hPc
    split at hStep <;> obtain rfl := Option.some.inj hStep
    · exact .neither (by simp [winning, hPc]) rfl rfl
        (store_update_iff (by simp [hPc]) (by simp))
    · exact .neither (by simp [winning, hPc]) rfl rfl
        (store_update_iff (by simp [hPc]) (by simp))
  · rename_i reason hPc
    split at hStep <;> rename_i hCancelled <;> obtain rfl := Option.some.inj hStep
    · exact .neither (by simp [winning, hPc, hCancelled]) rfl rfl
        (store_update_iff (by simp [hPc]) (by simp))
    · rw [Bool.not_eq_true] at hCancelled
      exact .flips n reason (by simp [winning, hPc, hCancelled]) hCancelled rfl rfl rfl
  · rename_i reason hPc
    obtain rfl := Option.some.inj hStep
    exact .stores n reason (by simp [winning, hPc]) hPc rfl rfl rfl
  all_goals
    rename_i hPc
    obtain rfl := Option.some.inj hStep
    exact .neither (by simp [winning, hPc]) rfl rfl
      (store_update_iff (by simp [hPc]) (by simp))

theorem publication_step {s s' : State ι κ ω} {action : Action ι κ}
    (hStep : s.step waker action = some s') : Publication s s' action := by
  cases action with
  | call n call =>
      obtain ⟨hIdle, rfl⟩ := enabled_iff.mp hStep
      refine .neither rfl rfl rfl (store_update_iff (by simp [hIdle]) ?_)
      cases call <;> simp [State.entry]
  | notifier n => exact publication_stepNotifier hStep
  | wait w signal =>
      obtain ⟨-, rfl⟩ := enabled_iff.mp hStep
      exact .neither rfl rfl rfl fun _ _ => Iff.rfl
  | waiter w =>
      simp only [State.step, State.stepWaiter] at hStep
      split at hStep <;> cases hStep <;> exact .neither rfl rfl rfl fun _ _ => Iff.rfl
  | repoll w =>
      simp only [State.step] at hStep
      split at hStep <;> cases hStep
      exact .neither rfl rfl rfl fun _ _ => Iff.rfl
  | drop w =>
      simp only [State.step] at hStep
      split at hStep <;> cases hStep
      exact .neither rfl rfl rfl fun _ _ => Iff.rfl
  | rest w =>
      obtain ⟨-, rfl⟩ := enabled_iff.mp hStep
      exact .neither rfl rfl rfl fun _ _ => Iff.rfl

/-! The invariant of a run. -/

/-- Nobody has cancelled, one call has won and not stored, or it has stored. -/
inductive Phase (s : State ι κ ω) (winners : List RequestCancellationReason) : Prop where
  | quiet (hCancelled : s.shared.cancelled = false) (hWinners : winners = [])
      (hReason : s.shared.reason = none) (hStore : ¬Unpublished s)
  | claimed (n : ι) (reason : RequestCancellationReason)
      (hCancelled : s.shared.cancelled = true) (hWinners : winners = [reason])
      (hReason : s.shared.reason = none)
      (hStore : ∀ m other, s.notifier m = .store other ↔ m = n ∧ other = reason)
  | published (reason : RequestCancellationReason)
      (hCancelled : s.shared.cancelled = true) (hWinners : winners = [reason])
      (hReason : s.shared.reason = some reason) (hStore : ¬Unpublished s)

structure Tracked (s : Observed ι κ ω β) : Prop where
  phase : Phase s.lifecycle s.winners
  seen : ∀ observer, s.sawCancelled observer = true → s.lifecycle.shared.cancelled = true
  reads : ∀ read ∈ s.reads, read.sawCancelled = true →
    ∃ reason, s.winners = [reason] ∧ read.value = some reason ∧
      s.lifecycle.shared.reason = some reason
  agree : s.reads.Pairwise fun later earlier =>
    earlier.sawCancelled = true → later.value = earlier.value

theorem tracked_initial {s : Observed ι κ ω β} (hInitial : (machine waker).Initial s) :
    s.Tracked := by
  obtain ⟨⟨hShared, -, hIdle, -⟩, hSeen, hWinners, hReads⟩ := hInitial
  have hStore : ¬Unpublished s.lifecycle := by
    rintro ⟨n, reason, hPc⟩
    rw [hIdle n] at hPc
    cases hPc
  refine ⟨.quiet ?_ hWinners ?_ hStore, ?_, ?_, ?_⟩
  · rcases hShared with hShared | hShared <;> rw [hShared]
  · rcases hShared with hShared | hShared <;> rw [hShared]
  · intro observer hSaw
    rw [hSeen observer] at hSaw
    cases hSaw
  · rw [hReads]
    intro read hRead
    cases hRead
  · rw [hReads]
    exact List.Pairwise.nil

theorem phase_step {s after : State ι κ ω} {action : Action ι κ}
    {winners : List RequestCancellationReason} (h : Phase s winners)
    (hStep : s.step waker action = some after) :
    Phase after ((winning s action).toList ++ winners) := by
  cases publication_step hStep with
  | flips n reason hWins hBefore hAfter hReason hNotifier =>
      cases h with
      | quiet hCancelled hWinners hNone hStore =>
          refine .claimed n reason hAfter (by simp [hWins, hWinners]) (hReason.trans hNone) ?_
          intro m other
          simp only [hNotifier]
          by_cases hSame : m = n
          · subst hSame
            simp [eq_comm]
          · rw [Function.update_of_ne hSame]
            exact iff_of_false (fun hPc => hStore ⟨m, other, hPc⟩) fun h => hSame h.1
      | claimed n reason hCancelled => cases hBefore.symm.trans hCancelled
      | published reason hCancelled => cases hBefore.symm.trans hCancelled
  | stores n reason hWins hPc hCancelled hReason hNotifier =>
      cases h with
      | quiet _ _ _ hStore => exact absurd ⟨n, reason, hPc⟩ hStore
      | published _ _ _ _ hStore => exact absurd ⟨n, reason, hPc⟩ hStore
      | claimed winner won hFlag hWinners _ hStore =>
          obtain ⟨rfl, rfl⟩ := (hStore n reason).mp hPc
          refine .published reason (hCancelled.trans hFlag) (by simp [hWins, hWinners]) hReason ?_
          rintro ⟨m, other, hOther⟩
          simp only [hNotifier] at hOther
          by_cases hSame : m = n
          · subst hSame
            rw [Function.update_self] at hOther
            cases hOther
          · rw [Function.update_of_ne hSame] at hOther
            exact hSame ((hStore m other).mp hOther).1
  | neither hWins hCancelled hReason hSame =>
      have hUnpublished : Unpublished after ↔ Unpublished s := by
        simp only [Unpublished, hSame]
      cases h with
      | quiet hFlag hWinners hNone hStore =>
          exact .quiet (hCancelled.trans hFlag) (by simp [hWins, hWinners])
            (hReason.trans hNone) (hUnpublished.not.mpr hStore)
      | claimed n reason hFlag hWinners hNone hStore =>
          exact .claimed n reason (hCancelled.trans hFlag) (by simp [hWins, hWinners])
            (hReason.trans hNone) fun m other => (hSame m other).trans (hStore m other)
      | published reason hFlag hWinners hSome hStore =>
          exact .published reason (hCancelled.trans hFlag) (by simp [hWins, hWinners])
            (hReason.trans hSome) (hUnpublished.not.mpr hStore)

/-- The flag is never taken back. -/
theorem cancelled_step {s s' : State ι κ ω} {action : Action ι κ}
    (hStep : s.step waker action = some s') (h : s.shared.cancelled = true) :
    s'.shared.cancelled = true := by
  cases publication_step hStep with
  | flips _ _ _ _ hAfter => exact hAfter
  | stores _ _ _ _ hCancelled => exact hCancelled.trans h
  | neither _ hCancelled => exact hCancelled.trans h

/-- A published reason stays, and nobody wins after it. -/
theorem reason_step {s after : State ι κ ω} {action : Action ι κ}
    {winners : List RequestCancellationReason} {reason : RequestCancellationReason}
    (h : Phase s winners) (hStep : s.step waker action = some after)
    (hReason : s.shared.reason = some reason) :
    after.shared.reason = some reason ∧ winning s action = none := by
  cases publication_step hStep with
  | neither hWins _ hSame => exact ⟨hSame.trans hReason, hWins⟩
  | flips n other _ hBefore =>
      cases h with
      | quiet _ _ hNone => cases hNone.symm.trans hReason
      | claimed _ _ _ _ hNone => cases hNone.symm.trans hReason
      | published _ hFlag => cases hBefore.symm.trans hFlag
  | stores n other _ hPc =>
      cases h with
      | quiet _ _ hNone => cases hNone.symm.trans hReason
      | claimed _ _ _ _ hNone => cases hNone.symm.trans hReason
      | published _ _ _ _ hStore => exact absurd ⟨n, other, hPc⟩ hStore

theorem tracked_step {s s' : Observed ι κ ω β} {action : ObservedAction ι κ β} (h : s.Tracked)
    (hGuard : ¬s.ReadsUnpublished action) (hStep : s.step waker action = some s') :
    s'.Tracked := by
  cases action with
  | lifecycle action =>
      obtain ⟨after, hAfter, rfl⟩ := Option.map_eq_some_iff.mp hStep
      refine ⟨phase_step h.phase hAfter, ?_, ?_, h.agree⟩
      · intro observer hSaw
        exact cancelled_step hAfter (h.seen observer hSaw)
      · intro read hRead hSaw
        obtain ⟨reason, hWinners, hValue, hReason⟩ := h.reads read hRead hSaw
        obtain ⟨hKept, hNoWin⟩ := reason_step h.phase hAfter hReason
        exact ⟨reason, by simp [hNoWin, hWinners], hValue, hKept⟩
  | isCancelled observer =>
      obtain rfl := Option.some.inj hStep
      refine ⟨h.phase, ?_, h.reads, h.agree⟩
      intro other hSaw
      by_cases hSame : other = observer
      · subst hSame
        simpa using hSaw
      · exact h.seen other (by simpa [hSame] using hSaw)
  | cancellationReason observer =>
      obtain rfl := Option.some.inj hStep
      refine ⟨h.phase, h.seen, ?_, ?_⟩
      · intro read hRead hSaw
        rcases List.mem_cons.mp hRead with rfl | hRead
        · have hFlag := h.seen observer hSaw
          cases h.phase with
          | quiet hCancelled => cases hCancelled.symm.trans hFlag
          | claimed n reason _ _ _ hStore =>
              exact absurd ⟨hSaw, n, reason, (hStore n reason).mpr ⟨rfl, rfl⟩⟩ hGuard
          | published reason _ hWinners hReason => exact ⟨reason, hWinners, hReason, hReason⟩
        · exact h.reads read hRead hSaw
      · refine List.pairwise_cons.mpr ⟨?_, h.agree⟩
        intro earlier hEarlier hSaw
        obtain ⟨reason, -, hValue, hReason⟩ := h.reads earlier hEarlier hSaw
        exact hReason.trans hValue.symm

theorem tracked_of_reachable {s : Observed ι κ ω β}
    (hReach : (machine waker).ReachableUnder (fun s action => ¬s.ReadsUnpublished action) s) :
    s.Tracked :=
  hReach.invariant (fun _ hInitial => tracked_initial hInitial)
    fun _ _ _ h hGuard hStep => tracked_step h hGuard hStep

omit [DecidableEq ι] [DecidableEq κ] [DecidableEq ω] [DecidableEq β] in
/-- Between the flag and the store there is nothing to read. -/
theorem reads_none {s : Observed ι κ ω β} {observer : β} (h : s.Tracked)
    (hReads : s.ReadsUnpublished (.cancellationReason observer)) :
    s.lifecycle.shared.reason = none := by
  obtain ⟨-, n, reason, hPc⟩ := hReads
  cases h.phase with
  | quiet _ _ hNone => exact hNone
  | claimed _ _ _ _ hNone => exact hNone
  | published _ _ _ _ hStore => exact absurd ⟨n, reason, hPc⟩ hStore

end Observed

/-- In every run in which nobody who saw the flag reads between the flip and the
store, the reads after the flag agree on the reason of the one call that won. A
read between the two finds nothing. -/
theorem cancellation_reason_published {ι κ ω β : Type} [DecidableEq ι] [DecidableEq κ]
    [DecidableEq ω] [DecidableEq β] (waker : κ → ω) (s : Observed ι κ ω β)
    (hReach : (Observed.machine waker).ReachableUnder
      (fun s action => ¬s.ReadsUnpublished action) s) :
    s.PublishedWithFlag ∧
      ∀ action, s.ReadsUnpublished action →
        ∃ s', (Observed.machine waker).step s action = some s' ∧ ¬s'.PublishedWithFlag := by
  have h := Observed.tracked_of_reachable hReach
  refine ⟨⟨fun read hRead hSaw => ?_, h.agree⟩, fun action hReads => ?_⟩
  · obtain ⟨reason, hWinners, hValue, -⟩ := h.reads read hRead hSaw
    exact ⟨reason, hWinners, hValue⟩
  · cases action with
    | lifecycle action => exact hReads.elim
    | isCancelled observer => exact hReads.elim
    | cancellationReason observer =>
        refine ⟨_, rfl, fun hPublished => ?_⟩
        obtain ⟨reason, -, hValue⟩ := hPublished.1 _ List.mem_cons_self hReads.1
        cases (Observed.reads_none h hReads).symm.trans hValue

/-- A fresh lifecycle with one caller and one observer. -/
def oneObserver : Observed Unit Unit Unit Unit where
  lifecycle := ⟨{}, fun _ => {}, fun _ => .idle, fun _ => .idle, fun _ => false⟩
  sawCancelled := fun _ => false
  winners := []
  reads := []

def oneObserverMachine :
    Transition.Machine (Observed Unit Unit Unit Unit) (ObservedAction Unit Unit Unit) :=
  Observed.machine id

theorem oneObserver_initial : oneObserverMachine.Initial oneObserver :=
  ⟨⟨.inl rfl, fun _ => rfl, fun _ => rfl, fun _ => ⟨rfl, rfl⟩⟩, fun _ => rfl, rfl, rfl⟩

/-- The observer reads after the store. -/
theorem cancellation_reason_published_after_store :
    ∃ s, oneObserverMachine.ReachableUnder (fun s action => ¬s.ReadsUnpublished action) s ∧
      s.reads = [⟨(), true, some .serverShutdown⟩] ∧ s.PublishedWithFlag := by
  have hStart : oneObserverMachine.ReachableUnder (fun s action => ¬s.ReadsUnpublished action)
      oneObserver := .start oneObserver_initial
  have hCalled := hStart.step (a := .lifecycle (.call () (.cancel .serverShutdown))) id rfl
  have hFlipped := hCalled.step (a := .lifecycle (.notifier ())) id rfl
  have hStored := hFlipped.step (a := .lifecycle (.notifier ())) id rfl
  have hSeen := hStored.step (a := .isCancelled ()) id rfl
  have hRead := hSeen.step (a := .cancellationReason ()) (by rintro ⟨-, n, reason, hPc⟩; cases hPc)
    rfl
  exact ⟨_, hRead, rfl, (cancellation_reason_published id _ hRead).1⟩

/-- The observer reads between the flip of the flag and the store. -/
theorem cancelled_without_reason :
    ∃ s, oneObserverMachine.Reachable s ∧ s.reads = [⟨(), true, none⟩] ∧
      ¬s.PublishedWithFlag := by
  have hStart : oneObserverMachine.Reachable oneObserver := .start oneObserver_initial
  have hCalled := hStart.step (a := .lifecycle (.call () (.cancel .serverShutdown))) trivial rfl
  have hFlipped := hCalled.step (a := .lifecycle (.notifier ())) trivial rfl
  have hSeen := hFlipped.step (a := .isCancelled ()) trivial rfl
  have hRead := hSeen.step (a := .cancellationReason ()) trivial rfl
  refine ⟨_, hRead, rfl, fun hPublished => ?_⟩
  obtain ⟨reason, -, hValue⟩ := hPublished.1 _ List.mem_cons_self rfl
  cases hValue

end Eggserve.Primitives.Lifecycle
