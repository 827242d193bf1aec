import Eggserve.Rust.Integer
import Eggserve.Transition.Machine
import Eggserve.Transition.Population

/-! Activity of a connection: the counters that its deadlines depend on, and the
guards, response bodies and trackers that move them. Each atomic operation is a
step of its own. -/
namespace Eggserve.Server
open Rust Transition

/-- Where an `InFlightGuard` stands: live, inside `finish` or `drop`, or gone. A
service permit is known by the number of permits acquired before it. -/
inductive GuardPc where
  | live (permit : Option Nat)
  | finishPermit (permit : Option Nat)
  | finishSub
  | finishCount
  | finishStart
  | finishBody
  | dropPermit (permit : Option Nat)
  | dropSub
  | gone
  deriving DecidableEq

/-- Where a `TrackedBody` stands: live with its flag, between the flag and the
counter, or gone. -/
inductive BodyPc where
  | live (done : Bool)
  | sub (dropping : Bool)
  | restore (dropping : Bool)
  | gone
  deriving DecidableEq

/-- Where the tracker of a deferred body stands. -/
inductive TrackerPc where
  | spawning
  | waiting
  | sub
  | restore
  | finished
  deriving DecidableEq

/-- The counters, everything that was ever created on the connection, and the
history of a run: the permits acquired and released, the calls of `finish`, and
whether a counter was decremented at zero. -/
structure ConnectionActivity where
  inFlight : Nat
  outstanding : Nat
  completed : Nat
  deferred : Nat
  guards : List GuardPc
  bodies : List BodyPc
  trackers : List TrackerPc
  acquired : Nat
  released : List Nat
  finishCalls : Nat
  decrementedAtZero : Bool
  deriving DecidableEq

inductive PollResult where
  | pending
  | frame
  | error
  | finished
  deriving DecidableEq

inductive ActivityAction where
  | newGuard
  | admission (guard : Nat) (permitted : Bool)
  | finish (guard : Nat)
  | dropGuard (guard : Nat)
  | guard (guard : Nat)
  | poll (body : Nat) (result : PollResult)
  | dropBody (body : Nat)
  | body (body : Nat)
  | deferredStarted
  | tracker (tracker : Nat)

/-- What a body is after its `finish`: a drop leaves nothing. -/
def BodyPc.after (dropping : Bool) : BodyPc := if dropping then .gone else .live true

/-- `fetch_sub(1)`, which wraps at zero. -/
def fetchSub (counter : Nat) : Nat := if counter = 0 then u64Max else counter - 1

/-- The `fetch_add(1)` that takes back a wrapped `fetch_sub`. -/
def restored (counter : Nat) : Nat := (counter + 1) % (u64Max + 1)

namespace ConnectionActivity

variable (s : ConnectionActivity)

def setGuard (guard : Nat) (pc : GuardPc) : ConnectionActivity :=
  { s with guards := s.guards.set guard pc }

def setBody (body : Nat) (pc : BodyPc) : ConnectionActivity :=
  { s with bodies := s.bodies.set body pc }

def setTracker (tracker : Nat) (pc : TrackerPc) : ConnectionActivity :=
  { s with trackers := s.trackers.set tracker pc }

/-- `in_flight.fetch_sub(1)`. -/
def requestFinished : ConnectionActivity :=
  { s with
    inFlight := fetchSub s.inFlight
    decrementedAtZero := s.decrementedAtZero || s.inFlight = 0 }

/-- The next operation of `finish` or `drop`. -/
def stepGuard (guard : Nat) : Option ConnectionActivity :=
  match s.guards[guard]? with
  | some (.finishPermit permit) =>
      some { s.setGuard guard .finishSub with released := permit.toList ++ s.released }
  | some .finishSub => some (s.requestFinished.setGuard guard .finishCount)
  | some .finishCount =>
      some { s.setGuard guard .finishStart with completed := s.completed + 1 }
  | some .finishStart =>
      some { s.setGuard guard .finishBody with outstanding := s.outstanding + 1 }
  | some .finishBody => some { s.setGuard guard .gone with bodies := s.bodies ++ [.live false] }
  | some (.dropPermit permit) =>
      some { s.setGuard guard .dropSub with released := permit.toList ++ s.released }
  | some .dropSub => some (s.requestFinished.setGuard guard .gone)
  | _ => none

/-- The next operation of `response_finished`. -/
def stepBody (body : Nat) : Option ConnectionActivity :=
  match s.bodies[body]? with
  | some (.sub dropping) =>
      some { s.setBody body (if s.outstanding = 0 then .restore dropping
          else BodyPc.after dropping) with
        outstanding := fetchSub s.outstanding
        decrementedAtZero := s.decrementedAtZero || s.outstanding = 0 }
  | some (.restore dropping) =>
      some { s.setBody body (BodyPc.after dropping) with outstanding := restored s.outstanding }
  | _ => none

/-- The next operation of the tracker: it is spawned, its body ends, and
`deferred_finished`. -/
def stepTracker (tracker : Nat) : Option ConnectionActivity :=
  match s.trackers[tracker]? with
  | some .spawning => some (s.setTracker tracker .waiting)
  | some .waiting => some (s.setTracker tracker .sub)
  | some .sub =>
      some { s.setTracker tracker (if s.deferred = 0 then .restore else .finished) with
        deferred := fetchSub s.deferred
        decrementedAtZero := s.decrementedAtZero || s.deferred = 0 }
  | some .restore =>
      some { s.setTracker tracker .finished with deferred := restored s.deferred }
  | _ => none

/-- `TrackedBody::finish`: the flag decides who decrements. -/
def finishBody (body : Nat) (done dropping : Bool) : ConnectionActivity :=
  s.setBody body (if done then BodyPc.after dropping else .sub dropping)

def step : ActivityAction → Option ConnectionActivity
  | .newGuard =>
      some { s with inFlight := s.inFlight + 1, guards := s.guards ++ [.live none] }
  | .admission guard permitted =>
      match s.guards[guard]? with
      | some (.live permit) =>
          if permitted then
            some { s.setGuard guard (.live (some s.acquired)) with
              acquired := s.acquired + 1
              released := permit.toList ++ s.released }
          else some s
      | _ => none
  | .finish guard =>
      match s.guards[guard]? with
      | some (.live permit) =>
          some { s.setGuard guard (.finishPermit permit) with finishCalls := s.finishCalls + 1 }
      | _ => none
  | .dropGuard guard =>
      match s.guards[guard]? with
      | some (.live permit) => some (s.setGuard guard (.dropPermit permit))
      | _ => none
  | .guard guard => s.stepGuard guard
  | .poll body result =>
      match s.bodies[body]? with
      | some (.live done) =>
          match result with
          | .pending => some s
          | .frame => some s
          | .error => some (s.finishBody body done false)
          | .finished => some (s.finishBody body done false)
      | _ => none
  | .dropBody body =>
      match s.bodies[body]? with
      | some (.live done) => some (s.finishBody body done true)
      | _ => none
  | .body body => s.stepBody body
  | .deferredStarted =>
      some { s with deferred := s.deferred + 1, trackers := s.trackers ++ [.spawning] }
  | .tracker tracker => s.stepTracker tracker

/-- A new connection. -/
def new : ConnectionActivity := ⟨0, 0, 0, 0, [], [], [], 0, [], 0, false⟩

def machine : Machine ConnectionActivity ActivityAction where
  Initial s := s = new
  step := step

end ConnectionActivity

/-! What each object still owes to the counters. -/

namespace GuardPc

/-- Neither finished nor dropped. -/
def unfinished : GuardPc → Bool
  | live _ => true
  | _ => false

/-- No call of `finish` or `drop` is under way. -/
def resting : GuardPc → Bool
  | live _ => true
  | gone => true
  | _ => false

/-- The slot in flight is not given back yet. -/
def holdsSlot : GuardPc → Bool
  | live _ => true
  | finishPermit _ => true
  | finishSub => true
  | dropPermit _ => true
  | dropSub => true
  | _ => false

/-- `finish` was called and the response is not counted yet. -/
def owesCount : GuardPc → Bool
  | finishPermit _ => true
  | finishSub => true
  | finishCount => true
  | _ => false

/-- The response is counted as outstanding and its body is not made yet. -/
def owesBody : GuardPc → Bool
  | finishBody => true
  | _ => false

def permit : GuardPc → Option Nat
  | live permit => permit
  | finishPermit permit => permit
  | dropPermit permit => permit
  | _ => none

end GuardPc

namespace BodyPc

/-- The flag is not set. -/
def undone : BodyPc → Bool
  | live done => !done
  | _ => false

def resting : BodyPc → Bool
  | live _ => true
  | gone => true
  | _ => false

/-- The outstanding slot is not given back yet. -/
def holdsSlot : BodyPc → Bool
  | live done => !done
  | sub _ => true
  | _ => false

def restores : BodyPc → Bool
  | restore _ => true
  | _ => false

@[simp] theorem holdsSlot_after (dropping : Bool) : (after dropping).holdsSlot = false := by
  cases dropping <;> rfl

@[simp] theorem restores_after (dropping : Bool) : (after dropping).restores = false := by
  cases dropping <;> rfl

end BodyPc

namespace TrackerPc

def unfinished : TrackerPc → Bool
  | finished => false
  | _ => true

end TrackerPc

namespace ConnectionActivity

/-- One if the permit was acquired. -/
def acquiredOnce (s : ConnectionActivity) (permit : Nat) : Nat :=
  if permit < s.acquired then 1 else 0

/-- The counters at any moment, between any two operations. -/
structure Accounted (s : ConnectionActivity) : Prop where
  inFlight : s.inFlight = s.guards.countP GuardPc.holdsSlot
  outstanding : s.outstanding =
    s.guards.countP GuardPc.owesBody + s.bodies.countP BodyPc.holdsSlot
  deferred : s.deferred = s.trackers.countP TrackerPc.unfinished
  completed : s.completed + s.guards.countP GuardPc.owesCount = s.finishCalls
  permits : ∀ permit, s.released.count permit +
    s.guards.countP (fun guard => guard.permit = some permit) = s.acquiredOnce permit
  positive : s.decrementedAtZero = false
  noRestore : ∀ body ∈ s.bodies, body.restores = false
  noTrackerRestore : ∀ tracker ∈ s.trackers, tracker ≠ .restore

theorem fetchSub_add_one {counter : Nat} (h : 0 < counter) : fetchSub counter + 1 = counter := by
  rw [fetchSub, if_neg (Nat.ne_of_gt h)]
  omega

/-- A permit that is given back. -/
theorem count_release (permit : Option Nat) (released : List Nat) (p : Nat) :
    (permit.toList ++ released).count p =
      released.count p + (decide (permit = some p)).toNat := by
  cases permit with
  | none => simp
  | some held => by_cases hSame : held = p <;> simp [hSame]

/-- A step of one guard, by what it takes over from the guard. -/
theorem accounted_of_guard {s s' : ConnectionActivity} {guard : Nat} {old new : GuardPc}
    (h : s.Accounted) (hOld : s.guards[guard]? = some old)
    (hGuards : s'.guards = s.guards.set guard new)
    (hInFlight : s'.inFlight + old.holdsSlot.toNat = s.inFlight + new.holdsSlot.toNat)
    (hOutstanding : s'.outstanding + old.owesBody.toNat + s.bodies.countP BodyPc.holdsSlot =
      s.outstanding + new.owesBody.toNat + s'.bodies.countP BodyPc.holdsSlot)
    (hCompleted : s'.completed + new.owesCount.toNat + s.finishCalls =
      s.completed + old.owesCount.toNat + s'.finishCalls)
    (hPermits : ∀ permit, s'.released.count permit + (decide (new.permit = some permit)).toNat +
        s.acquiredOnce permit =
      s.released.count permit + (decide (old.permit = some permit)).toNat +
        s'.acquiredOnce permit)
    (hDeferred : s'.deferred = s.deferred) (hTrackers : s'.trackers = s.trackers)
    (hBodies : ∀ body ∈ s'.bodies, body.restores = false)
    (hPositive : s'.decrementedAtZero = false) : s'.Accounted := by
  have hCount : ∀ p : GuardPc → Bool, s'.guards.countP p + (p old).toNat =
      s.guards.countP p + (p new).toNat := by
    intro p
    rw [hGuards]
    exact countP_set_add hOld p
  refine ⟨?_, ?_, ?_, ?_, ?_, hPositive, hBodies, ?_⟩
  · have hSlots := hCount GuardPc.holdsSlot
    have hBefore := h.inFlight
    omega
  · have hOwed := hCount GuardPc.owesBody
    have hBefore := h.outstanding
    omega
  · rw [hDeferred, hTrackers]
    exact h.deferred
  · have hOwed := hCount GuardPc.owesCount
    have hBefore := h.completed
    omega
  · intro permit
    have hHeld := hCount fun guard => guard.permit = some permit
    have hBefore := h.permits permit
    have hChange := hPermits permit
    omega
  · rw [hTrackers]
    exact h.noTrackerRestore

/-- A step of one body, by what it takes over from the body. -/
theorem accounted_of_body {s s' : ConnectionActivity} {body : Nat} {old new : BodyPc}
    (h : s.Accounted) (hOld : s.bodies[body]? = some old)
    (hState : s' = { s.setBody body new with outstanding := s'.outstanding })
    (hOutstanding : s'.outstanding + old.holdsSlot.toNat = s.outstanding + new.holdsSlot.toNat)
    (hNew : new.restores = false) : s'.Accounted := by
  rw [hState]
  refine ⟨h.inFlight, ?_, h.deferred, h.completed, h.permits, h.positive, ?_, h.noTrackerRestore⟩
  · have hSlots : (s.bodies.set body new).countP BodyPc.holdsSlot + old.holdsSlot.toNat =
        s.bodies.countP BodyPc.holdsSlot + new.holdsSlot.toNat :=
      countP_set_add hOld BodyPc.holdsSlot
    have hBefore := h.outstanding
    simp only [setBody]
    omega
  · exact forall_mem_set h.noRestore hNew

theorem accounted_finishBody {s : ConnectionActivity} {body : Nat} {done : Bool} (h : s.Accounted)
    (hOld : s.bodies[body]? = some (.live done)) (dropping : Bool) :
    (s.finishBody body done dropping).Accounted := by
  cases done with
  | false => exact accounted_of_body h hOld rfl rfl rfl
  | true => cases dropping <;> exact accounted_of_body h hOld rfl rfl rfl

/-- A step of one tracker, by what it takes over from the tracker. -/
theorem accounted_of_tracker {s s' : ConnectionActivity} {tracker : Nat} {old : TrackerPc}
    (new : TrackerPc) (h : s.Accounted) (hOld : s.trackers[tracker]? = some old)
    (hState : s' = { s.setTracker tracker new with deferred := s'.deferred })
    (hDeferred : s'.deferred + old.unfinished.toNat = s.deferred + new.unfinished.toNat)
    (hNew : new ≠ .restore) : s'.Accounted := by
  rw [hState]
  refine ⟨h.inFlight, h.outstanding, ?_, h.completed, h.permits, h.positive, h.noRestore, ?_⟩
  · have hSlots : (s.trackers.set tracker new).countP TrackerPc.unfinished +
        old.unfinished.toNat = s.trackers.countP TrackerPc.unfinished + new.unfinished.toNat :=
      countP_set_add hOld TrackerPc.unfinished
    have hBefore := h.deferred
    simp only [setTracker]
    omega
  · exact forall_mem_set h.noTrackerRestore hNew

theorem accounted_stepGuard {s s' : ConnectionActivity} {guard : Nat} (h : s.Accounted)
    (hStep : s.stepGuard guard = some s') : s'.Accounted := by
  -- a guard that holds its slot is counted, so the counter is not zero
  have hCounted : ∀ old, s.guards[guard]? = some old → old.holdsSlot = true → 0 < s.inFlight := by
    intro old hOld hSlot
    rw [h.inFlight]
    exact countP_pos_of_getElem? hOld hSlot
  unfold stepGuard at hStep
  split at hStep <;> cases hStep <;> rename_i hOld
  · refine accounted_of_guard h hOld rfl rfl rfl rfl ?_ rfl rfl h.noRestore h.positive
    exact fun p => congrArg (· + s.acquiredOnce p) (count_release _ s.released p)
  · have hPos := hCounted _ hOld rfl
    refine accounted_of_guard h hOld rfl ?_ rfl rfl (fun _ => rfl) rfl rfl h.noRestore ?_
    · exact fetchSub_add_one hPos
    · simp [setGuard, requestFinished, h.positive, Nat.ne_of_gt hPos]
  · refine accounted_of_guard h hOld rfl rfl rfl ?_ (fun _ => rfl) rfl rfl h.noRestore h.positive
    simp [GuardPc.owesCount, setGuard]
  · exact accounted_of_guard h hOld rfl rfl (by simp [GuardPc.owesBody, setGuard]) rfl
      (fun _ => rfl) rfl rfl h.noRestore h.positive
  · refine accounted_of_guard h hOld rfl rfl ?_ rfl (fun _ => rfl) rfl rfl ?_ h.positive
    · simp [GuardPc.owesBody, BodyPc.holdsSlot, setGuard]
      omega
    · intro body hBody
      rcases List.mem_append.mp hBody with hBody | hBody
      · exact h.noRestore body hBody
      · rw [List.mem_singleton.mp hBody]
        rfl
  · refine accounted_of_guard h hOld rfl rfl rfl rfl ?_ rfl rfl h.noRestore h.positive
    exact fun p => congrArg (· + s.acquiredOnce p) (count_release _ s.released p)
  · have hPos := hCounted _ hOld rfl
    refine accounted_of_guard h hOld rfl ?_ rfl rfl (fun _ => rfl) rfl rfl h.noRestore ?_
    · exact fetchSub_add_one hPos
    · simp [setGuard, requestFinished, h.positive, Nat.ne_of_gt hPos]

theorem accounted_stepBody {s s' : ConnectionActivity} {body : Nat} (h : s.Accounted)
    (hStep : s.stepBody body = some s') : s'.Accounted := by
  unfold stepBody at hStep
  split at hStep <;> cases hStep <;> rename_i dropping hOld
  · have hPos : 0 < s.outstanding := by
      rw [h.outstanding]
      exact Nat.add_pos_right _ (countP_pos_of_getElem? hOld rfl)
    have hNonzero : s.outstanding ≠ 0 := Nat.ne_of_gt hPos
    rw [if_neg hNonzero]
    refine accounted_of_body h hOld ?_ ?_ (BodyPc.restores_after dropping)
    · simp [hNonzero, setBody]
    · rw [BodyPc.holdsSlot_after]
      exact fetchSub_add_one hPos
  · exact absurd (h.noRestore _ (List.mem_of_getElem? hOld)) (by simp [BodyPc.restores])

theorem accounted_stepTracker {s s' : ConnectionActivity} {tracker : Nat} (h : s.Accounted)
    (hStep : s.stepTracker tracker = some s') : s'.Accounted := by
  unfold stepTracker at hStep
  split at hStep <;> cases hStep <;> rename_i hOld
  · exact accounted_of_tracker .waiting h hOld rfl rfl (by simp)
  · exact accounted_of_tracker .sub h hOld rfl rfl (by simp)
  · have hPos : 0 < s.deferred := by
      rw [h.deferred]
      exact countP_pos_of_getElem? hOld rfl
    have hNonzero : s.deferred ≠ 0 := Nat.ne_of_gt hPos
    rw [if_neg hNonzero]
    refine accounted_of_tracker .finished h hOld ?_ (fetchSub_add_one hPos) (by simp)
    simp [hNonzero, setTracker]
  · exact absurd rfl (h.noTrackerRestore _ (List.mem_of_getElem? hOld))

theorem accounted_newGuard {s : ConnectionActivity} (h : s.Accounted) :
    Accounted { s with inFlight := s.inFlight + 1, guards := s.guards ++ [.live none] } where
  inFlight := by simp [h.inFlight, GuardPc.holdsSlot]
  outstanding := by simp [h.outstanding, GuardPc.owesBody]
  deferred := h.deferred
  completed := by simpa [GuardPc.owesCount] using h.completed
  permits permit := by simpa [GuardPc.permit, acquiredOnce] using h.permits permit
  positive := h.positive
  noRestore := h.noRestore
  noTrackerRestore := h.noTrackerRestore

theorem accounted_admission {s : ConnectionActivity} {guard : Nat} {permit : Option Nat}
    (h : s.Accounted) (hOld : s.guards[guard]? = some (.live permit)) :
    Accounted { s.setGuard guard (.live (some s.acquired)) with
      acquired := s.acquired + 1
      released := permit.toList ++ s.released } := by
  refine accounted_of_guard h hOld rfl rfl rfl rfl ?_ rfl rfl h.noRestore h.positive
  intro p
  have hReleased := count_release permit s.released p
  have hNew : (decide (some s.acquired = some p)).toNat + s.acquiredOnce p =
      if p < s.acquired + 1 then 1 else 0 := by
    unfold acquiredOnce
    rcases Nat.lt_trichotomy p s.acquired with hLess | rfl | hMore
    · simp [hLess, Nat.ne_of_gt hLess, Nat.lt_succ_of_lt hLess]
    · simp
    · have hAbove : ¬p < s.acquired + 1 := by omega
      simp only [Nat.not_lt_of_gt hMore, hAbove, Option.some.injEq, Nat.ne_of_lt hMore]
      rfl
  change (permit.toList ++ s.released).count p + (decide (some s.acquired = some p)).toNat +
    s.acquiredOnce p = s.released.count p + (decide (permit = some p)).toNat +
      if p < s.acquired + 1 then 1 else 0
  rw [hReleased, Nat.add_assoc, hNew]

theorem accounted_step {s s' : ConnectionActivity} {action : ActivityAction} (h : s.Accounted)
    (hStep : s.step action = some s') : s'.Accounted := by
  cases action with
  | newGuard =>
      obtain rfl := Option.some.inj hStep
      exact accounted_newGuard h
  | admission guard permitted =>
      simp only [step] at hStep
      split at hStep
      · rename_i permit hOld
        cases permitted <;> obtain rfl := Option.some.inj hStep
        · exact h
        · exact accounted_admission h hOld
      · cases hStep
  | finish guard =>
      simp only [step] at hStep
      split at hStep <;> cases hStep
      rename_i permit hOld
      refine accounted_of_guard h hOld rfl rfl rfl ?_ (fun _ => rfl) rfl rfl h.noRestore h.positive
      simp [GuardPc.owesCount, setGuard]
      omega
  | dropGuard guard =>
      simp only [step] at hStep
      split at hStep <;> cases hStep
      rename_i permit hOld
      exact accounted_of_guard h hOld rfl rfl rfl rfl (fun _ => rfl) rfl rfl h.noRestore h.positive
  | guard guard => exact accounted_stepGuard h hStep
  | poll body result =>
      simp only [step] at hStep
      split at hStep
      · rename_i done hOld
        cases result <;> obtain rfl := Option.some.inj hStep
        · exact h
        · exact h
        · exact accounted_finishBody h hOld false
        · exact accounted_finishBody h hOld false
      · cases hStep
  | dropBody body =>
      simp only [step] at hStep
      split at hStep <;> cases hStep
      rename_i done hOld
      exact accounted_finishBody h hOld true
  | body body => exact accounted_stepBody h hStep
  | deferredStarted =>
      obtain rfl := Option.some.inj hStep
      refine ⟨h.inFlight, h.outstanding, ?_, h.completed, h.permits, h.positive, h.noRestore, ?_⟩
      · simp [h.deferred, TrackerPc.unfinished]
      · intro tracker hTracker
        rcases List.mem_append.mp hTracker with hTracker | hTracker
        · exact h.noTrackerRestore tracker hTracker
        · rw [List.mem_singleton.mp hTracker]
          simp
  | tracker tracker => exact accounted_stepTracker h hStep

theorem accounted_of_reachable {s : ConnectionActivity} (hReach : machine.Reachable s) :
    s.Accounted := by
  refine Machine.ReachableUnder.invariant ?_ ?_ hReach
  · rintro _ rfl
    exact ⟨rfl, rfl, rfl, rfl, fun _ => rfl, rfl, by simp [new], by simp [new]⟩
  · exact fun _ _ _ h _ hStep => accounted_step h hStep

/-- The counters between the calls on the objects they count. -/
structure ExactAtRest (s : ConnectionActivity) : Prop where
  inFlight : (∀ guard ∈ s.guards, guard.resting = true) →
    s.inFlight = s.guards.countP GuardPc.unfinished
  outstanding : (∀ guard ∈ s.guards, guard.resting = true) →
    (∀ body ∈ s.bodies, body.resting = true) → s.outstanding = s.bodies.countP BodyPc.undone
  deferred : s.deferred = s.trackers.countP TrackerPc.unfinished
  completed : (∀ guard ∈ s.guards, guard.resting = true) → s.completed = s.finishCalls
  gone : (∀ guard ∈ s.guards, guard = .gone) → (∀ body ∈ s.bodies, body = .gone) →
    (∀ tracker ∈ s.trackers, tracker = .finished) →
    s.inFlight = 0 ∧ s.outstanding = 0 ∧ s.deferred = 0 ∧
      ∀ permit < s.acquired, s.released.count permit = 1

theorem GuardPc.owes_of_resting {guard : GuardPc} (h : guard.resting = true) :
    guard.holdsSlot = guard.unfinished ∧ guard.owesBody = false ∧ guard.owesCount = false := by
  cases guard <;> first | exact ⟨rfl, rfl, rfl⟩ | cases h

theorem BodyPc.holdsSlot_of_resting {body : BodyPc} (h : body.resting = true) :
    body.holdsSlot = body.undone := by
  cases body <;> first | rfl | cases h

theorem Accounted.exactAtRest {s : ConnectionActivity} (h : s.Accounted) : s.ExactAtRest := by
  have hNoBodyOwed : (∀ guard ∈ s.guards, guard.resting = true) →
      s.guards.countP GuardPc.owesBody = 0 := by
    intro hRest
    rw [List.countP_eq_zero]
    intro guard hGuard
    simp [(GuardPc.owes_of_resting (hRest guard hGuard)).2.1]
  refine ⟨?_, ?_, h.deferred, ?_, ?_⟩
  · intro hRest
    rw [h.inFlight]
    refine List.countP_congr fun guard hGuard => ?_
    rw [(GuardPc.owes_of_resting (hRest guard hGuard)).1]
  · intro hRest hBodies
    rw [h.outstanding, hNoBodyOwed hRest, Nat.zero_add]
    refine List.countP_congr fun body hBody => ?_
    rw [BodyPc.holdsSlot_of_resting (hBodies body hBody)]
  · intro hRest
    have hNone : s.guards.countP GuardPc.owesCount = 0 := by
      rw [List.countP_eq_zero]
      intro guard hGuard
      simp [(GuardPc.owes_of_resting (hRest guard hGuard)).2.2]
    rw [← h.completed, hNone, Nat.add_zero]
  · intro hGuards hBodies hTrackers
    have hNobody : ∀ p : GuardPc → Bool, p .gone = false → s.guards.countP p = 0 := by
      intro p hGone
      rw [List.countP_eq_zero]
      intro guard hGuard
      simp [hGuards guard hGuard, hGone]
    refine ⟨?_, ?_, ?_, ?_⟩
    · rw [h.inFlight, hNobody _ rfl]
    · rw [h.outstanding, hNobody _ rfl, Nat.zero_add, List.countP_eq_zero]
      intro body hBody
      simp [hBodies body hBody, BodyPc.holdsSlot]
    · rw [h.deferred, List.countP_eq_zero]
      intro tracker hTracker
      simp [hTrackers tracker hTracker, TrackerPc.unfinished]
    · intro permit hAcquired
      have hPermit := h.permits permit
      rw [hNobody _ rfl, acquiredOnce, if_pos hAcquired] at hPermit
      exact hPermit

end ConnectionActivity

/-- In every state of every run the counters account for every object, no
counter was decremented at zero, and each acquired permit is either held by one
guard or was released once. Between calls the counters are the numbers of
unfinished guards, of bodies whose flag is not set, of unfinished trackers and
of calls of `finish`, and nothing is left once everything is gone. -/
theorem connection_accounting_exact (s : ConnectionActivity)
    (hReach : ConnectionActivity.machine.Reachable s) : s.Accounted ∧ s.ExactAtRest :=
  have h := ConnectionActivity.accounted_of_reachable hReach
  ⟨h, h.exactAtRest⟩

/-- An admitted request whose body is deferred past its response. -/
def deferredRun : List ActivityAction :=
  [.newGuard, .admission 0 true, .deferredStarted, .tracker 0, .finish 0, .guard 0, .guard 0,
    .guard 0, .guard 0, .guard 0, .poll 0 .frame, .poll 0 .finished, .body 0]

/-- Its response is sent, and the tracker still waits. -/
theorem connection_accounting_exact_deferred :
    ∃ s, ConnectionActivity.machine.run (fun _ _ => True) .new deferredRun = some s ∧
      s.inFlight = 0 ∧ s.outstanding = 0 ∧ s.deferred = 1 ∧ s.completed = 1 ∧ s.released = [0] ∧
      s.Accounted ∧ s.ExactAtRest := by
  have hRun : ConnectionActivity.machine.run (fun _ _ => True) .new deferredRun =
      some ⟨0, 0, 1, 1, [.gone], [.live true], [.waiting], 1, [0], 1, false⟩ := rfl
  have hStart : ConnectionActivity.machine.Reachable .new := .start rfl
  exact ⟨_, hRun, rfl, rfl, rfl, rfl, rfl, connection_accounting_exact _ (hStart.run hRun)⟩

end Eggserve.Server
