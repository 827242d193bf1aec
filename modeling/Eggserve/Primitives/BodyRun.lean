import Eggserve.Primitives.BodyConsumers
import Eggserve.Transition.Machine

/-! Runs of a network body. Its two consumers may be mixed, the transport fills
the trailer slot and a watchdog fails the lifecycle, in any order. -/
namespace Eggserve.Primitives
open Rust Transition

namespace RequestBody

def fromIncomingWithShared (stream : List StreamPoll) (declaredLength : Option Nat)
    (maxBytes : Nat) (shared : RequestShared) : RequestBody :=
  fromIncomingWithSharedAndWireSlot stream declaredLength maxBytes shared none

def fromIncoming (stream : List StreamPoll) (declaredLength : Option Nat) (maxBytes : Nat) :
    RequestBody :=
  fromIncomingWithShared stream declaredLength maxBytes {}

def setTrailers (body : RequestBody) (trailers : Trailers) : RequestBody :=
  { body with completedTrailers := some trailers }

/-- The trailers are there once the content is complete. -/
def trailers (body : RequestBody) : Except RequestBodyError (Option Trailers) :=
  match body.completedTrailerError with
  | some message => .error (.invalidTrailers message)
  | none => if body.state ≠ .complete then .error .trailersNotReady else .ok body.completedTrailers

def takeCompletedTrailers (body : RequestBody) : Option Trailers × RequestBody :=
  if body.state ≠ .complete then (none, body)
  else if body.completedTrailerError.isSome then (none, body)
  else (body.completedTrailers, { body with completedTrailers := none })

/-- One poll of the future of `next_chunk`; `none` is pending. A future that is
polled again continues at the stream. A future that is dropped leaves the body
as its last poll left it. -/
def pollNextChunk (body : RequestBody) :
    Option (Except RequestBodyError (Option (List UInt8))) × RequestBody :=
  match body.inner with
  | some (.incoming (.pending :: rest)) =>
      if body.state = .error ∨ body.state = .complete then (some body.nextChunk.1, body.nextChunk.2)
      else (none, { body with state := .streaming, inner := some (.incoming rest) })
  | _ => (some body.nextChunk.1, body.nextChunk.2)

/-- The awaited call is the future polled until it is ready. -/
theorem nextChunk_of_pollNextChunk_pending {body after : RequestBody}
    (h : body.pollNextChunk = (none, after)) : body.nextChunk = after.nextChunk := by
  unfold pollNextChunk at h
  split at h
  · rename_i rest hInner
    split at h
    · cases h
    · rename_i hLive
      obtain ⟨-, rfl⟩ := Prod.mk.inj h
      rw [not_or] at hLive
      unfold nextChunk
      rw [if_neg hLive.1, if_neg hLive.2]
      cases hState : body.state <;> simp_all [awaitNext]
  · cases h

theorem nextChunk_of_pollNextChunk_ready {body after : RequestBody}
    {answer : Except RequestBodyError (Option (List UInt8))}
    (h : body.pollNextChunk = (some answer, after)) : body.nextChunk = (answer, after) := by
  unfold pollNextChunk at h
  split at h
  · split at h
    · obtain ⟨hAnswer, hAfter⟩ := Prod.mk.inj h
      rw [← Option.some.inj hAnswer, ← hAfter]
    · cases h
  · obtain ⟨hAnswer, hAfter⟩ := Prod.mk.inj h
    rw [← Option.some.inj hAnswer, ← hAfter]

end RequestBody

/-! Runs. -/

/-- What a consumer, an adapter, the transport or a watchdog does. -/
inductive BodyOp where
  | nextChunk
  | pollNext
  | setTrailers (trailers : Trailers)
  | trailers
  | takeCompletedTrailers
  | fillSlot (wire : Except Str HeaderBlock)
  | markFailed (reason : RequestCancellationReason)

/-- The slot and the trailers as they were when the stream ended. -/
structure StreamEnd where
  wire : WireTrailerSlot
  previous : Option Trailers

/-- A body with the history of its run: the octets handed out so far, and what
the consumer found at the end of the stream. -/
structure BodyRun where
  body : RequestBody
  handedOut : Nat
  streamEnd : Option StreamEnd

/-- The octets in the answer of a consumer. -/
def chunkLength : Option (Except RequestBodyError (Option (List UInt8))) → Nat
  | some (.ok (some chunk)) => chunk.length
  | _ => 0

def polledLength : RequestBody.BodyPoll → Nat
  | .ready (some (.ok chunk)) => chunk.length
  | _ => 0

namespace BodyRun

def start (body : RequestBody) : BodyRun where
  body := body
  handedOut := 0
  streamEnd := none

/-- What a consumer finds if it meets the end of the stream now. -/
def meetEnd (run : BodyRun) : Option StreamEnd :=
  if run.body.state = .complete ∨ run.body.state = .error then run.streamEnd
  else
    match run.body.inner with
    | some (.incoming []) => some ⟨run.body.wireSlot.getD none, run.body.completedTrailers⟩
    | _ => run.streamEnd

def step (run : BodyRun) : BodyOp → BodyRun
  | .nextChunk =>
      let (answer, body) := run.body.pollNextChunk
      ⟨body, run.handedOut + chunkLength answer, run.meetEnd⟩
  | .pollNext =>
      let (answer, body) := run.body.pollNext
      ⟨body, run.handedOut + polledLength answer, run.meetEnd⟩
  | .setTrailers trailers => { run with body := run.body.setTrailers trailers }
  | .trailers => run
  | .takeCompletedTrailers => { run with body := run.body.takeCompletedTrailers.2 }
  | .fillSlot wire => { run with body := { run.body with wireSlot := some (some wire) } }
  | .markFailed reason =>
      { run with body := { run.body with shared := run.body.shared.markFailedWithReason reason } }

def run (start : BodyRun) (ops : List BodyOp) : BodyRun := ops.foldl step start

end BodyRun

/-! What one call of a consumer can do. -/

/-- A body on the network: it owns its stream and shares a slot with the transport. -/
structure RequestBody.Network (body : RequestBody) : Prop where
  incoming : ∃ stream, body.inner = some (.incoming stream)
  slot : body.wireSlot.isSome = true

/-- Trailers found at the end are valid, and they are the only block. -/
def StreamEnd.Accepted (found : StreamEnd) (limits : TrailerLimits) : Prop :=
  ∀ wire, found.wire = some wire → found.previous = none ∧
    ∃ block trailers, wire = .ok block ∧ Trailers.withLimits block limits = .ok trailers

inductive ConsumerEffect (body : RequestBody) : Nat → RequestBody → Prop where
  | closed (hClosed : ¬body.state.Live) : ConsumerEffect body 0 body
  | waited (stream : List StreamPoll) (state : BodyState) (hLive : body.state.Live)
      (hState : state.Live) :
      ConsumerEffect body 0 { body with inner := some (.incoming stream), state }
  | received (stream : List StreamPoll) (state : BodyState) (length : Nat)
      (hLive : body.state.Live) (hState : state.Live)
      (hMax : body.bytesReceived + length ≤ body.maxBytes)
      (hDeclared : ∀ declared, body.declaredLength = some declared →
        body.bytesReceived + length ≤ declared) :
      ConsumerEffect body length { body with
        inner := some (.incoming stream)
        state
        bytesReceived := body.bytesReceived + length }
  | failed (stream : List StreamPoll) (wire : WireTrailerSlot) (trailerError : Option Str)
      (hLive : body.state.Live) :
      ConsumerEffect body 0 { body with
        inner := some (.incoming stream)
        wireSlot := some wire
        completedTrailerError := trailerError
        state := .error
        shared := body.shared.markFailed }
  | completed (trailers : Option Trailers) (hLive : body.state.Live)
      (hEnd : body.inner = some (.incoming []))
      (hDeclared : ∀ declared, body.declaredLength = some declared →
        declared ≤ body.bytesReceived)
      (hAccepted : StreamEnd.Accepted ⟨body.wireSlot.getD none, body.completedTrailers⟩
        body.trailerLimits) :
      ConsumerEffect body 0 { body with
        wireSlot := some none
        completedTrailers := trailers
        state := .complete
        shared := body.shared.markComplete }

namespace RequestBody

theorem checkEof_eq_ok {body : RequestBody} (h : body.checkEof = .ok ()) :
    ∀ declared, body.declaredLength = some declared → declared ≤ body.bytesReceived := by
  intro declared hDeclared
  unfold checkEof at h
  rw [hDeclared] at h
  simp only at h
  split at h
  · cases h
  · rename_i hLength
    exact Nat.le_of_not_lt hLength

/-- What the slot held when it was drained. -/
theorem drainAndValidateWireSlot_eq_ok {wire : WireTrailerSlot} {limits : TrailerLimits}
    {result : Option Trailers} (h : drainAndValidateWireSlot wire limits = .ok result) :
    (wire = none ∧ result = none) ∨
      ∃ block trailers, wire = some (.ok block) ∧ result = some trailers ∧
        Trailers.withLimits block limits = .ok trailers := by
  unfold drainAndValidateWireSlot at h
  split at h
  · exact .inl ⟨rfl, (Except.ok.inj h).symm⟩
  · cases h
  · rename_i block
    split at h
    · rename_i trailers hLimits
      exact .inr ⟨block, trailers, rfl, (Except.ok.inj h).symm, hLimits⟩
    · cases h

theorem not_live {state : BodyState} :
    ¬state.Live ↔ state = .complete ∨ state = .error := by
  cases state <;> simp [BodyState.Live]

theorem pollNextChunk_closed {body : RequestBody}
    (hClosed : body.state = .complete ∨ body.state = .error) :
    body.pollNextChunk =
      (some (if body.state = .error then .error .alreadyConsumed else .ok none), body) := by
  have hNext : body.nextChunk =
      (if body.state = .error then .error .alreadyConsumed else .ok none, body) := by
    rcases hClosed with hState | hState <;> simp [nextChunk, hState]
  unfold pollNextChunk
  split
  · rw [if_pos hClosed.symm, hNext]
  · rw [hNext]

section Effects

variable {body : RequestBody} {wire : WireTrailerSlot}

theorem accepted_of_drained {wire : WireTrailerSlot} {previous : Option Trailers}
    {limits : TrailerLimits} {result : Option Trailers}
    (hDrain : drainAndValidateWireSlot wire limits = .ok result)
    (hFirst : result.isSome = true → previous = none) :
    StreamEnd.Accepted ⟨wire, previous⟩ limits := by
  intro content hContent
  rcases drainAndValidateWireSlot_eq_ok hDrain with ⟨rfl, -⟩ | ⟨block, trailers, rfl, rfl, hValid⟩
  · cases hContent
  · exact ⟨hFirst rfl, block, trailers, (Option.some.inj hContent).symm, hValid⟩

/-- The end of the stream, as `next_chunk` finishes the body. -/
theorem completeWith_effect {α : Type} (value : α) (state : BodyState) (hLive : body.state.Live)
    (hEnd : body.inner = some (.incoming [])) (hSlot : body.wireSlot = some wire)
    (hEof : body.checkEof = .ok ()) :
    ConsumerEffect body 0 (({ body with state } : RequestBody).completeWith value).2 := by
  have hDeclared := checkEof_eq_ok hEof
  obtain ⟨inner, declaredLength, received, old, maxBytes, shared, limits, completed, message,
    slot⟩ := body
  simp only at hEnd hSlot hLive hDeclared
  subst hEnd hSlot
  simp only [completeWith, finalizeTrailers]
  cases hDrain : drainAndValidateWireSlot wire limits with
  | error text => exact .failed [] none (some text) hLive
  | ok result =>
      cases result with
      | none =>
          exact .completed completed hLive rfl hDeclared
            (accepted_of_drained hDrain (fun h => by cases h))
      | some trailers =>
          cases completed with
          | some previous => exact .failed [] none (some repeatedTrailerBlock) hLive
          | none =>
              exact .completed (some trailers) hLive rfl hDeclared
                (accepted_of_drained hDrain (fun _ => rfl))

/-- `poll_next` leaves the same body behind. -/
theorem pollEnd_eq_completeWith {α : Type} (value : α) (state : BodyState)
    (hSlot : body.wireSlot = some wire) :
    body.pollEnd.2 = (({ body with state } : RequestBody).completeWith value).2 := by
  obtain ⟨inner, declaredLength, received, old, maxBytes, shared, limits, completed, message,
    slot⟩ := body
  simp only at hSlot
  subst hSlot
  simp only [pollEnd, completeWith, finalizeTrailers, Option.getD_some]
  cases drainAndValidateWireSlot wire limits with
  | error text => rfl
  | ok result =>
      cases result with
      | none => rfl
      | some trailers => cases completed <;> rfl

theorem polledLength_pollEnd : polledLength body.pollEnd.1 = 0 := by
  rcases body.pollEnd_cases with ⟨after, hEnd, -⟩ | ⟨e, after, hEnd, -⟩ <;>
    rw [hEnd] <;> rfl

theorem chunkLength_completeWith_none (body : RequestBody) :
    chunkLength (some (body.completeWith (none : Option (List UInt8))).1) = 0 := by
  unfold completeWith
  split <;> rfl

/-- A call of `next_chunk` that does not have to wait. -/
theorem nextChunk_effect {stream : List StreamPoll} (hLive : body.state.Live)
    (hInner : body.inner = some (.incoming stream)) (hSlot : body.wireSlot = some wire)
    (hReady : stream.head? ≠ some .pending) :
    ConsumerEffect body (chunkLength (some body.nextChunk.1)) body.nextChunk.2 := by
  have hOpen : body.state ≠ .error ∧ body.state ≠ .complete := by
    rcases hLive with hState | hState <;> simp [hState]
  have hReading : (if body.state = .unread then { body with state := .streaming } else body) =
      { body with state := .streaming } := by
    rcases hLive with hState | hState
    · rw [if_pos hState]
    · rw [if_neg (by simp [hState]), ← hState]
  have hStreaming : BodyState.Live .streaming := .inr rfl
  rw [nextChunk, if_neg hOpen.1, if_neg hOpen.2, hReading]
  obtain ⟨inner, declaredLength, received, old, maxBytes, shared, limits, completed, message,
    slot⟩ := body
  simp only at hInner hSlot
  subst hInner hSlot
  cases stream with
  | nil =>
      simp only [awaitNext]
      split
      · exact .failed [] wire message hLive
      · rename_i hEof
        rw [chunkLength_completeWith_none]
        exact completeWith_effect none .streaming hLive rfl rfl hEof
  | cons answer rest =>
      cases answer with
      | pending => exact absurd rfl hReady
      | error text =>
          exact .failed rest wire message hLive
      | chunk data =>
          simp only [awaitNext]
          split
          · exact .waited rest .streaming hLive hStreaming
          · rename_i total hAdd
            obtain ⟨-, rfl⟩ := enabled_iff.mp hAdd
            split
            · exact .failed rest wire message hLive
            · rename_i hTotal
              obtain ⟨hMax, hDeclared⟩ := checkTotal_eq_ok.mp hTotal
              exact .received rest .streaming data.length hLive hStreaming hMax hDeclared

/-- One poll of the future of `next_chunk`. -/
theorem pollNextChunk_effect (hNetwork : body.Network) :
    ConsumerEffect body (chunkLength body.pollNextChunk.1) body.pollNextChunk.2 := by
  obtain ⟨⟨stream, hInner⟩, hSome⟩ := hNetwork
  obtain ⟨wire, hSlot⟩ := Option.isSome_iff_exists.mp hSome
  by_cases hLive : body.state.Live
  · cases stream with
    | nil =>
        simp only [pollNextChunk, hInner]
        exact nextChunk_effect hLive hInner hSlot (by simp)
    | cons answer rest =>
        cases answer with
        | pending =>
            have hOpen : ¬(body.state = .error ∨ body.state = .complete) := by
              rcases hLive with hState | hState <;> simp [hState]
            simp only [pollNextChunk, hInner, if_neg hOpen]
            exact .waited rest .streaming hLive (.inr rfl)
        | error text =>
            simp only [pollNextChunk, hInner]
            exact nextChunk_effect hLive hInner hSlot (by simp)
        | chunk data =>
            simp only [pollNextChunk, hInner]
            exact nextChunk_effect hLive hInner hSlot (by simp)
  · have hClosed := not_live.mp hLive
    have hNone : chunkLength (some (if body.state = .error then .error .alreadyConsumed
        else .ok none)) = 0 := by
      split <;> rfl
    rw [pollNextChunk_closed hClosed, hNone]
    exact .closed hLive

/-- One poll of the body as a stream. -/
theorem pollNext_effect (hNetwork : body.Network) :
    ConsumerEffect body (polledLength body.pollNext.1) body.pollNext.2 := by
  obtain ⟨⟨stream, hInner⟩, hSome⟩ := hNetwork
  obtain ⟨wire, hSlot⟩ := Option.isSome_iff_exists.mp hSome
  by_cases hLive : body.state.Live
  · have hOpen : ¬(body.state = .complete ∨ body.state = .error) := by
      rcases hLive with hState | hState <;> simp [hState]
    rw [pollNext, if_neg hOpen]
    obtain ⟨inner, declaredLength, received, old, maxBytes, shared, limits, completed, message,
      slot⟩ := body
    simp only at hInner hSlot
    subst hInner hSlot
    cases stream with
    | nil =>
        simp only
        split
        · exact .failed [] wire message hLive
        · rename_i hEof
          rw [polledLength_pollEnd, pollEnd_eq_completeWith () .streaming rfl]
          exact completeWith_effect () .streaming hLive rfl rfl hEof
    | cons answer rest =>
        cases answer with
        | pending => exact .waited rest old hLive hLive
        | error text => exact .failed rest wire message hLive
        | chunk data =>
            simp only
            split
            · exact .failed rest wire message hLive
            · rename_i total hAdd
              obtain ⟨-, rfl⟩ := enabled_iff.mp hAdd
              split
              · exact .failed rest wire message hLive
              · rename_i hTotal
                obtain ⟨hMax, hDeclared⟩ := checkTotal_eq_ok.mp hTotal
                simp only [pollChunk, polledLength]
                split
                · exact .received rest .streaming data.length hLive (.inr rfl) hMax hDeclared
                · exact .received rest old data.length hLive hLive hMax hDeclared
  · rw [pollNext, if_pos (not_live.mp hLive)]
    exact .closed hLive

end Effects

end RequestBody

theorem ConsumerEffect.network {body after : RequestBody} {length : Nat}
    (hEffect : ConsumerEffect body length after) (h : body.Network) : after.Network := by
  cases hEffect with
  | closed _ => exact h
  | waited stream _ _ _ => exact ⟨⟨stream, rfl⟩, h.slot⟩
  | received stream _ _ _ _ _ _ => exact ⟨⟨stream, rfl⟩, h.slot⟩
  | failed stream _ _ _ => exact ⟨⟨stream, rfl⟩, rfl⟩
  | completed _ _ _ _ _ => exact ⟨h.incoming, rfl⟩

/-! The invariant of a run. -/

namespace BodyRun

/-- No operation takes the stream or the slot away. -/
theorem network_step {run : BodyRun} (h : run.body.Network) (op : BodyOp) :
    (run.step op).body.Network := by
  cases op with
  | nextChunk => exact (RequestBody.pollNextChunk_effect h).network h
  | pollNext => exact (RequestBody.pollNext_effect h).network h
  | setTrailers trailers => exact ⟨h.incoming, h.slot⟩
  | trailers => exact h
  | takeCompletedTrailers =>
      simp only [step, RequestBody.takeCompletedTrailers]
      split
      · exact h
      · split
        · exact h
        · exact ⟨h.incoming, h.slot⟩
  | fillSlot wire => exact ⟨h.incoming, rfl⟩
  | markFailed reason => exact ⟨h.incoming, h.slot⟩

/-- The body, its counters and its lifecycle agree at every point. -/
structure Consistent (run : BodyRun) : Prop where
  network : run.body.Network
  handedOut : run.handedOut = run.body.bytesReceived
  withinLimit : run.body.bytesReceived ≤ run.body.maxBytes
  withinDeclared : ∀ declared, run.body.declaredLength = some declared →
    run.body.bytesReceived ≤ declared
  declaredReached : run.body.state = .complete → ∀ declared,
    run.body.declaredLength = some declared → run.body.bytesReceived = declared
  trailersAccepted : run.body.state = .complete →
    ∃ found, run.streamEnd = some found ∧ found.Accepted run.body.trailerLimits
  lifecycleComplete : run.body.shared.bodyState = .complete → run.body.state = .complete
  lifecycleFailed : run.body.state = .error → run.body.shared.bodyState = .failed
  notAbandoned : run.body.shared.bodyState ≠ .abandoned

theorem meetEnd_of_closed {run : BodyRun} (h : ¬run.body.state.Live) :
    run.meetEnd = run.streamEnd :=
  if_pos (RequestBody.not_live.mp h)

theorem meetEnd_of_ended {run : BodyRun} (hLive : run.body.state.Live)
    (hEnd : run.body.inner = some (.incoming [])) :
    run.meetEnd = some ⟨run.body.wireSlot.getD none, run.body.completedTrailers⟩ := by
  have hOpen : ¬(run.body.state = .complete ∨ run.body.state = .error) := fun hClosed =>
    RequestBody.not_live.mpr hClosed hLive
  rw [meetEnd, if_neg hOpen, hEnd]

theorem bodyState_failed {shared : RequestShared} (hComplete : shared.bodyState ≠ .complete)
    (hAbandoned : shared.bodyState ≠ .abandoned) (reason : RequestCancellationReason) :
    (shared.markFailedWithReason reason).bodyState = .failed := by
  rw [RequestShared.bodyState_markFailedWithReason]
  cases hState : shared.bodyState with
  | active => rfl
  | failed => rfl
  | complete => exact absurd hState hComplete
  | abandoned => exact absurd hState hAbandoned

/-- While the body is read on, only its counters have to agree. -/
theorem consistent_of_live {run : BodyRun} (hNetwork : run.body.Network)
    (hHandedOut : run.handedOut = run.body.bytesReceived)
    (hLimit : run.body.bytesReceived ≤ run.body.maxBytes)
    (hDeclared : ∀ declared, run.body.declaredLength = some declared →
      run.body.bytesReceived ≤ declared)
    (hLive : run.body.state.Live) (hIncomplete : run.body.shared.bodyState ≠ .complete)
    (hNotAbandoned : run.body.shared.bodyState ≠ .abandoned) : run.Consistent where
  network := hNetwork
  handedOut := hHandedOut
  withinLimit := hLimit
  withinDeclared := hDeclared
  declaredReached hEq := absurd hLive (RequestBody.not_live.mpr (.inl hEq))
  trailersAccepted hEq := absurd hLive (RequestBody.not_live.mpr (.inl hEq))
  lifecycleComplete hShared := absurd hShared hIncomplete
  lifecycleFailed hEq := absurd hLive (RequestBody.not_live.mpr (.inr hEq))
  notAbandoned := hNotAbandoned

/-- A call of a consumer keeps the invariant. -/
theorem Consistent.consume {run : BodyRun} (h : run.Consistent) {length : Nat}
    {after : RequestBody} (hEffect : ConsumerEffect run.body length after) :
    Consistent ⟨after, run.handedOut + length, run.meetEnd⟩ := by
  have hIncomplete : run.body.state.Live → run.body.shared.bodyState ≠ .complete := by
    intro hLive hShared
    exact RequestBody.not_live.mpr (.inl (h.lifecycleComplete hShared)) hLive
  have hNetwork := hEffect.network h.network
  cases hEffect with
  | closed hClosed =>
      rw [meetEnd_of_closed hClosed]
      exact h
  | waited stream state hLive hState =>
      exact consistent_of_live hNetwork h.handedOut h.withinLimit h.withinDeclared hState
        (hIncomplete hLive) h.notAbandoned
  | received stream state length hLive hState hMax hDeclared =>
      exact consistent_of_live hNetwork (congrArg (· + length) h.handedOut) hMax hDeclared hState
        (hIncomplete hLive) h.notAbandoned
  | failed stream wire trailerError hLive =>
      have hFailed : run.body.shared.markFailed.bodyState = .failed :=
        bodyState_failed (hIncomplete hLive) h.notAbandoned .transportFailure
      exact {
        network := hNetwork
        handedOut := h.handedOut
        withinLimit := h.withinLimit
        withinDeclared := h.withinDeclared
        declaredReached := fun hEq => by cases hEq
        trailersAccepted := fun hEq => by cases hEq
        lifecycleComplete := fun hShared => by cases hFailed.symm.trans hShared
        lifecycleFailed := fun _ => hFailed
        notAbandoned := fun hShared => by cases hFailed.symm.trans hShared }
  | completed trailers hLive hEnd hDeclared hAccepted =>
      exact {
        network := hNetwork
        handedOut := h.handedOut
        withinLimit := h.withinLimit
        withinDeclared := h.withinDeclared
        declaredReached := fun _ declared hEq =>
          Nat.le_antisymm (h.withinDeclared declared hEq) (hDeclared declared hEq)
        trailersAccepted := fun _ => ⟨_, meetEnd_of_ended hLive hEnd, hAccepted⟩
        lifecycleComplete := fun _ => rfl
        lifecycleFailed := fun hEq => by cases hEq
        notAbandoned := by
          change (run.body.shared.mark .complete).bodyState ≠ .abandoned
          rw [RequestShared.bodyState_mark]
          split
          · decide
          · exact h.notAbandoned }

/-- Every operation keeps the invariant. -/
theorem Consistent.step {run : BodyRun} (h : run.Consistent) (op : BodyOp) :
    (run.step op).Consistent := by
  have hNetwork := network_step h.network op
  cases op with
  | nextChunk => exact h.consume (RequestBody.pollNextChunk_effect h.network)
  | pollNext => exact h.consume (RequestBody.pollNext_effect h.network)
  | setTrailers trailers =>
      exact { h with network := hNetwork }
  | trailers => exact h
  | takeCompletedTrailers =>
      simp only [BodyRun.step, RequestBody.takeCompletedTrailers]
      split
      · exact h
      · split
        · exact h
        · exact { h with network := ⟨h.network.incoming, h.network.slot⟩ }
  | fillSlot wire =>
      exact { h with network := hNetwork }
  | markFailed reason =>
      have hShared := RequestShared.bodyState_markFailedWithReason run.body.shared reason
      exact { h with
        network := hNetwork
        lifecycleComplete := fun hEq => by
          rw [BodyRun.step, hShared] at hEq
          split at hEq
          · cases hEq
          · exact h.lifecycleComplete hEq
        lifecycleFailed := fun hEq => by
          rw [BodyRun.step, hShared, h.lifecycleFailed hEq]
          rfl
        notAbandoned := by
          rw [BodyRun.step, hShared]
          split
          · decide
          · exact h.notAbandoned }

theorem Consistent.run {start : BodyRun} (h : start.Consistent) (ops : List BodyOp) :
    (start.run ops).Consistent := by
  induction ops generalizing start with
  | nil => exact h
  | cons op rest ih => exact ih (h.step op)

/-- A consumed or failed body stays so, whatever follows. -/
theorem state_step_of_closed {run : BodyRun} (hClosed : ¬run.body.state.Live) (op : BodyOp) :
    (run.step op).body.state = run.body.state := by
  have hState := RequestBody.not_live.mp hClosed
  cases op with
  | nextChunk => simp only [step, RequestBody.pollNextChunk_closed hState]
  | pollNext => simp only [step, RequestBody.pollNext, if_pos hState]
  | setTrailers trailers => rfl
  | trailers => rfl
  | takeCompletedTrailers =>
      simp only [step, RequestBody.takeCompletedTrailers]
      split
      · rfl
      · split <;> rfl
  | fillSlot wire => rfl
  | markFailed reason => rfl

theorem state_run_of_closed {run : BodyRun} (hClosed : ¬run.body.state.Live)
    (ops : List BodyOp) : (run.run ops).body.state = run.body.state := by
  induction ops generalizing run with
  | nil => rfl
  | cons op rest ih =>
      have hStep := state_step_of_closed hClosed op
      have hRest : ((run.step op).run rest).body.state = (run.step op).body.state :=
        ih (by rwa [hStep])
      exact hRest.trans hStep

end BodyRun

/-- The bodies that the runtime builds on a stream from the network. -/
inductive RequestBody.BuiltFromIncoming : RequestBody → Prop where
  | plain (stream : List StreamPoll) (declaredLength : Option Nat) (maxBytes : Nat) :
      BuiltFromIncoming (fromIncoming stream declaredLength maxBytes)
  | withShared (stream : List StreamPoll) (declaredLength : Option Nat) (maxBytes : Nat)
      (shared : RequestShared) :
      BuiltFromIncoming (fromIncomingWithShared stream declaredLength maxBytes shared)
  | withSharedAndWireSlot (stream : List StreamPoll) (declaredLength : Option Nat)
      (maxBytes : Nat) (shared : RequestShared) (wireSlot : WireTrailerSlot) :
      BuiltFromIncoming
        (fromIncomingWithSharedAndWireSlot stream declaredLength maxBytes shared wireSlot)

theorem RequestBody.BuiltFromIncoming.eq {body : RequestBody} (hBuilt : body.BuiltFromIncoming) :
    ∃ stream declaredLength maxBytes shared wireSlot,
      body = fromIncomingWithSharedAndWireSlot stream declaredLength maxBytes shared wireSlot := by
  cases hBuilt with
  | plain => exact ⟨_, _, _, _, _, rfl⟩
  | withShared => exact ⟨_, _, _, _, _, rfl⟩
  | withSharedAndWireSlot => exact ⟨_, _, _, _, _, rfl⟩

theorem RequestBody.BuiltFromIncoming.network {body : RequestBody}
    (hBuilt : body.BuiltFromIncoming) : body.Network := by
  obtain ⟨stream, _, _, _, _, rfl⟩ := hBuilt.eq
  exact ⟨⟨stream, rfl⟩, rfl⟩

theorem BodyRun.consistent_start {body : RequestBody} (hBuilt : body.BuiltFromIncoming)
    (hActive : body.shared.isBodyActive = true) : (BodyRun.start body).Consistent := by
  have hNetwork := hBuilt.network
  obtain ⟨stream, declaredLength, maxBytes, shared, wireSlot, rfl⟩ := hBuilt.eq
  have hShared : shared.bodyState = .active := of_decide_eq_true hActive
  refine BodyRun.consistent_of_live hNetwork rfl (Nat.zero_le _) (fun _ _ => Nat.zero_le _)
    (.inl rfl) (fun hEq => ?_) fun hEq => ?_
  · cases hShared.symm.trans hEq
  · cases hShared.symm.trans hEq

/-- Every run of an active network body keeps the body, its counters, its
trailers and its lifecycle consistent, and a closed body stays closed. -/
theorem network_body_run_consistent (body : RequestBody) (hBuilt : body.BuiltFromIncoming)
    (hActive : body.shared.isBodyActive = true) (ops : List BodyOp) :
    ((BodyRun.start body).run ops).Consistent ∧
      (∀ state, ((BodyRun.start body).run ops).body.state = state →
        state = .complete ∨ state = .error →
        ∀ later, ((BodyRun.start body).run (ops ++ later)).body.state = state) ∧
      ∀ trailers, ((BodyRun.start body).run ops).body.trailers = .ok (some trailers) →
        ((BodyRun.start body).run ops).body.state = .complete := by
  refine ⟨(BodyRun.consistent_start hBuilt hActive).run ops, ?_, ?_⟩
  · rintro state rfl hClosed later
    have hSplit : (BodyRun.start body).run (ops ++ later) =
        ((BodyRun.start body).run ops).run later := List.foldl_append
    rw [hSplit]
    exact BodyRun.state_run_of_closed (RequestBody.not_live.mpr hClosed) later
  · intro trailers hTrailers
    unfold RequestBody.trailers at hTrailers
    split at hTrailers
    · cases hTrailers
    · split at hTrailers
      · cases hTrailers
      · rename_i hState
        exact not_not.mp hState

/-- Two chunks and an empty trailer block, read with both consumers. -/
def mixedOps : List BodyOp := [.nextChunk, .fillSlot (.ok []), .nextChunk, .pollNext, .nextChunk]

theorem network_body_run_consistent_mixed :
    ((BodyRun.start (.fromIncoming [.pending, .chunk [1], .chunk [2]] (some 2) 4)).run
        mixedOps).Consistent ∧
      ((BodyRun.start (.fromIncoming [.pending, .chunk [1], .chunk [2]] (some 2) 4)).run
        mixedOps).body.state = .complete :=
  ⟨(network_body_run_consistent _ (.plain _ _ _) (by decide) mixedOps).1, by decide +kernel⟩

end Eggserve.Primitives
