import Eggserve.Primitives.RequestBody

/-! The ways of draining a request body, and when they agree. -/
namespace Eggserve.Primitives
open Rust

/-- The variant of an error, without its payload. -/
inductive ErrorVariant where
  | limitExceeded
  | prematureEof
  | lengthMismatch
  | alreadyConsumed
  | mixedConsumptionMode
  | transport
  | invalidTrailers
  | trailersNotReady
  deriving DecidableEq, Repr

def RequestBodyError.variant : RequestBodyError → ErrorVariant
  | limitExceeded _ _ => .limitExceeded
  | prematureEof _ _ => .prematureEof
  | lengthMismatch _ _ => .lengthMismatch
  | alreadyConsumed => .alreadyConsumed
  | mixedConsumptionMode => .mixedConsumptionMode
  | transport _ => .transport
  | invalidTrailers _ => .invalidTrailers
  | trailersNotReady => .trailersNotReady

/-- The body is not consumed yet. -/
def BodyState.Live (state : BodyState) : Prop := state = .unread ∨ state = .streaming

namespace RequestBody

/-- A total within the limit and the declared length. -/
def Within (body : RequestBody) (total : Nat) : Prop :=
  total ≤ body.maxBytes ∧ ∀ declared, body.declaredLength = some declared → total ≤ declared

theorem checkTotal_eq_ok {body : RequestBody} {total : Nat} :
    body.checkTotal total = .ok () ↔ body.Within total := by
  unfold checkTotal Within
  cases body.declaredLength with
  | none => simp
  | some declared =>
      by_cases hLimit : total > body.maxBytes
      · simp only [hLimit, ↓reduceIte, reduceCtorEq, false_iff]
        exact fun hWithin => hWithin.1.not_gt hLimit
      · simp only [hLimit, ↓reduceIte]
        split_ifs with hDeclared
        · simp only [false_iff]
          exact fun hWithin => (hWithin.2 declared rfl).not_gt hDeclared
        · exact iff_of_true rfl
            ⟨Nat.not_lt.mp hLimit, fun d hd => Option.some.inj hd ▸ Nat.not_lt.mp hDeclared⟩

/-- A loop over a consuming step until it answers the end or an error. `none`
means that the fuel did not suffice. -/
def drainLoop (step : RequestBody → Except RequestBodyError (Option (List UInt8)) × RequestBody) :
    Nat → RequestBody → Option (Except RequestBodyError (List UInt8) × RequestBody)
  | 0, _ => none
  | fuel + 1, body =>
      match step body with
      | (.error e, body) => some (.error e, body)
      | (.ok none, body) => some (.ok [], body)
      | (.ok (some chunk), body) =>
          (drainLoop step fuel body).map fun (result, body) => (result.map (chunk ++ ·), body)

/-- A bound on the chunks a body can still yield. -/
def size (body : RequestBody) : Nat :=
  match body.inner with
  | some (.incoming stream) => stream.length + 1
  | some (.fixed data offset) => data.length - offset + 1
  | _ => 1

/-- `while let Some(chunk) = body.next_chunk().await?`. -/
def drainNextChunk (body : RequestBody) :
    Option (Except RequestBodyError (List UInt8) × RequestBody) :=
  drainLoop nextChunk body.size body

/-- One poll of a consumer that polls again when the answer is pending. -/
def pollStep (body : RequestBody) : Except RequestBodyError (Option (List UInt8)) × RequestBody :=
  match body.pollNext with
  | (.pending, body) => (.ok (some []), body)
  | (.ready none, body) => (.ok none, body)
  | (.ready (some (.ok chunk)), body) => (.ok (some chunk), body)
  | (.ready (some (.error e)), body) => (.error e, body)

def drainPollNext (body : RequestBody) :
    Option (Except RequestBodyError (List UInt8) × RequestBody) :=
  drainLoop pollStep body.size body

/-- The bytes together with the trailers, collected through `next_chunk`. The
body is consumed, so it is dropped on return. -/
def readAllWithTrailers (body : RequestBody) :
    Option (Except RequestBodyError (List UInt8 × Option Trailers) × RequestBody) :=
  if body.state = .complete ∨ body.state = .error then some (.error .alreadyConsumed, body.drop)
  else if body.state = .streaming then some (.error .mixedConsumptionMode, body.drop)
  else if body.inner = none then some (.error .alreadyConsumed, body.drop)
  else
    body.drainNextChunk.map fun (result, body) =>
      match result with
      | .error e => (.error e, body.drop)
      | .ok bytes =>
          match body.completedTrailerError with
          | some message => (.error (.invalidTrailers message), body.drop)
          | none => (.ok (bytes, body.completedTrailers), body.drop)

/-- What a consumer leaves behind. -/
structure Drained where
  result : Except RequestBodyError (List UInt8)
  state : BodyState
  shared : RequestShared
  trailers : Option Trailers
  trailerError : Option Str
  deriving DecidableEq

def drained (outcome : Except RequestBodyError (List UInt8) × RequestBody) : Drained where
  result := outcome.1
  state := outcome.2.state
  shared := outcome.2.shared
  trailers := outcome.2.completedTrailers
  trailerError := outcome.2.completedTrailerError

/-- The same for `read_all_with_trailers`, which hands the trailers out. -/
def drainedWithTrailers
    (outcome : Except RequestBodyError (List UInt8 × Option Trailers) × RequestBody) : Drained :=
  match outcome.1 with
  | .ok (bytes, trailers) => { drained (.ok bytes, outcome.2) with trailers := trailers }
  | .error e => drained (.error e, outcome.2)

/-- A body as its constructors make it, in any lifecycle, with any slot content
and any trailers set in advance. The length of a byte slice is a machine word. -/
structure Fresh (body : RequestBody) : Prop where
  unread : body.state = .unread
  received : body.bytesReceived = 0
  noError : body.completedTrailerError = none
  atStart : body.inner = some .empty ∨
    (∃ data, data.length ≤ u64Max ∧ body.inner = some (.fixed data 0)) ∨
    ∃ stream, body.inner = some (.incoming stream)

theorem fresh_empty : empty.Fresh := ⟨rfl, rfl, rfl, .inl rfl⟩

theorem fresh_fromBytesWithShared {data : List UInt8} (hWord : data.length ≤ u64Max)
    (maxBytes : Nat) (shared : RequestShared) :
    (fromBytesWithShared data maxBytes shared).Fresh :=
  ⟨rfl, rfl, rfl, .inr (.inl ⟨data, hWord, rfl⟩)⟩

theorem fresh_fromIncoming (stream : List StreamPoll) (declaredLength : Option Nat)
    (maxBytes : Nat) (shared : RequestShared) (wireSlot : WireTrailerSlot) :
    (fromIncomingWithSharedAndWireSlot stream declaredLength maxBytes shared wireSlot).Fresh :=
  ⟨rfl, rfl, rfl, .inr (.inr ⟨stream, rfl⟩)⟩

/-- The transport fills the slot and an adapter sets trailers while the body is unread. -/
theorem Fresh.fill {body : RequestBody} (hFresh : body.Fresh) (wire : WireTrailerSlot)
    (trailers : Option Trailers) :
    { body with wireSlot := some wire, completedTrailers := trailers }.Fresh :=
  ⟨hFresh.unread, hFresh.received, hFresh.noError, hFresh.atStart⟩

/-- All consumers succeed alike, or all fail alike. -/
def Agree (outcomes : List Drained) : Prop :=
  (∃ bytes shared trailers, ∀ outcome ∈ outcomes, outcome.result = .ok bytes ∧
    outcome.state = .complete ∧ outcome.shared = shared ∧ outcome.trailers = trailers) ∨
  ∃ variant shared, ∀ outcome ∈ outcomes, ∃ e, outcome.result = .error e ∧ e.variant = variant ∧
    outcome.state = .error ∧ outcome.shared = shared

/-! Finishing depends on the static part of a body only. -/

/-- The body at another point of its consumption. -/
def atPoint (body : RequestBody) (inner : Option BodyInner) (received : Nat) (state : BodyState) :
    RequestBody :=
  { body with inner := inner, bytesReceived := received, state := state }

/-- The outcome of finalizing the trailers with the given bytes. -/
def endOutcome (body : RequestBody) (bytes : List UInt8) : Drained :=
  drained (body.completeWith bytes)

/-- The outcome of completion without a look at the trailers. -/
def plainOutcome (body : RequestBody) (bytes : List UInt8) : Drained :=
  drained (.ok bytes, body.finish)

/-- The outcome of an error that ends consumption. -/
def failOutcome (body : RequestBody) (e : RequestBodyError) : Drained :=
  drained (.error e, body.fail)

/-- The outcome of an error that leaves the body in the given state. -/
def stopOutcome (body : RequestBody) (state : BodyState) : Drained :=
  drained (.error body.overflowError, { body with state := state })

/-- The outcome with a chunk in front. -/
def Drained.prepend (outcome : Drained) (chunk : List UInt8) : Drained :=
  { outcome with result := outcome.result.map (chunk ++ ·) }

theorem drained_map (outcome : Except RequestBodyError (List UInt8) × RequestBody)
    (chunk : List UInt8) :
    drained (outcome.1.map (chunk ++ ·), outcome.2) = (drained outcome).prepend chunk := rfl

theorem prepend_nil (outcome : Drained) : outcome.prepend [] = outcome := by
  rcases outcome with ⟨_ | bytes, state, shared, trailers, trailerError⟩ <;> rfl

theorem prepend_prepend (outcome : Drained) (first second : List UInt8) :
    (outcome.prepend second).prepend first = outcome.prepend (first ++ second) := by
  rcases outcome with ⟨_ | bytes, state, shared, trailers, trailerError⟩
  · rfl
  · simp [Drained.prepend, Except.map]

section Finishing

variable (body : RequestBody)

/-- What the end of the body makes of its trailers: the block to store, if one
arrived, or the failure. -/
def trailerVerdict : Except Str (Option Trailers) :=
  match drainAndValidateWireSlot (body.wireSlot.getD none) body.trailerLimits with
  | .ok (some trailers) =>
      if body.completedTrailers.isSome then .error repeatedTrailerBlock else .ok (some trailers)
  | .ok none => .ok none
  | .error message => .error message

theorem endOutcome_eq (bytes : List UInt8) :
    body.endOutcome bytes =
      match body.trailerVerdict with
      | .ok trailers => ⟨.ok bytes, .complete, body.shared.markComplete,
          trailers.or body.completedTrailers, body.completedTrailerError⟩
      | .error message => ⟨.error (.invalidTrailers message), .error, body.shared.markFailed,
          body.completedTrailers, some message⟩ := by
  unfold endOutcome completeWith finalizeTrailers trailerVerdict
  cases body.wireSlot with
  | none => rfl
  | some wire =>
      simp only [Option.getD_some]
      rcases drainAndValidateWireSlot wire body.trailerLimits with message | _ | trailers
      · rfl
      · rfl
      · cases hSet : body.completedTrailers with
        | none => rfl
        | some earlier =>
            simp only [Option.isSome_some, if_true, failTrailers, fail, drained]

theorem endOutcome_append (chunk bytes : List UInt8) :
    body.endOutcome (chunk ++ bytes) = (body.endOutcome bytes).prepend chunk := by
  simp only [endOutcome_eq]
  cases body.trailerVerdict <;> rfl

theorem endOutcome_atPoint (inner : Option BodyInner) (received : Nat) (state : BodyState)
    (bytes : List UInt8) :
    (body.atPoint inner received state).endOutcome bytes = body.endOutcome bytes := by
  simp only [endOutcome_eq]
  rfl

theorem endOutcome_initSlot (bytes : List UInt8) :
    body.initSlot.endOutcome bytes = body.endOutcome bytes := by
  simp only [endOutcome_eq]
  rfl

/-- The polled copy of the trailer step does the same. -/
theorem pollEnd_cases :
    (∃ after, body.pollEnd = (.ready none, after) ∧
      body.endOutcome [] = drained (.ok [], after)) ∨
    ∃ e after, body.pollEnd = (.ready (some (.error e)), after) ∧
      body.endOutcome [] = drained (.error e, after) := by
  cases hWire : drainAndValidateWireSlot (body.wireSlot.getD none) body.trailerLimits with
  | error message =>
      refine .inr ⟨_, _, by simp only [pollEnd, hWire]; rfl, ?_⟩
      simp only [endOutcome_eq, trailerVerdict, hWire, drained, fail]
  | ok arrived =>
      cases arrived with
      | none =>
          refine .inl ⟨_, by simp only [pollEnd, hWire]; rfl, ?_⟩
          simp only [endOutcome_eq, trailerVerdict, hWire, drained, finish, Option.none_or]
      | some trailers =>
          cases hSet : body.completedTrailers with
          | none =>
              refine .inl ⟨_, by simp only [pollEnd, hWire, hSet]; rfl, ?_⟩
              simp [endOutcome_eq, trailerVerdict, hWire, hSet, drained, finish]
          | some earlier =>
              refine .inr ⟨_, _, by simp only [pollEnd, hWire, hSet]; rfl, ?_⟩
              simp [endOutcome_eq, trailerVerdict, hWire, hSet, drained, fail]

end Finishing

/-! The three loops over a transport stream follow one specification. -/

/-- How the consumption of a stream stops before its end. -/
inductive Stop where
  /-- The total does not fit the machine word. -/
  | overflow
  | failed (e : RequestBodyError)

/-- What is left of a stream, after `received` bytes, brings. -/
def streamSpec (body : RequestBody) : Nat → List StreamPoll → Except Stop (List UInt8)
  | received, [] =>
      match { body with bytesReceived := received }.checkEof with
      | .error e => .error (.failed e)
      | .ok () => .ok []
  | received, .pending :: rest => body.streamSpec received rest
  | _, .error message :: _ => .error (.failed (.transport message))
  | received, .chunk chunk :: rest =>
      match checkedAdd received chunk.length with
      | none => .error .overflow
      | some total =>
          match body.checkTotal total with
          | .error e => .error (.failed e)
          | .ok () => (body.streamSpec total rest).map (chunk ++ ·)

/-- What a consumer leaves behind that stops at an overflow as given. -/
def specOutcome (body : RequestBody) (stopped : Drained) : Except Stop (List UInt8) → Drained
  | .ok bytes => body.endOutcome bytes
  | .error (.failed e) => body.failOutcome e
  | .error .overflow => stopped

theorem specOutcome_map (body : RequestBody) {stopped : Drained} {chunk : List UInt8}
    (hStopped : stopped.prepend chunk = stopped) (spec : Except Stop (List UInt8)) :
    body.specOutcome stopped (spec.map (chunk ++ ·)) =
      (body.specOutcome stopped spec).prepend chunk := by
  rcases spec with (_ | e) | bytes
  · exact hStopped.symm
  · rfl
  · exact body.endOutcome_append chunk bytes

section Streams

variable (body : RequestBody)

/-- A consumer holds an open stream. -/
def openAt (stream : List StreamPoll) (received : Nat) (state : BodyState) : RequestBody :=
  body.atPoint (some (.incoming stream)) received state

theorem drainLoop_succ {fuel : Nat} {after : RequestBody} {chunk : List UInt8}
    {step : RequestBody → Except RequestBodyError (Option (List UInt8)) × RequestBody}
    {start : RequestBody} {expected : Drained}
    (hStep : step start = (.ok (some chunk), after))
    (hRest : ∃ out, drainLoop step fuel after = some out ∧ drained out = expected) :
    ∃ out, drainLoop step (fuel + 1) start = some out ∧
      drained out = expected.prepend chunk := by
  obtain ⟨out, hOut, hDrained⟩ := hRest
  refine ⟨(out.1.map (chunk ++ ·), out.2), ?_, by rw [drained_map, hDrained]⟩
  simp [drainLoop, hStep, hOut]

theorem drainLoop_error {fuel : Nat} {start after : RequestBody} {e : RequestBodyError}
    {step : RequestBody → Except RequestBodyError (Option (List UInt8)) × RequestBody}
    (hStep : step start = (.error e, after)) :
    drainLoop step (fuel + 1) start = some (.error e, after) := by
  simp [drainLoop, hStep]

/-- How one step of a consumer treats each answer of the stream. -/
structure StreamStep (stopped : Drained)
    (step : RequestBody → Except RequestBodyError (Option (List UInt8)) × RequestBody) : Prop where
  stays : ∀ chunk, stopped.prepend chunk = stopped
  ended : ∀ received state fuel, state.Live →
    ∃ out, drainLoop step (fuel + 1) (body.openAt [] received state) = some out ∧
      drained out = body.specOutcome stopped (body.streamSpec received [])
  pending : ∀ rest received state, state.Live →
    step (body.openAt (.pending :: rest) received state) = step (body.openAt rest received state) ∨
    step (body.openAt (.pending :: rest) received state) =
      (.ok (some []), body.openAt rest received state)
  error : ∀ message rest received state, state.Live →
    ∃ after, step (body.openAt (.error message :: rest) received state) =
      (.error (.transport message), after) ∧
      drained (.error (.transport message), after) = body.failOutcome (.transport message)
  overflow : ∀ chunk rest received state, state.Live → checkedAdd received chunk.length = none →
    ∃ e after, step (body.openAt (.chunk chunk :: rest) received state) = (.error e, after) ∧
      drained (.error e, after) = stopped
  refused : ∀ chunk rest received state total e, state.Live →
    checkedAdd received chunk.length = some total → body.checkTotal total = .error e →
    ∃ after, step (body.openAt (.chunk chunk :: rest) received state) = (.error e, after) ∧
      drained (.error e, after) = body.failOutcome e
  taken : ∀ chunk rest received state total, state.Live →
    checkedAdd received chunk.length = some total → body.checkTotal total = .ok () →
    step (body.openAt (.chunk chunk :: rest) received state) =
      (.ok (some chunk), body.openAt rest total .streaming)

variable {body}

/-- The loop of such a consumer follows the specification. The induction is on
the stream; a pending answer may or may not use fuel. -/
theorem StreamStep.drainLoop_eq {stopped : Drained}
    {step : RequestBody → Except RequestBodyError (Option (List UInt8)) × RequestBody}
    (hStep : body.StreamStep stopped step) (stream : List StreamPoll) (received fuel : Nat)
    (state : BodyState) (hLive : state.Live) (hFuel : stream.length < fuel) :
    ∃ out, drainLoop step fuel (body.openAt stream received state) = some out ∧
      drained out = body.specOutcome stopped (body.streamSpec received stream) := by
  obtain ⟨fuel, rfl⟩ : ∃ n, fuel = n + 1 := ⟨fuel - 1, by omega⟩
  induction stream generalizing received fuel state with
  | nil => exact hStep.ended received state fuel hLive
  | cons answer rest ih =>
      obtain ⟨fuel, rfl⟩ : ∃ n, fuel = n + 1 := ⟨fuel - 1, by simp at hFuel; omega⟩
      have hRest : rest.length < fuel + 1 := by simpa using hFuel
      cases answer with
      | pending =>
          rcases hStep.pending rest received state hLive with hSkip | hEmpty
          · have hSame : drainLoop step (fuel + 2) (body.openAt (.pending :: rest) received state) =
                drainLoop step (fuel + 2) (body.openAt rest received state) := by
              simp only [drainLoop, hSkip]
            rw [hSame]
            exact ih received state hLive (fuel + 1) (by omega)
          · obtain ⟨out, hOut, hDrained⟩ :=
              drainLoop_succ hEmpty (ih received state hLive fuel hRest)
            exact ⟨out, hOut, hDrained.trans (prepend_nil _)⟩
      | error message =>
          obtain ⟨after, hError, hDrained⟩ := hStep.error message rest received state hLive
          exact ⟨_, drainLoop_error hError, hDrained⟩
      | chunk chunk =>
          cases hTotal : checkedAdd received chunk.length with
          | none =>
              obtain ⟨e, after, hError, hDrained⟩ :=
                hStep.overflow chunk rest received state hLive hTotal
              refine ⟨_, drainLoop_error hError, ?_⟩
              simpa only [streamSpec, hTotal, specOutcome] using hDrained
          | some total =>
              cases hCheck : body.checkTotal total with
              | error e =>
                  obtain ⟨after, hError, hDrained⟩ :=
                    hStep.refused chunk rest received state total e hLive hTotal hCheck
                  refine ⟨_, drainLoop_error hError, ?_⟩
                  simpa only [streamSpec, hTotal, hCheck, specOutcome] using hDrained
              | ok _ =>
                  obtain ⟨out, hOut, hDrained⟩ := drainLoop_succ
                    (hStep.taken chunk rest received state total hLive hTotal hCheck)
                    (ih total .streaming (.inr rfl) fuel hRest)
                  refine ⟨out, hOut, hDrained.trans ?_⟩
                  rw [← body.specOutcome_map (hStep.stays chunk)]
                  simp only [streamSpec, hTotal, hCheck]

variable (body)

theorem nextChunk_chunk {chunk : List UInt8} {rest : List StreamPoll} {received : Nat}
    {state : BodyState} (hLive : state.Live) :
    (body.openAt (.chunk chunk :: rest) received state).nextChunk =
      match checkedAdd received chunk.length with
      | none => (.error body.overflowError, body.openAt rest received .streaming)
      | some total =>
          match body.checkTotal total with
          | .error e => (.error e, (body.openAt rest received .streaming).fail)
          | .ok () => (.ok (some chunk), body.openAt rest total .streaming) := by
  rcases hLive with rfl | rfl <;> rfl

theorem nextChunk_ended (received : Nat) {state : BodyState} (hLive : state.Live) :
    (body.openAt [] received state).nextChunk =
      match { body with bytesReceived := received }.checkEof with
      | .error e => (.error e, (body.openAt [] received .streaming).fail)
      | .ok () => (body.openAt [] received .streaming).initSlot.completeWith none := by
  rcases hLive with rfl | rfl <;> rfl

/-- A step that completes the body ends the loop. -/
theorem drainLoop_completeWith_none (fuel : Nat) {start ending : RequestBody}
    {step : RequestBody → Except RequestBodyError (Option (List UInt8)) × RequestBody}
    (hStep : step start = ending.completeWith none) :
    ∃ out, drainLoop step (fuel + 1) start = some out ∧ drained out = ending.endOutcome [] := by
  unfold endOutcome
  simp only [drainLoop, hStep, completeWith]
  rcases ending.finalizeTrailers with ⟨_ | _, after⟩
  · exact ⟨_, rfl, rfl⟩
  · exact ⟨_, rfl, rfl⟩

theorem nextChunk_streamStep : body.StreamStep (body.stopOutcome .streaming) nextChunk where
  stays _ := rfl
  ended received state fuel hLive := by
    have hStep := body.nextChunk_ended received hLive
    simp only [streamSpec]
    cases hEof : { body with bytesReceived := received }.checkEof with
    | error e =>
        rw [hEof] at hStep
        exact ⟨_, drainLoop_error hStep, rfl⟩
    | ok _ =>
        rw [hEof] at hStep
        obtain ⟨out, hOut, hDrained⟩ := drainLoop_completeWith_none fuel hStep
        refine ⟨out, hOut, hDrained.trans ?_⟩
        rw [endOutcome_initSlot]
        exact body.endOutcome_atPoint _ _ _ _
  pending _ _ _ hLive := .inl (by rcases hLive with rfl | rfl <;> rfl)
  error _ rest received _ hLive :=
    ⟨(body.openAt rest received .streaming).fail, by rcases hLive with rfl | rfl <;> rfl, rfl⟩
  overflow _ rest received _ hLive hTotal :=
    ⟨_, body.openAt rest received .streaming, by rw [body.nextChunk_chunk hLive, hTotal], rfl⟩
  refused _ rest received _ _ _ hLive hTotal hCheck :=
    ⟨(body.openAt rest received .streaming).fail,
      by simp only [body.nextChunk_chunk hLive, hTotal, hCheck], rfl⟩
  taken _ _ _ _ _ hLive hTotal hCheck := by
    simp only [body.nextChunk_chunk hLive, hTotal, hCheck]

theorem pollStep_chunk {chunk : List UInt8} {rest : List StreamPoll} {received : Nat}
    {state : BodyState} (hLive : state.Live) :
    (body.openAt (.chunk chunk :: rest) received state).pollStep =
      match checkedAdd received chunk.length with
      | none => (.error body.overflowError, (body.openAt rest received state).fail)
      | some total =>
          match body.checkTotal total with
          | .error e => (.error e, (body.openAt rest received state).fail)
          | .ok () => (.ok (some chunk), body.openAt rest total .streaming) := by
  have hPoll : (body.openAt (.chunk chunk :: rest) received state).pollNext =
      match checkedAdd received chunk.length with
      | none => (body.openAt rest received state).pollFail body.overflowError
      | some total =>
          match body.checkTotal total with
          | .error e => (body.openAt rest received state).pollFail e
          | .ok () => (body.openAt rest total state).pollChunk chunk := by
    rcases hLive with rfl | rfl <;> rfl
  rw [pollStep, hPoll]
  cases checkedAdd received chunk.length with
  | none => rfl
  | some total =>
      simp only
      cases body.checkTotal total with
      | error e => rfl
      | ok _ => rcases hLive with rfl | rfl <;> rfl

/-- A poll that answers the end of the body ends the loop. -/
theorem drainLoop_pollEnd (fuel : Nat) {start ending : RequestBody}
    (hPoll : start.pollNext = ending.pollEnd) :
    ∃ out, drainLoop pollStep (fuel + 1) start = some out ∧
      drained out = ending.endOutcome [] := by
  rcases ending.pollEnd_cases with ⟨after, hEnd, hDrained⟩ | ⟨e, after, hEnd, hDrained⟩
  · exact ⟨_, by simp only [drainLoop, pollStep, hPoll, hEnd], hDrained.symm⟩
  · exact ⟨_, by simp only [drainLoop, pollStep, hPoll, hEnd], hDrained.symm⟩

theorem pollStep_streamStep : body.StreamStep (body.failOutcome body.overflowError) pollStep where
  stays _ := rfl
  ended received state fuel hLive := by
    have hPoll : (body.openAt [] received state).pollNext =
        match { body with bytesReceived := received }.checkEof with
        | .error e => (body.openAt [] received state).pollFail e
        | .ok () => (body.openAt [] received state).pollEnd := by
      rcases hLive with rfl | rfl <;> rfl
    simp only [streamSpec]
    cases hEof : { body with bytesReceived := received }.checkEof with
    | error e =>
        rw [hEof] at hPoll
        exact ⟨(.error e, (body.openAt [] received state).fail),
          drainLoop_error (by simp only [pollStep, hPoll, pollFail]), rfl⟩
    | ok _ =>
        rw [hEof] at hPoll
        obtain ⟨out, hOut, hDrained⟩ := drainLoop_pollEnd fuel hPoll
        exact ⟨out, hOut, hDrained.trans (body.endOutcome_atPoint _ _ _ _)⟩
  pending _ _ _ hLive := .inr (by rcases hLive with rfl | rfl <;> rfl)
  error _ rest received state hLive :=
    ⟨(body.openAt rest received state).fail, by rcases hLive with rfl | rfl <;> rfl, rfl⟩
  overflow _ rest received state hLive hTotal :=
    ⟨_, (body.openAt rest received state).fail, by rw [body.pollStep_chunk hLive, hTotal], rfl⟩
  refused _ rest received state _ _ hLive hTotal hCheck :=
    ⟨(body.openAt rest received state).fail,
      by simp only [body.pollStep_chunk hLive, hTotal, hCheck], rfl⟩
  taken _ _ _ _ _ hLive hTotal hCheck := by
    simp only [body.pollStep_chunk hLive, hTotal, hCheck]

/-- The receive loop of `read_all`, which holds the stream itself. -/
theorem readStream_eq (stream : List StreamPoll) (received : Nat) (buf : List UInt8) :
    drained ((body.atPoint none received .unread).readStream buf stream) =
      (body.specOutcome (body.stopOutcome .unread) (body.streamSpec received stream)).prepend buf := by
  induction stream generalizing received buf with
  | nil =>
      have hEof : (body.atPoint none received .unread).checkEof =
        { body with bytesReceived := received }.checkEof := rfl
      simp only [streamSpec, readStream, hEof]
      cases { body with bytesReceived := received }.checkEof with
      | error e => rfl
      | ok _ =>
          calc drained ((body.atPoint none received .unread).completeWith buf)
              = body.endOutcome buf := body.endOutcome_atPoint none received .unread buf
            _ = body.endOutcome (buf ++ []) := by rw [List.append_nil]
            _ = (body.endOutcome []).prepend buf := body.endOutcome_append buf []
  | cons answer rest ih =>
      cases answer with
      | pending => exact ih received buf
      | error message => rfl
      | chunk chunk =>
          have hReceived : (body.atPoint none received .unread).bytesReceived = received := rfl
          have hCheck (total : Nat) :
            (body.atPoint none received .unread).checkTotal total = body.checkTotal total := rfl
          simp only [streamSpec, readStream, hReceived, hCheck]
          cases checkedAdd received chunk.length with
          | none => rfl
          | some total =>
              simp only
              cases body.checkTotal total with
              | error e => rfl
              | ok _ =>
                  simp only
                  rw [body.specOutcome_map rfl, prepend_prepend]
                  exact ih total (buf ++ chunk)

end Streams

end RequestBody

end Eggserve.Primitives
