import Eggserve.Primitives.BodyTrailers
import Eggserve.Server.Finalize

/-! The `http_body` view of a request body. It polls the body as a stream and
adds the trailers, or their failure, behind its end. -/
namespace Eggserve.Server
open Rust Transition Eggserve.Primitives

/-- The parts of the `http` crate that build a header map. -/
structure HttpCrate where
  headerName : List UInt8 → Option Str
  headerValue : List UInt8 → Option (List UInt8)

inductive InteropError where
  | invalidHeader
  deriving DecidableEq

def headerBlockToMap (http : HttpCrate) (block : HeaderBlock) : Except InteropError HyperHeaders :=
  block.mapM fun field => do
    let name ← ((http.headerName (utf8 field.name.text)).map Except.ok).getD
      (.error .invalidHeader)
    let value ← ((http.headerValue field.value.bytes).map Except.ok).getD (.error .invalidHeader)
    return ⟨name, value⟩

def trailersToMap (http : HttpCrate) (trailers : Trailers) : Except InteropError HyperHeaders :=
  headerBlockToMap http trailers.block

/-- The `Display` text. -/
def requestBodyErrorText : RequestBodyError → Str
  | .limitExceeded limit received =>
      "body exceeded limit: received ".toList ++ decimal received ++
        " bytes, limit is ".toList ++ decimal limit
  | .prematureEof received (some expected) =>
      "premature EOF: received ".toList ++ decimal received ++ " of ".toList ++
        decimal expected ++ " expected bytes".toList
  | .prematureEof received none =>
      "premature EOF after ".toList ++ decimal received ++ " bytes".toList
  | .lengthMismatch declared actual =>
      "body length mismatch: declared ".toList ++ decimal declared ++ ", actual ".toList ++
        decimal actual
  | .alreadyConsumed => "body already consumed"
  | .mixedConsumptionMode =>
      "mixed consumption mode: cannot switch between read_all and streaming"
  | .transport message => "transport error: ".toList ++ message
  | .invalidTrailers message => "invalid request trailers: ".toList ++ message
  | .trailersNotReady => "request trailers not ready: complete the body first"

structure RequestBodyHttpError where
  detail : Str
  deriving DecidableEq

inductive HttpFrame where
  | data (bytes : List UInt8)
  | trailers (map : HyperHeaders)
  deriving DecidableEq

abbrev FrameItem := Option (Except RequestBodyHttpError HttpFrame)

structure SizeHint where
  lower : Nat := 0
  upper : Option Nat := none
  deriving DecidableEq

namespace SizeHint

def withExact (value : Nat) : SizeHint := ⟨value, some value⟩

def exact (hint : SizeHint) : Option Nat := if hint.upper = some hint.lower then hint.upper else none

end SizeHint

/-- `completed_trailers_snapshot`. -/
def completedTrailersSnapshot (body : RequestBody) : Option Trailers :=
  if body.state ≠ .complete then none
  else if body.completedTrailerError.isSome then none
  else body.completedTrailers

/-- What is told behind the end of the body: a stored trailer failure, the
trailers once, or the end. -/
def endFrame (http : HttpCrate) (body : RequestBody) : FrameItem × RequestBody :=
  match body.completedTrailerError with
  | some message => (some (.error ⟨"invalid request trailers: ".toList ++ message⟩), body)
  | none =>
      match body.takeCompletedTrailers with
      | (some trailers, body) =>
          match trailersToMap http trailers with
          | .ok map => (some (.ok (.trailers map)), body)
          | .error _ => (some (.error ⟨"invalid request trailers"⟩), body)
      | (none, body) => (none, body)

/-- `none` is pending. -/
def pollFrame (http : HttpCrate) (body : RequestBody) : Option FrameItem × RequestBody :=
  match body.pollNext with
  | (.ready (some (.ok chunk)), body) => (some (some (.ok (.data chunk))), body)
  | (.ready (some (.error e)), body) => (some (some (.error ⟨requestBodyErrorText e⟩)), body)
  | (.ready none, body) => (some (endFrame http body).1, (endFrame http body).2)
  | (.pending, body) => (none, body)

def sizeHint (body : RequestBody) : SizeHint :=
  match body.declaredLength with
  | some declared => .withExact (declared - body.bytesReceived)
  | none => {}

def isEndStream (body : RequestBody) : Bool :=
  body.state = .complete && (completedTrailersSnapshot body).isNone

/-- A body as it is built, with trailers and a slot from outside. -/
inductive Built : RequestBody → Prop where
  | empty : Built .empty
  | fixed (data : List UInt8) (maxBytes : Nat) (shared : RequestShared)
      (hWord : data.length ≤ u64Max) : Built (.fromBytesWithShared data maxBytes shared)
  | incoming (stream : List StreamPoll) (declaredLength : Option Nat) (maxBytes : Nat)
      (shared : RequestShared) (wire : WireTrailerSlot) :
      Built (.fromIncomingWithSharedAndWireSlot stream declaredLength maxBytes shared wire)
  | setTrailers {body : RequestBody} (hBody : Built body) (trailers : Trailers) :
      Built (body.setTrailers trailers)
  | wireSlot {body : RequestBody} (hBody : Built body) (wire : WireTrailerSlot) :
      Built { body with wireSlot := some wire }

/-! Runs. -/

/-- The view is polled, and the transport fills the slot. -/
inductive FrameOp where
  | pollFrame
  | fillSlot (wire : Except Str HeaderBlock)

/-- A body with what its view has answered, and the same body polled as a
stream, with the octets that it has yielded. -/
structure FrameRun where
  body : RequestBody
  answers : List FrameItem
  plain : RequestBody
  yielded : List UInt8

/-- The octets in the data frames. -/
def dataOf (answers : List FrameItem) : List UInt8 :=
  answers.flatMap fun
    | some (.ok (.data bytes)) => bytes
    | _ => []

def chunkOf : RequestBody.BodyPoll → List UInt8
  | .ready (some (.ok chunk)) => chunk
  | _ => []

namespace FrameRun

def start (body : RequestBody) : FrameRun := ⟨body, [], body, []⟩

def fill (body : RequestBody) (wire : Except Str HeaderBlock) : RequestBody :=
  { body with wireSlot := some (some wire) }

def step (http : HttpCrate) (s : FrameRun) : FrameOp → FrameRun
  | .pollFrame =>
      { body := (pollFrame http s.body).2
        answers := s.answers ++ (pollFrame http s.body).1.toList
        plain := s.plain.pollNext.2
        yielded := s.yielded ++ chunkOf s.plain.pollNext.1 }
  | .fillSlot wire => { s with body := fill s.body wire, plain := fill s.plain wire }

def run (http : HttpCrate) (s : FrameRun) (ops : List FrameOp) : FrameRun :=
  ops.foldl (step http) s

def machine (http : HttpCrate) : Transition.Machine FrameRun FrameOp where
  Initial s := ∃ body, Built body ∧ s = start body
  step s op := some (s.step http op)

end FrameRun

/-! One poll of the body. -/

/-- How far a body has been read. -/
def Placed (body : RequestBody) : Prop :=
  match body.inner with
  | some (.fixed data offset) => body.bytesReceived = offset ∧ offset ≤ data.length ∧
      body.declaredLength = some data.length
  | some .empty => body.declaredLength = none
  | some (.incoming _) => ∀ declared, body.declaredLength = some declared →
      body.bytesReceived ≤ declared
  | none => False

/-- The next poll meets the end of the body, and its length is in order. -/
def MeetsEnd (body : RequestBody) : Prop :=
  match body.inner with
  | some (.fixed data offset) => data.length ≤ offset
  | some .empty => True
  | some (.incoming []) => body.checkEof = .ok ()
  | _ => False

/-- All that one poll can do. -/
inductive Polls (body : RequestBody) : RequestBody.BodyPoll → RequestBody → Prop where
  | closed (hClosed : ¬body.state.Live) : Polls body (.ready none) body
  | waits (rest : List StreamPoll) (hLive : body.state.Live)
      (hPlaced : Placed (body.atPoint (some (.incoming rest)) body.bytesReceived body.state)) :
      Polls body .pending (body.atPoint (some (.incoming rest)) body.bytesReceived body.state)
  | yields (chunk : List UInt8) (inner : Option BodyInner) (hLive : body.state.Live)
      (hPlaced : Placed (body.atPoint inner (body.bytesReceived + chunk.length) .streaming)) :
      Polls body (.ready (some (.ok chunk)))
        (body.atPoint inner (body.bytesReceived + chunk.length) .streaming)
  | finishes (chunk : List UInt8) (inner : Option BodyInner) (hLive : body.state.Live)
      (hLength : body.declaredLength = some (body.bytesReceived + chunk.length)) :
      Polls body (.ready (some (.ok chunk)))
        (body.atPoint inner (body.bytesReceived + chunk.length) .streaming).finish
  | fails (e : RequestBodyError) (inner : Option BodyInner) (hLive : body.state.Live) :
      Polls body (.ready (some (.error e)))
        (body.atPoint inner body.bytesReceived body.state).fail
  | refused (message : Str) (hLive : body.state.Live) (hEnd : MeetsEnd body)
      (hVerdict : body.trailerVerdict = .error message) :
      Polls body (.ready (some (.error (.invalidTrailers message))))
        { ({ body with wireSlot := some none } : RequestBody).fail with
          completedTrailerError := some message }
  | ends (found : Option Trailers) (hLive : body.state.Live) (hEnd : MeetsEnd body)
      (hLength : ∀ declared, body.declaredLength = some declared →
        body.bytesReceived = declared)
      (hVerdict : body.trailerVerdict = .ok found) :
      Polls body (.ready none) ({ body with
        wireSlot := some none
        completedTrailers := found.or body.completedTrailers } : RequestBody).finish

section Polling

variable {body : RequestBody}

theorem polls_end (hLive : body.state.Live) (hEnd : MeetsEnd body)
    (hLength : ∀ declared, body.declaredLength = some declared → body.bytesReceived = declared) :
    Polls body body.pollEnd.1 body.pollEnd.2 := by
  unfold RequestBody.pollEnd
  cases hDrain : drainAndValidateWireSlot (body.wireSlot.getD none) body.trailerLimits with
  | error message =>
      simp only [hDrain]
      refine .refused message hLive hEnd ?_
      rw [RequestBody.trailerVerdict, hDrain]
  | ok found =>
      cases found with
      | none =>
          simp only [hDrain]
          refine .ends none hLive hEnd hLength ?_
          rw [RequestBody.trailerVerdict, hDrain]
      | some trailers =>
          simp only [hDrain]
          by_cases hSet : body.completedTrailers.isSome = true
          · rw [if_pos hSet]
            refine .refused _ hLive hEnd ?_
            simp only [RequestBody.trailerVerdict, hDrain, if_pos hSet]
          · rw [if_neg hSet]
            refine .ends (some trailers) hLive hEnd hLength ?_
            simp only [RequestBody.trailerVerdict, hDrain, if_neg hSet]

/-- The chunk of a fixed body is as long as its offset grows. -/
theorem length_chunk (data : List UInt8) (offset : Nat) :
    ((data.drop offset).take (RequestBody.chunkSize data offset)).length =
      RequestBody.chunkSize data offset := by
  rw [List.length_take, List.length_drop, RequestBody.chunkSize]
  omega

theorem pollChunk_eq (hLive : body.state.Live) (chunk : List UInt8) :
    body.pollChunk chunk = (.ready (some (.ok chunk)), { body with state := .streaming }) := by
  unfold RequestBody.pollChunk
  rcases hLive with hState | hState
  · rw [if_pos hState]
  · rw [if_neg (by simp [hState]), ← hState]

theorem polls_fixed {data : List UInt8} {offset : Nat} (hPlaced : Placed body)
    (hLive : body.state.Live) (hInner : body.inner = some (.fixed data offset)) :
    Polls body body.pollNext.1 body.pollNext.2 := by
  have hOpen : ¬(body.state = .complete ∨ body.state = .error) := fun h =>
    RequestBody.not_live.mpr h hLive
  unfold Placed at hPlaced
  rw [hInner] at hPlaced
  obtain ⟨hReceived, hOffset, hDeclared⟩ := hPlaced
  simp only [RequestBody.pollNext, if_neg hOpen, hInner]
  by_cases hEnd : offset ≥ data.length
  · rw [if_pos hEnd]
    refine polls_end hLive ?_ fun declared h => ?_
    · unfold MeetsEnd
      rw [hInner]
      exact hEnd
    · rw [hDeclared] at h
      obtain rfl := Option.some.inj h
      rw [hReceived]
      exact le_antisymm hOffset hEnd
  · rw [if_neg hEnd]
    have hSize := length_chunk data offset
    have hBound : RequestBody.chunkSize data offset ≤ data.length - offset := Nat.min_le_left _ _
    cases hAdd : checkedAdd body.bytesReceived (RequestBody.chunkSize data offset) with
    | none => exact .fails _ body.inner hLive
    | some total =>
        obtain ⟨-, rfl⟩ := enabled_iff.mp hAdd
        simp only
        by_cases hLimit : body.bytesReceived + RequestBody.chunkSize data offset > body.maxBytes
        · rw [if_pos hLimit]
          exact .fails _ body.inner hLive
        · rw [if_neg hLimit]
          have hChunk := @pollChunk_eq (body.atPoint
            (some (.fixed data (offset + RequestBody.chunkSize data offset)))
            (body.bytesReceived + RequestBody.chunkSize data offset) body.state) hLive
            ((data.drop offset).take (RequestBody.chunkSize data offset))
          unfold RequestBody.atPoint at hChunk
          simp only [hChunk]
          generalize (data.drop offset).take (RequestBody.chunkSize data offset) = chunk at hSize ⊢
          rw [← hSize] at hBound ⊢
          by_cases hLast : offset + chunk.length ≥ data.length
          · rw [if_pos hLast]
            refine .finishes chunk (some (.fixed data (offset + chunk.length))) hLive ?_
            rw [hDeclared, hReceived]
            exact congrArg some (by omega)
          · rw [if_neg hLast]
            exact .yields chunk (some (.fixed data (offset + chunk.length))) hLive
              ⟨congrArg (· + chunk.length) hReceived, by omega, hDeclared⟩

theorem polls_incoming {stream : List StreamPoll} (hPlaced : Placed body)
    (hLive : body.state.Live) (hInner : body.inner = some (.incoming stream)) :
    Polls body body.pollNext.1 body.pollNext.2 := by
  have hOpen : ¬(body.state = .complete ∨ body.state = .error) := fun h =>
    RequestBody.not_live.mpr h hLive
  have hDeclared : ∀ declared, body.declaredLength = some declared →
      body.bytesReceived ≤ declared := by
    unfold Placed at hPlaced
    rw [hInner] at hPlaced
    exact hPlaced
  cases stream with
  | nil =>
      simp only [RequestBody.pollNext, if_neg hOpen, hInner]
      cases hEof : body.checkEof with
      | error e => exact .fails e body.inner hLive
      | ok _ =>
          refine polls_end hLive ?_ fun declared h => ?_
          · unfold MeetsEnd
            rw [hInner]
            exact hEof
          · exact le_antisymm (hDeclared declared h) (RequestBody.checkEof_eq_ok hEof declared h)
  | cons answer rest =>
      simp only [RequestBody.pollNext, if_neg hOpen, hInner]
      cases answer with
      | pending => exact .waits rest hLive hDeclared
      | error message => exact .fails _ (some (.incoming rest)) hLive
      | chunk chunk =>
          simp only
          cases hAdd : checkedAdd body.bytesReceived chunk.length with
          | none => exact .fails _ (some (.incoming rest)) hLive
          | some total =>
              obtain ⟨-, rfl⟩ := enabled_iff.mp hAdd
              cases hTotal : ({ body with inner := some (.incoming rest) } :
                  RequestBody).checkTotal (body.bytesReceived + chunk.length) with
              | error e =>
                  simp only [hTotal]
                  exact .fails e (some (.incoming rest)) hLive
              | ok _ =>
                  have hWithin := RequestBody.checkTotal_eq_ok.mp hTotal
                  have hChunk := @pollChunk_eq (body.atPoint (some (.incoming rest))
                    (body.bytesReceived + chunk.length) body.state) hLive chunk
                  unfold RequestBody.atPoint at hChunk
                  simp only [hTotal, hChunk]
                  exact .yields chunk (some (.incoming rest)) hLive hWithin.2

/-- The end of the body is polled alike for every kind. -/
theorem pollNext_eq_pollEnd (hLive : body.state.Live) (hEnd : MeetsEnd body) :
    body.pollNext = body.pollEnd := by
  have hOpen : ¬(body.state = .complete ∨ body.state = .error) := fun h =>
    RequestBody.not_live.mpr h hLive
  unfold MeetsEnd at hEnd
  rw [RequestBody.pollNext, if_neg hOpen]
  split at hEnd
  · rename_i data offset hInner
    simp only [hInner]
    rw [if_pos hEnd]
  · rename_i hInner
    simp only [hInner]
  · rename_i hInner
    simp only [hInner, hEnd]
  · exact hEnd.elim

theorem pollEnd_refused {message : Str} (hVerdict : body.trailerVerdict = .error message) :
    body.pollEnd = (.ready (some (.error (.invalidTrailers message))),
      { ({ body with wireSlot := some none } : RequestBody).fail with
        completedTrailerError := some message }) := by
  unfold RequestBody.trailerVerdict at hVerdict
  unfold RequestBody.pollEnd
  cases hDrain : drainAndValidateWireSlot (body.wireSlot.getD none) body.trailerLimits with
  | error found =>
      simp only [hDrain, Except.error.injEq] at hVerdict ⊢
      rw [hVerdict]
  | ok found =>
      cases found with
      | none => simp [hDrain] at hVerdict
      | some trailers =>
          simp only [hDrain] at hVerdict ⊢
          by_cases hSet : body.completedTrailers.isSome = true
          · rw [if_pos hSet, Except.error.injEq] at hVerdict
            rw [if_pos hSet, hVerdict]
          · rw [if_neg hSet] at hVerdict
            cases hVerdict

theorem polls (hPlaced : body.state.Live → Placed body) :
    Polls body body.pollNext.1 body.pollNext.2 := by
  by_cases hLive : body.state.Live
  · cases hInner : body.inner with
    | none =>
        have hNone := hPlaced hLive
        unfold Placed at hNone
        rw [hInner] at hNone
        exact hNone.elim
    | some inner =>
        cases inner with
        | fixed data offset => exact polls_fixed (hPlaced hLive) hLive hInner
        | incoming stream => exact polls_incoming (hPlaced hLive) hLive hInner
        | empty =>
            have hOpen : ¬(body.state = .complete ∨ body.state = .error) := fun h =>
              RequestBody.not_live.mpr h hLive
            have hNone := hPlaced hLive
            unfold Placed at hNone
            rw [hInner] at hNone
            simp only [RequestBody.pollNext, if_neg hOpen, hInner]
            refine polls_end hLive ?_ fun declared h => by cases hNone.symm.trans h
            unfold MeetsEnd
            rw [hInner]
            trivial
  · rw [RequestBody.pollNext, if_pos (RequestBody.not_live.mp hLive)]
    exact .closed hLive

end Polling

/-! One poll of the view. -/

/-- A poll of the view meets trailers that are refused. -/
def Refuses (body : RequestBody) : FrameOp → Prop
  | .pollFrame =>
      body.state.Live ∧ MeetsEnd body ∧ ∃ message, body.trailerVerdict = .error message
  | .fillSlot _ => False

/-- Nothing but data frames. -/
def AllData (answers : List FrameItem) : Prop :=
  ∀ answer ∈ answers, ∃ bytes, answer = some (.ok (.data bytes))

/-- Data frames, then at most one trailers frame or error, then the end. -/
def WellFormed (answers : List FrameItem) : Prop :=
  ∃ content last ends, answers = content ++ last ++ ends ∧ AllData content ∧
    (last = [] ∨ (∃ map, last = [some (.ok (.trailers map))]) ∨ ∃ e, last = [some (.error e)]) ∧
    ∀ answer ∈ ends, answer = none

theorem dataOf_append (first second : List FrameItem) :
    dataOf (first ++ second) = dataOf first ++ dataOf second :=
  List.flatMap_append

theorem dataOf_append_data (answers : List FrameItem) (chunk : List UInt8) :
    dataOf (answers ++ [some (.ok (.data chunk))]) = dataOf answers ++ chunk := by
  rw [dataOf_append]
  simp [dataOf]

theorem dataOf_append_error (answers : List FrameItem) (e : RequestBodyHttpError) :
    dataOf (answers ++ [some (.error e)]) = dataOf answers := by
  rw [dataOf_append]
  simp [dataOf]

theorem AllData.append {answers : List FrameItem} (hData : AllData answers) (chunk : List UInt8) :
    AllData (answers ++ [some (.ok (.data chunk))]) := by
  intro answer hAnswer
  rcases List.mem_append.mp hAnswer with hOld | hNew
  · exact hData answer hOld
  · exact ⟨chunk, List.mem_singleton.mp hNew⟩

theorem AllData.wellFormed {answers : List FrameItem} (hData : AllData answers) :
    WellFormed answers :=
  ⟨answers, [], [], by simp, hData, .inl rfl, by simp⟩

/-- The first answer that is not data. -/
def EndsData (item : FrameItem) : Prop :=
  item = none ∨ (∃ map, item = some (.ok (.trailers map))) ∨ ∃ e, item = some (.error e)

theorem AllData.append_end {answers : List FrameItem} {item : FrameItem}
    (hData : AllData answers) (hItem : EndsData item) : WellFormed (answers ++ [item]) := by
  rcases hItem with rfl | ⟨map, rfl⟩ | ⟨e, rfl⟩
  · exact ⟨answers, [], [none], by simp, hData, .inl rfl, by simp⟩
  · exact ⟨answers, _, [], by simp, hData, .inr (.inl ⟨map, rfl⟩), by simp⟩
  · exact ⟨answers, _, [], by simp, hData, .inr (.inr ⟨e, rfl⟩), by simp⟩

theorem WellFormed.append_none {answers : List FrameItem} (h : WellFormed answers) :
    WellFormed (answers ++ [none]) := by
  obtain ⟨content, last, ends, rfl, hData, hLast, hEnds⟩ := h
  refine ⟨content, last, ends ++ [none], by simp, hData, hLast, fun answer hAnswer => ?_⟩
  rcases List.mem_append.mp hAnswer with hOld | hNew
  · exact hEnds answer hOld
  · exact List.mem_singleton.mp hNew

def isError : FrameItem → Bool
  | some (.error _) => true
  | _ => false

/-- An error is told once. -/
theorem WellFormed.countP_isError {answers : List FrameItem} (h : WellFormed answers) :
    answers.countP isError ≤ 1 := by
  obtain ⟨content, last, ends, rfl, hData, hLast, hEnds⟩ := h
  have hContent : content.countP isError = 0 := by
    rw [List.countP_eq_zero]
    intro answer hAnswer
    obtain ⟨bytes, rfl⟩ := hData answer hAnswer
    simp [isError]
  have hNone : ends.countP isError = 0 := by
    rw [List.countP_eq_zero]
    intro answer hAnswer
    rw [hEnds answer hAnswer]
    simp [isError]
  rw [List.countP_append, List.countP_append, hContent, hNone]
  rcases hLast with rfl | ⟨map, rfl⟩ | ⟨e, rfl⟩ <;> simp [isError]

section Frames

variable {http : HttpCrate} {body : RequestBody}

/-- The body behind its end: only trailers that wait may still be told. -/
structure Told (body : RequestBody) (item : FrameItem) (after : RequestBody) : Prop where
  closed : ¬after.state.Live
  no_data : dataOf [item] = []
  state : after.state = body.state
  received : after.bytesReceived = body.bytesReceived
  declared : after.declaredLength = body.declaredLength
  error : after.completedTrailerError = body.completedTrailerError

theorem told_endFrame (hClosed : ¬body.state.Live) :
    Told body (endFrame http body).1 (endFrame http body).2 := by
  unfold endFrame
  cases hError : body.completedTrailerError with
  | some message => exact ⟨hClosed, rfl, rfl, rfl, rfl, rfl⟩
  | none =>
      unfold RequestBody.takeCompletedTrailers
      by_cases hState : body.state = .complete
      · simp only [hState, hError, ne_eq, not_true_eq_false, if_false, Option.isSome_none,
          Bool.false_eq_true]
        cases body.completedTrailers with
        | none => exact ⟨hState ▸ hClosed, rfl, hState.symm, rfl, rfl, hError.symm⟩
        | some trailers =>
            simp only
            cases trailersToMap http trailers <;>
              exact ⟨hState ▸ hClosed, rfl, hState.symm, rfl, rfl, hError.symm⟩
      · simp only [ne_eq, hState, not_false_eq_true, if_true]
        exact ⟨hClosed, rfl, rfl, rfl, rfl, hError.trans hError.symm⟩

/-- A body that has told its trailers tells the end for ever. -/
def Done (body : RequestBody) : Prop :=
  ¬body.state.Live ∧ body.completedTrailerError = none ∧
    (body.state = .complete → body.completedTrailers = none)

theorem endFrame_done (hDone : Done body) : endFrame http body = (none, body) := by
  obtain ⟨-, hError, hNone⟩ := hDone
  unfold endFrame RequestBody.takeCompletedTrailers
  simp only [hError]
  by_cases hState : body.state = .complete
  · simp only [hState, ne_eq, not_true_eq_false, if_false, Option.isSome_none,
      Bool.false_eq_true, hNone hState]
    cases body
    simp_all
  · simp only [ne_eq, hState, not_false_eq_true, if_true]

theorem pollFrame_closed (hClosed : ¬body.state.Live) :
    pollFrame http body = (some (endFrame http body).1, (endFrame http body).2) := by
  rw [pollFrame, RequestBody.pollNext, if_pos (RequestBody.not_live.mp hClosed)]

theorem pollFrame_done (hDone : Done body) : pollFrame http body = (some none, body) := by
  rw [pollFrame_closed hDone.1, endFrame_done hDone]

/-- The first answer behind the end of a complete body. -/
theorem endFrame_complete (hState : body.state = .complete)
    (hError : body.completedTrailerError = none) :
    Done (endFrame http body).2 ∧ EndsData (endFrame http body).1 := by
  have hTake : body.takeCompletedTrailers =
      (body.completedTrailers, { body with completedTrailers := none }) := by
    simp [RequestBody.takeCompletedTrailers, hState, hError]
  have hDone : Done { body with completedTrailers := none } :=
    ⟨RequestBody.not_live.mpr (.inl hState), hError, fun _ => rfl⟩
  unfold endFrame
  rw [hError, hTake]
  cases body.completedTrailers with
  | none => exact ⟨hDone, .inl rfl⟩
  | some trailers =>
      simp only
      cases trailersToMap http trailers with
      | ok map => exact ⟨hDone, .inr (.inl ⟨map, rfl⟩)⟩
      | error e => exact ⟨hDone, .inr (.inr ⟨_, rfl⟩)⟩

end Frames

/-! Runs of the view. -/

namespace FrameRun

variable {http : HttpCrate} {s s' : FrameRun}

/-- While the body is read, the stream behind it is the same body. Either way
they yield the same octets, as many as are counted. -/
structure Tracks (s : FrameRun) : Prop where
  live : s.body.state.Live → Placed s.body ∧ s.plain = s.body ∧
    s.body.completedTrailerError = none
  closed : ¬s.body.state.Live → ¬s.plain.state.Live
  same : dataOf s.answers = s.yielded
  count : (dataOf s.answers).length = s.body.bytesReceived
  complete : s.body.state = .complete → s.body.completedTrailerError = none ∧
    ∀ declared, s.body.declaredLength = some declared → s.body.bytesReceived = declared

theorem placed_of_built {body : RequestBody} (hBuilt : Built body) :
    body.state = .unread ∧ Placed body ∧ body.completedTrailerError = none ∧
      body.bytesReceived = 0 := by
  induction hBuilt with
  | empty => exact ⟨rfl, rfl, rfl, rfl⟩
  | fixed data maxBytes shared hWord => exact ⟨rfl, ⟨rfl, Nat.zero_le _, rfl⟩, rfl, rfl⟩
  | incoming stream declaredLength maxBytes shared wire =>
      exact ⟨rfl, fun _ _ => Nat.zero_le _, rfl, rfl⟩
  | setTrailers hBody trailers ih => exact ih
  | wireSlot hBody wire ih => exact ih

theorem tracks_start {body : RequestBody} (hBuilt : Built body) : Tracks (start body) := by
  obtain ⟨hState, hPlaced, hError, hReceived⟩ := placed_of_built hBuilt
  exact ⟨fun _ => ⟨hPlaced, rfl, hError⟩, fun h => h, rfl, hReceived.symm,
    fun h => by cases hState.symm.trans h⟩

theorem tracks_closed {item : FrameItem} {after : RequestBody} (h : Tracks s)
    (hClosed : ¬s.body.state.Live) (hTold : Told s.body item after) :
    Tracks { s with body := after, answers := s.answers ++ [item] } where
  live hLive := absurd hLive hTold.closed
  closed _ := h.closed hClosed
  same := by
    simp only [dataOf_append, hTold.no_data, List.append_nil]
    exact h.same
  count := by
    simp only [dataOf_append, hTold.no_data, List.append_nil, hTold.received]
    exact h.count
  complete hState := by
    simp only [hTold.error, hTold.declared, hTold.received]
    exact h.complete (hTold.state ▸ hState)

theorem step_closed (h : Tracks s) (hClosed : ¬s.body.state.Live) :
    s.step http .pollFrame = { s with
      body := (endFrame http s.body).2
      answers := s.answers ++ [(endFrame http s.body).1] } := by
  have hPlain : s.plain.pollNext = (.ready none, s.plain) := by
    rw [RequestBody.pollNext, if_pos (RequestBody.not_live.mp (h.closed hClosed))]
  simp only [step, pollFrame_closed hClosed, hPlain, chunkOf, List.append_nil, Option.toList_some]

theorem tracks_poll (h : Tracks s) : Tracks (s.step http .pollFrame) := by
  by_cases hLive : s.body.state.Live
  · obtain ⟨hPlaced, hPlain, hError⟩ := h.live hLive
    have hPolls := polls fun _ => hPlaced
    simp only [step, pollFrame, hPlain]
    generalize s.body.pollNext = result at hPolls ⊢
    obtain ⟨poll, after⟩ := result
    simp only at hPolls
    cases hPolls with
    | closed hClosed => exact absurd hLive hClosed
    | waits rest _ hAfter =>
        simp only [chunkOf, List.append_nil, Option.toList_none]
        exact ⟨fun _ => ⟨hAfter, rfl, hError⟩, fun hClosed => hClosed, h.same, h.count,
          fun hState => absurd hLive (RequestBody.not_live.mpr (.inl hState))⟩
    | yields chunk inner _ hAfter =>
        simp only [chunkOf, Option.toList_some]
        refine ⟨fun _ => ⟨hAfter, rfl, hError⟩, fun hClosed => hClosed, ?_, ?_, fun hState => ?_⟩
        · rw [dataOf_append_data, h.same]
        · rw [dataOf_append_data, List.length_append, h.count]
          rfl
        · cases hState
    | finishes chunk inner _ hLength =>
        simp only [chunkOf, Option.toList_some]
        refine ⟨fun hNext => absurd hNext (by simp [RequestBody.finish, BodyState.Live]),
          fun hClosed => hClosed, ?_, ?_, fun _ => ⟨hError, fun declared hDeclared => ?_⟩⟩
        · rw [dataOf_append_data, h.same]
        · rw [dataOf_append_data, List.length_append, h.count]
          rfl
        · exact Option.some.inj (hLength.symm.trans hDeclared)
    | fails e inner _ =>
        simp only [chunkOf, Option.toList_some, List.append_nil]
        refine ⟨fun hNext => absurd hNext (by simp [RequestBody.fail, BodyState.Live]),
          fun hClosed => hClosed, ?_, ?_, fun hState => by cases hState⟩
        · rw [dataOf_append_error, h.same]
        · rw [dataOf_append_error, h.count]
          rfl
    | refused message _ _ _ =>
        simp only [chunkOf, Option.toList_some, List.append_nil]
        refine ⟨fun hNext => absurd hNext (by simp [RequestBody.fail, BodyState.Live]),
          fun hClosed => hClosed, ?_, ?_, fun hState => by cases hState⟩
        · rw [dataOf_append_error, h.same]
        · rw [dataOf_append_error, h.count]
          rfl
    | ends found _ _ hLength _ =>
        simp only [chunkOf, Option.toList_some, List.append_nil]
        -- The stream itself stops here; the view goes on behind the end.
        generalize hAfter : RequestBody.finish _ = after
        have hState : after.state = .complete := by rw [← hAfter]; rfl
        have hClosed : ¬after.state.Live := RequestBody.not_live.mpr (.inl hState)
        have hEnded : Tracks { s with body := after, plain := after } := by
          refine ⟨fun hNext => absurd hNext hClosed, fun hNext => hNext, h.same, ?_,
            fun _ => ⟨?_, fun declared hDeclared => ?_⟩⟩
          · rw [h.count, ← hAfter]
            rfl
          · rw [← hAfter]
            exact hError
          · rw [← hAfter] at hDeclared ⊢
            exact hLength declared hDeclared
        exact tracks_closed hEnded hClosed (told_endFrame hClosed)
  · rw [step_closed h hLive]
    exact tracks_closed h hLive (told_endFrame hLive)

theorem tracks_fill (h : Tracks s) (wire : Except Str HeaderBlock) :
    Tracks (s.step http (.fillSlot wire)) where
  live hLive := by
    obtain ⟨hPlaced, hPlain, hError⟩ := h.live hLive
    exact ⟨hPlaced, congrArg (fill · wire) hPlain, hError⟩
  closed := h.closed
  same := h.same
  count := h.count
  complete := h.complete

theorem tracks_step (h : Tracks s) (op : FrameOp) : Tracks (s.step http op) := by
  cases op with
  | pollFrame => exact tracks_poll h
  | fillSlot wire => exact tracks_fill h wire

theorem tracks_run (h : Tracks s) (ops : List FrameOp) : Tracks (s.run http ops) := by
  induction ops generalizing s with
  | nil => exact h
  | cons op rest ih => exact ih (tracks_step h op)

theorem tracks_of_reachable (hReach : (machine http).Reachable s) : Tracks s := by
  refine hReach.invariant ?_ ?_
  · rintro _ ⟨body, hBuilt, rfl⟩
    exact tracks_start hBuilt
  · intro s op s' h _ hStep
    obtain rfl := Option.some.inj hStep
    exact tracks_step h op

/-- No trailers have been refused: the data goes on, or all has been told. -/
def Orderly (s : FrameRun) : Prop :=
  s.body.completedTrailerError = none ∧
    (AllData s.answers ∧ s.body.state ≠ .error ∨ Done s.body ∧ WellFormed s.answers)

theorem Orderly.wellFormed (h : Orderly s) : WellFormed s.answers := by
  rcases h.2 with ⟨hData, -⟩ | ⟨-, hWell⟩
  · exact hData.wellFormed
  · exact hWell

/-- The answer behind the end of a complete body. -/
theorem orderly_endFrame {answers : List FrameItem} {body plain : RequestBody}
    {yielded : List UInt8} (hData : AllData answers) (hState : body.state = .complete)
    (hError : body.completedTrailerError = none) :
    Orderly ⟨(endFrame http body).2, answers ++ [(endFrame http body).1], plain, yielded⟩ := by
  obtain ⟨hDone, hEnds⟩ := @endFrame_complete http body hState hError
  exact ⟨hDone.2.1, .inr ⟨hDone, hData.append_end hEnds⟩⟩

theorem orderly_poll_closed (hTracks : Tracks s) (h : Orderly s) (hClosed : ¬s.body.state.Live) :
    Orderly (s.step http .pollFrame) := by
  rw [step_closed hTracks hClosed]
  obtain ⟨hError, ⟨hData, hState⟩ | ⟨hDone, hWell⟩⟩ := h
  · have hComplete := (RequestBody.not_live.mp hClosed).resolve_right hState
    exact orderly_endFrame hData hComplete hError
  · rw [endFrame_done hDone]
    exact ⟨hError, .inr ⟨hDone, hWell.append_none⟩⟩

theorem orderly_poll_live (hTracks : Tracks s) (h : Orderly s) (hLive : s.body.state.Live)
    (hGuard : ¬Refuses s.body .pollFrame) : Orderly (s.step http .pollFrame) := by
  obtain ⟨hPlaced, hPlain, hError⟩ := hTracks.live hLive
  have hData : AllData s.answers := by
    rcases h.2 with ⟨hData, -⟩ | ⟨hDone, -⟩
    · exact hData
    · exact absurd hLive hDone.1
  have hPolls := polls fun _ => hPlaced
  simp only [step, pollFrame, hPlain]
  generalize s.body.pollNext = result at hPolls ⊢
  obtain ⟨poll, after⟩ := result
  simp only at hPolls
  cases hPolls with
  | closed hClosed => exact absurd hLive hClosed
  | waits rest _ hAfter =>
      simp only [chunkOf, List.append_nil, Option.toList_none]
      exact ⟨hError, .inl ⟨hData, fun hState => RequestBody.not_live.mpr (.inr hState) hLive⟩⟩
  | yields chunk inner _ hAfter =>
      exact ⟨hError, .inl ⟨hData.append chunk, fun hState => by cases hState⟩⟩
  | finishes chunk inner _ hLength =>
      exact ⟨hError, .inl ⟨hData.append chunk, fun hState => by cases hState⟩⟩
  | fails e inner _ =>
      exact ⟨hError, .inr ⟨⟨RequestBody.not_live.mpr (.inr rfl), hError,
        fun hState => by cases hState⟩, hData.append_end (.inr (.inr ⟨_, rfl⟩))⟩⟩
  | refused message _ hEnd hVerdict => exact absurd ⟨hLive, hEnd, message, hVerdict⟩ hGuard
  | ends found _ _ hLength _ => exact orderly_endFrame hData rfl hError

/-- Behaviour of the view that a client of `http_body` counts on, from here on. -/
structure WellBehaved (http : HttpCrate) (s : FrameRun) : Prop where
  wellFormed : WellFormed s.answers
  data : dataOf s.answers = s.yielded
  end_stream : isEndStream s.body = true →
    ∀ ops, ∃ n, (s.run http ops).answers = s.answers ++ List.replicate n none
  size_hint : ∀ remaining, (sizeHint s.body).exact = some remaining →
    ∀ ops, (s.run http ops).body.state = .complete →
      (dataOf (s.run http ops).answers).length = (dataOf s.answers).length + remaining

theorem done_of_isEndStream (h : Tracks s) (hEnd : isEndStream s.body = true) : Done s.body := by
  simp only [isEndStream, Bool.and_eq_true, decide_eq_true_eq, Option.isNone_iff_eq_none] at hEnd
  obtain ⟨hState, hSnapshot⟩ := hEnd
  have hError := (h.complete hState).1
  refine ⟨RequestBody.not_live.mpr (.inl hState), hError, fun _ => ?_⟩
  simpa [completedTrailersSnapshot, hState, hError] using hSnapshot

theorem run_done (h : Tracks s) (hDone : Done s.body) (ops : List FrameOp) :
    ∃ n, (s.run http ops).answers = s.answers ++ List.replicate n none := by
  induction ops generalizing s with
  | nil => exact ⟨0, by simp [run]⟩
  | cons op rest ih =>
      cases op with
      | fillSlot wire => exact ih (tracks_fill h wire) hDone
      | pollFrame =>
          have hStep := @step_closed http s h hDone.1
          rw [endFrame_done hDone] at hStep
          obtain ⟨n, hRest⟩ := ih (@tracks_poll http s h) (by rw [hStep]; exact hDone)
          refine ⟨n + 1, ?_⟩
          rw [run, List.foldl_cons, ← run, hRest, hStep, List.append_assoc]
          rfl

theorem declaredLength_step (h : Tracks s) (op : FrameOp) :
    (s.step http op).body.declaredLength = s.body.declaredLength := by
  cases op with
  | fillSlot wire => rfl
  | pollFrame =>
      by_cases hLive : s.body.state.Live
      · have hPolls := polls fun _ => (h.live hLive).1
        simp only [step, pollFrame]
        generalize s.body.pollNext = result at hPolls ⊢
        obtain ⟨poll, after⟩ := result
        simp only at hPolls
        cases hPolls with
        | ends found _ _ _ _ => exact (told_endFrame (RequestBody.not_live.mpr (.inl rfl))).declared
        | closed hClosed => exact absurd hLive hClosed
        | _ => rfl
      · rw [step_closed h hLive]
        exact (told_endFrame hLive).declared

theorem declaredLength_run (h : Tracks s) (ops : List FrameOp) :
    (s.run http ops).body.declaredLength = s.body.declaredLength := by
  induction ops generalizing s with
  | nil => rfl
  | cons op rest ih => exact (ih (tracks_step h op)).trans (declaredLength_step h op)

theorem answers_run (ops : List FrameOp) :
    ∃ later, (s.run http ops).answers = s.answers ++ later := by
  induction ops generalizing s with
  | nil => exact ⟨[], by simp [run]⟩
  | cons op rest ih =>
      obtain ⟨later, hLater⟩ := @ih (s.step http op)
      cases op with
      | pollFrame => exact ⟨_, hLater.trans (List.append_assoc _ _ _)⟩
      | fillSlot wire => exact ⟨later, hLater⟩

/-- The octets that are declared and not yet received come, if the body ever
completes. -/
theorem length_dataOf_run (h : Tracks s) {remaining : Nat}
    (hHint : (sizeHint s.body).exact = some remaining) (ops : List FrameOp)
    (hComplete : (s.run http ops).body.state = .complete) :
    (dataOf (s.run http ops).answers).length = (dataOf s.answers).length + remaining := by
  cases hDeclared : s.body.declaredLength with
  | none => simp [sizeHint, hDeclared, SizeHint.exact] at hHint
  | some declared =>
      have hRemaining : declared - s.body.bytesReceived = remaining := by
        simpa [sizeHint, hDeclared, SizeHint.exact, SizeHint.withExact] using hHint
      have hAfter := @tracks_run http s h ops
      have hTotal := (hAfter.complete hComplete).2 declared
        ((declaredLength_run h ops).trans hDeclared)
      obtain ⟨later, hLater⟩ := @answers_run http s ops
      have hGrows : s.body.bytesReceived ≤ declared := by
        rw [← hTotal, ← hAfter.count, ← h.count, hLater, dataOf_append, List.length_append]
        exact Nat.le_add_right _ _
      rw [hAfter.count, h.count, hTotal]
      omega

theorem orderly_of_reachableUnder
    (hReach : (machine http).ReachableUnder (fun s op => ¬Refuses s.body op) s) : Orderly s := by
  have hBoth : Tracks s ∧ Orderly s := by
    refine @Machine.ReachableUnder.invariant _ _ (machine http) _
      (fun s => Tracks s ∧ Orderly s) ?_ ?_ s hReach
    · rintro _ ⟨body, hBuilt, rfl⟩
      obtain ⟨hState, -, hError, -⟩ := placed_of_built hBuilt
      exact ⟨tracks_start hBuilt, hError,
        .inl ⟨fun _ h => absurd h List.not_mem_nil, fun h => by cases hState.symm.trans h⟩⟩
    · rintro s op s' ⟨hTracks, hOrderly⟩ hGuard hStep
      obtain rfl := Option.some.inj hStep
      refine ⟨tracks_step hTracks op, ?_⟩
      cases op with
      | fillSlot wire => exact hOrderly
      | pollFrame =>
          by_cases hLive : s.body.state.Live
          · exact orderly_poll_live hTracks hOrderly hLive hGuard
          · exact orderly_poll_closed hTracks hOrderly hLive
  exact hBoth.2

/-- A refused poll stores the failure, which the next poll tells once more. -/
theorem refused_twice (h : Tracks s) (hRefuses : Refuses s.body .pollFrame) :
    ∃ first second, ((s.step http .pollFrame).step http .pollFrame).answers =
      s.answers ++ [some (.error first), some (.error second)] := by
  obtain ⟨hLive, hEnd, message, hVerdict⟩ := hRefuses
  have hTracks := @tracks_poll http s h
  have hStep : ∃ first, (s.step http .pollFrame).answers = s.answers ++ [some (.error first)] ∧
      (s.step http .pollFrame).body.state = .error ∧
      (s.step http .pollFrame).body.completedTrailerError = some message := by
    simp only [step, pollFrame, pollNext_eq_pollEnd hLive hEnd, pollEnd_refused hVerdict]
    exact ⟨_, rfl, rfl, trivial⟩
  obtain ⟨first, hFirst, hState, hError⟩ := hStep
  have hClosed : ¬(s.step http .pollFrame).body.state.Live :=
    RequestBody.not_live.mpr (.inr hState)
  refine ⟨first, ⟨"invalid request trailers: ".toList ++ message⟩, ?_⟩
  rw [step_closed hTracks hClosed, hFirst]
  simp only [endFrame, hError, List.append_assoc]
  rfl

/-- Where no poll meets refused trailers, the view is well behaved in every
state. A poll that meets them and one more tell two errors. -/
theorem wellBehaved_and_refused (http : HttpCrate) :
    (∀ s, (machine http).ReachableUnder (fun s op => ¬Refuses s.body op) s → WellBehaved http s) ∧
    ∀ s, (machine http).Reachable s → Refuses s.body .pollFrame →
      ¬WellFormed ((s.step http .pollFrame).step http .pollFrame).answers := by
  constructor
  · intro s hReach
    have hTracks := tracks_of_reachable hReach.reachable
    exact ⟨(orderly_of_reachableUnder hReach).wellFormed, hTracks.same,
      fun hEnd => run_done hTracks (done_of_isEndStream hTracks hEnd),
      fun _ hHint => length_dataOf_run hTracks hHint⟩
  · intro s hReach hRefuses hWell
    obtain ⟨first, second, hAnswers⟩ :=
      @refused_twice http s (tracks_of_reachable hReach) hRefuses
    have hCount := hWell.countP_isError
    rw [hAnswers, List.countP_append] at hCount
    have hTwo : [some (.error first), some (.error second)].countP isError = 2 := rfl
    omega

/-- Any map is built as it is given. -/
def plainHttp : HttpCrate := ⟨fun name => some (name.map fun b => Char.ofNat b.toNat), some⟩

/-- A network body of one chunk, with an empty trailer block in its slot. -/
def chunkBody : RequestBody :=
  .fromIncomingWithSharedAndWireSlot [.chunk [104, 105]] (some 2) 16 {} (some (.ok []))

theorem chunkBody_wellBehaved :
    WellBehaved plainHttp ((start chunkBody).run plainHttp [.pollFrame, .pollFrame, .pollFrame]) ∧
      ((start chunkBody).run plainHttp [.pollFrame, .pollFrame, .pollFrame]).answers =
        [some (.ok (.data [104, 105])), some (.ok (.trailers [])), none] := by
  refine ⟨(wellBehaved_and_refused plainHttp).1 _ ?_, by decide +kernel⟩
  have hStart : (machine plainHttp).ReachableUnder (fun s op => ¬Refuses s.body op)
      (start chunkBody) := .start ⟨chunkBody, .incoming _ _ _ _ _, rfl⟩
  have hChunk : ¬Refuses (start chunkBody).body .pollFrame := fun h => h.2.1
  have hEnd : ¬Refuses ((start chunkBody).run plainHttp [.pollFrame]).body .pollFrame := by
    rintro ⟨-, -, message, hVerdict⟩
    have hOk : ((start chunkBody).run plainHttp
        [.pollFrame]).body.trailerVerdict.toOption.isSome = true := by decide +kernel
    rw [hVerdict] at hOk
    cases hOk
  have hDone : ¬Refuses ((start chunkBody).run plainHttp [.pollFrame, .pollFrame]).body
      .pollFrame := fun h => RequestBody.not_live.mpr (.inl (by decide +kernel)) h.1
  exact .step (.step (.step hStart hChunk rfl) hEnd rfl) hDone rfl

/-- A network body at its end, with a failure in its slot. -/
def refusedBody : RequestBody :=
  .fromIncomingWithSharedAndWireSlot [] none u64Max {} (some (.error repeatedTrailerBlock))

theorem refusedBody_not_wellFormed :
    Built refusedBody ∧
      ¬WellFormed ((start refusedBody).run plainHttp [.pollFrame, .pollFrame]).answers := by
  refine ⟨.incoming _ _ _ _ _, fun hWell => ?_⟩
  have hCount := hWell.countP_isError
  have hTwo : ((start refusedBody).run plainHttp [.pollFrame, .pollFrame]).answers.countP
      isError = 2 := by decide +kernel
  omega

end FrameRun

end Eggserve.Server
