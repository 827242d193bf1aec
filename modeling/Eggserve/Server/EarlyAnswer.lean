import Eggserve.Primitives.RequestBody
import Eggserve.Server.RequestHead

/-! The answers that the pipeline gives before it invokes the service and
without reading the body, and what becomes of the connection after each. -/
namespace Eggserve.Primitives

inductive RequestBodyPolicy where
  | reject
  | buffer (maxBytes : Nat)
  | stream (maxBytes : Nat)
  deriving DecidableEq, Repr

namespace RequestBodyPolicy

def isReject : RequestBodyPolicy → Bool
  | reject => true
  | _ => false

def maxBytes : RequestBodyPolicy → Option Nat
  | reject => none
  | buffer maxBytes => some maxBytes
  | stream maxBytes => some maxBytes

end RequestBodyPolicy

/-- The failures of a body: those of the runtime, and those its consumers meet. -/
inductive BodyFailure where
  | rejectedByPolicy
  | declaredLengthTooLarge (declared limit : Nat)
  | readTimeout
  | invalidChunkFraming (message : Rust.Str)
  | cancelled
  | disconnected
  | consumption (error : RequestBodyError)
  deriving DecidableEq

namespace BodyFailure

def isTransport : BodyFailure → Bool
  | consumption (.transport _) => true
  | _ => false

def toStatusCode : BodyFailure → Nat
  | rejectedByPolicy => 413
  | declaredLengthTooLarge _ _ => 413
  | readTimeout => 408
  | invalidChunkFraming _ => 400
  | cancelled => 499
  | disconnected => 499
  | consumption (.limitExceeded _ _) => 413
  | consumption (.prematureEof _ _) => 400
  | consumption (.lengthMismatch _ _) => 400
  | consumption .alreadyConsumed => 500
  | consumption .mixedConsumptionMode => 500
  | consumption (.transport _) => 500
  | consumption (.invalidTrailers _) => 400
  | consumption .trailersNotReady => 500

end BodyFailure
end Eggserve.Primitives

namespace Eggserve.Server
open Rust Eggserve.Primitives

/-- The service's preference under the runtime's ceiling. -/
def selectBodyPolicy (servicePolicy : RequestBodyPolicy) (maxBodyBytes : Nat) : RequestBodyPolicy :=
  match servicePolicy with
  | .reject => .reject
  | .buffer maxBytes =>
      let effective := min maxBytes maxBodyBytes
      if effective = 0 then .reject else .buffer effective
  | .stream maxBytes =>
      let effective := min maxBytes maxBodyBytes
      if effective = 0 then .reject else .stream effective

def selectBodyPolicyWithCeiling (servicePolicy : RequestBodyPolicy) (maxBodyBytes : Option Nat) :
    RequestBodyPolicy :=
  match maxBodyBytes with
  | some limit => selectBodyPolicy servicePolicy limit
  | none => servicePolicy

structure LifecycleDisposition where
  closeAfterResponse : Bool
  cancelRequestBody : Bool
  gracefulDrain : Bool
  terminateTransport : Bool
  deriving DecidableEq, Repr

namespace LifecycleDisposition

def keepAlive : LifecycleDisposition := ⟨false, false, false, false⟩

def closeOnly : LifecycleDisposition := { keepAlive with closeAfterResponse := true }

def closeAndCancelBody : LifecycleDisposition :=
  { keepAlive with closeAfterResponse := true, cancelRequestBody := true }

/-- The connection is closed and the unread body is given up. -/
def LeavesNothingUnread (disposition : LifecycleDisposition) : Prop :=
  disposition.closeAfterResponse = true ∧ disposition.cancelRequestBody = true

end LifecycleDisposition

def bodyErrorDisposition (failure : BodyFailure) : LifecycleDisposition :=
  let status := failure.toStatusCode
  if status = 499 ∨ failure.isTransport = true ∨ status = 400 ∨ status = 408 ∨ status = 413 ∨
      status = 505 then
    .closeAndCancelBody
  else .keepAlive

/-- What the pipeline reads of the configuration and of the connection. -/
structure PipelineSettings where
  requestTargetCeiling : PolicyOwner
  maxRequestTargetBytes : Nat
  http1RequestTargetMode : Http1RequestTargetMode
  requestHeaderBytesOwner : PolicyOwner
  maxHeaderBytes : Nat
  scheme : Scheme
  maxBodyBytes : Option Nat
  maxRequestsPerConnection : Option Nat
  deriving DecidableEq

namespace PipelineSettings

/-- The ceilings that the runtime itself enforces. -/
def headLimits (settings : PipelineSettings) : HeadLimits where
  maxTargetBytes :=
    if settings.requestTargetCeiling = .eggServe then some settings.maxRequestTargetBytes else none
  targetMode := settings.http1RequestTargetMode
  maxHeaderBytes :=
    if settings.requestHeaderBytesOwner = .eggServe then some settings.maxHeaderBytes else none
  expectedScheme := settings.scheme

end PipelineSettings

/-- `finish` of the guard: the request that reaches the limit of the connection
closes it whatever the branch asked for. -/
def finishedDisposition (settings : PipelineSettings) (completed : Nat)
    (disposition : LifecycleDisposition) : LifecycleDisposition :=
  if settings.maxRequestsPerConnection.any (· ≤ completed + 1) then
    { LifecycleDisposition.closeOnly with gracefulDrain := true, terminateTransport := true }
  else disposition

inductive EarlyBranch where
  | headRejected (error : ServiceError)
  | traceContent
  | framingRejected (error : ServiceError)
  | lengthTooLarge (declared limit : Nat)
  | unknownExpect
  | continueRejected
  | bodyRejected
  deriving DecidableEq

/-- An early return: the branch, the status of the answer and the disposition it
is finished with. -/
structure EarlyAnswer where
  branch : EarlyBranch
  status : Nat
  disposition : LifecycleDisposition
  deriving DecidableEq

/-- The status of a rejection on the wire: 499 is internal. -/
def wireStatus (raw : Nat) : Nat := if raw = 499 then 500 else raw

/-- What the pipeline goes on with when no branch answers early. -/
structure AdmittedRequest where
  head : RequestHead
  policy : RequestBodyPolicy
  declaredLength : Option Nat
  hasBody : Bool

/-- The test on the content of a `TRACE`. -/
def traceContent (head : RequestHead) (headers : HyperHeaders) : Bool :=
  head.method = "TRACE" &&
    (((headers.get "content-length").bind hyperToStr).any (fun text =>
        isDigits text && (parseU64 text).any (0 < ·)) ||
      head.version ≠ .http2 && headers.containsKey "transfer-encoding")

structure ExpectScan where
  has100Continue : Bool
  hasUnknown : Bool
  deriving DecidableEq

def isContinueToken (value : Str) : Bool := eqIgnoreAsciiCase value "100-continue"

/-- The loop over the `Expect` fields; an unknown or opaque value ends it. -/
def scanExpect (has100Continue : Bool) : List (List UInt8) → ExpectScan
  | [] => ⟨has100Continue, false⟩
  | expect :: rest =>
      match hyperToStr expect with
      | none => ⟨has100Continue, true⟩
      | some text =>
          let value := trim text
          if isContinueToken value = false ∧ value ≠ [] then ⟨has100Continue, true⟩
          else scanExpect (has100Continue || isContinueToken value) rest

def expectations (headers : HyperHeaders) : ExpectScan := scanExpect false (headers.getAll "expect")

/-- The declared length and the limit it exceeds. -/
def exceededLimit (policy : RequestBodyPolicy) (declared : Option Nat) : Option (Nat × Nat) :=
  match declared, policy.maxBytes with
  | some length, some limit => if limit < length then some (length, limit) else none
  | _, _ => none

def rejectLength (declared limit : Nat) : EarlyAnswer :=
  let failure := BodyFailure.declaredLengthTooLarge declared limit
  ⟨.lengthTooLarge declared limit, wireStatus failure.toStatusCode, bodyErrorDisposition failure⟩

def checkDeclaredLength (policy : RequestBodyPolicy) (declared : Option Nat) :
    Except EarlyAnswer Unit :=
  match exceededLimit policy declared with
  | some (length, limit) => .error (rejectLength length limit)
  | none => .ok ()

/-- The pipeline up to the construction of the body. -/
def admitRequest (settings : PipelineSettings) (requestBodyPolicy : RequestHead → RequestBodyPolicy)
    (request : HyperRequest) : Except EarlyAnswer AdmittedRequest := do
  let head ← (convertRequestHead request settings.headLimits).mapError fun error =>
    ⟨.headRejected error, wireStatus error.status, .keepAlive⟩
  failIf (traceContent head request.headers = true) ⟨.traceContent, 400, .closeAndCancelBody⟩
  let policy := selectBodyPolicyWithCeiling (requestBodyPolicy head) settings.maxBodyBytes
  (validateBodyFraming request.headers).mapError fun error =>
    ⟨.framingRejected error, wireStatus error.status, .keepAlive⟩
  let declared := declaredLength request.headers
  checkDeclaredLength policy declared
  let expect := expectations request.headers
  failIf (expect.hasUnknown = true) ⟨.unknownExpect, 417, .keepAlive⟩
  failIf (policy.isReject = true ∧ expect.has100Continue = true)
    ⟨.continueRejected, 413, .closeAndCancelBody⟩
  let hasBody := declared.any (0 < ·) || request.headers.containsKey "transfer-encoding"
  failIf (policy.isReject = true ∧ hasBody = true) ⟨.bodyRejected, 413, .closeAndCancelBody⟩
  return ⟨head, policy, declared, hasBody⟩

/-! Which branch answers. -/

section

variable {settings : PipelineSettings} {requestBodyPolicy : RequestHead → RequestBodyPolicy}
  {request : HyperRequest}

def HyperRequest.isHttp1 (request : HyperRequest) : Bool :=
  request.version = .http10 || request.version = .http11

/-- A transfer coding, or a length that is not a single valid zero. -/
def CarriesBodyFraming (headers : HyperHeaders) : Prop :=
  headers.containsKey "transfer-encoding" = true ∨
    headers.contentLengths ≠ [] ∧
      ¬∃ text, headers.contentLengths = [utf8 text] ∧ isDigits text = true ∧ decimalValue text = 0

/-- The limit that the declared length of the request exceeds, if any. -/
def exceededBy (settings : PipelineSettings) (requestBodyPolicy : RequestHead → RequestBodyPolicy)
    (head : RequestHead) (headers : HyperHeaders) : Option (Nat × Nat) :=
  exceededLimit (selectBodyPolicyWithCeiling (requestBodyPolicy head) settings.maxBodyBytes)
    (declaredLength headers)

/-- The request meets a branch that keeps the connection: its head cannot be
converted, or its framing is invalid, or it carries an unknown expectation and
no other branch comes first. -/
def MeetsKeepAlive (settings : PipelineSettings)
    (requestBodyPolicy : RequestHead → RequestBodyPolicy) (request : HyperRequest) : Prop :=
  (∃ error, convertRequestHead request settings.headLimits = .error error) ∨
    ∃ head, convertRequestHead request settings.headLimits = .ok head ∧
      traceContent head request.headers = false ∧
      ((∃ error, validateBodyFraming request.headers = .error error) ∨
        exceededBy settings requestBodyPolicy head request.headers = none ∧
          (expectations request.headers).hasUnknown = true)

/-- Every early answer to a request with body framing closes the connection,
also after `finish`, and cancels the body. -/
def EarlyAnswersClose (settings : PipelineSettings)
    (requestBodyPolicy : RequestHead → RequestBodyPolicy) (request : HyperRequest) : Prop :=
  request.isHttp1 = true → CarriesBodyFraming request.headers → ∀ answer,
    admitRequest settings requestBodyPolicy request = .error answer →
      answer.disposition.LeavesNothingUnread ∧ ∀ completed,
        (finishedDisposition settings completed answer.disposition).closeAfterResponse = true

theorem leavesNothingUnread_closeAndCancelBody :
    LifecycleDisposition.closeAndCancelBody.LeavesNothingUnread := ⟨rfl, rfl⟩

theorem not_leavesNothingUnread_keepAlive :
    ¬LifecycleDisposition.keepAlive.LeavesNothingUnread := nofun

/-- The limit on requests only ever closes. -/
theorem closes_finishedDisposition (settings : PipelineSettings) (completed : Nat)
    {disposition : LifecycleDisposition} (h : disposition.closeAfterResponse = true) :
    (finishedDisposition settings completed disposition).closeAfterResponse = true := by
  unfold finishedDisposition
  split
  · rfl
  · exact h

theorem checkDeclaredLength_eq_ok {policy : RequestBodyPolicy} {declared : Option Nat} :
    checkDeclaredLength policy declared = .ok () ↔ exceededLimit policy declared = none := by
  unfold checkDeclaredLength
  cases exceededLimit policy declared <;> simp

theorem checkDeclaredLength_eq_error {policy : RequestBodyPolicy} {declared : Option Nat}
    {answer : EarlyAnswer} :
    checkDeclaredLength policy declared = .error answer ↔
      ∃ length limit, exceededLimit policy declared = some (length, limit) ∧
        rejectLength length limit = answer := by
  unfold checkDeclaredLength
  cases exceededLimit policy declared with
  | none => simp
  | some pair => simp [Prod.ext_iff]

theorem leavesNothingUnread_rejectLength (declared limit : Nat) :
    (rejectLength declared limit).disposition.LeavesNothingUnread :=
  leavesNothingUnread_closeAndCancelBody

/-- With a converted head the later branches decide. -/
theorem meetsKeepAlive_iff {head : RequestHead}
    (hHead : convertRequestHead request settings.headLimits = .ok head) :
    MeetsKeepAlive settings requestBodyPolicy request ↔
      traceContent head request.headers = false ∧
        ((∃ error, validateBodyFraming request.headers = .error error) ∨
          exceededBy settings requestBodyPolicy head request.headers = none ∧
            (expectations request.headers).hasUnknown = true) := by
  simp [MeetsKeepAlive, hHead]

/-- An early answer leaves the body unread on an open connection exactly where
a branch that keeps it is met. -/
theorem leavesNothingUnread_iff {answer : EarlyAnswer}
    (h : admitRequest settings requestBodyPolicy request = .error answer) :
    answer.disposition.LeavesNothingUnread ↔
      ¬MeetsKeepAlive settings requestBodyPolicy request := by
  have hKeeps := iff_of_false not_leavesNothingUnread_keepAlive
    (b := ¬MeetsKeepAlive settings requestBodyPolicy request)
  have hCloses := iff_of_true leavesNothingUnread_closeAndCancelBody
    (b := ¬MeetsKeepAlive settings requestBodyPolicy request)
  rw [admitRequest] at h
  rcases bind_eq_error.mp h with hHead | ⟨head, hHead, h⟩
  · obtain ⟨error, hError, rfl⟩ := mapError_eq_error.mp hHead
    exact hKeeps (not_not_intro (Or.inl ⟨error, hError⟩))
  rw [mapError_eq_ok] at hHead
  rw [meetsKeepAlive_iff hHead] at hKeeps hCloses ⊢
  rcases check_bind_eq_error.mp h with hTrace | ⟨hTrace, h⟩
  · obtain ⟨hContent, rfl⟩ := failIf_eq_error.mp hTrace
    exact hCloses (by simp [hContent])
  rw [failIf_eq_ok, Bool.not_eq_true] at hTrace
  rcases check_bind_eq_error.mp h with hFraming | ⟨hFraming, h⟩
  · obtain ⟨error, hError, rfl⟩ := mapError_eq_error.mp hFraming
    exact hKeeps (not_not_intro ⟨hTrace, Or.inl ⟨error, hError⟩⟩)
  rw [mapError_eq_ok] at hFraming
  rcases check_bind_eq_error.mp h with hLength | ⟨hLength, h⟩
  · obtain ⟨length, limit, hExceeded, rfl⟩ := checkDeclaredLength_eq_error.mp hLength
    exact hCloses (by simp [hFraming, exceededBy, hExceeded])
  rw [checkDeclaredLength_eq_ok] at hLength
  rcases check_bind_eq_error.mp h with hUnknown | ⟨hUnknown, h⟩
  · obtain ⟨hToken, rfl⟩ := failIf_eq_error.mp hUnknown
    exact hKeeps (not_not_intro ⟨hTrace, Or.inr ⟨hLength, hToken⟩⟩)
  rw [failIf_eq_ok] at hUnknown
  have hPassed : ¬(traceContent head request.headers = false ∧
      ((∃ error, validateBodyFraming request.headers = .error error) ∨
        exceededBy settings requestBodyPolicy head request.headers = none ∧
          (expectations request.headers).hasUnknown = true)) := by
    simp [hFraming, hUnknown]
  rcases check_bind_eq_error.mp h with hContinue | ⟨-, h⟩
  · obtain ⟨-, rfl⟩ := failIf_eq_error.mp hContinue
    exact hCloses hPassed
  rcases check_bind_eq_error.mp h with hBody | ⟨-, h⟩
  · obtain ⟨-, rfl⟩ := failIf_eq_error.mp hBody
    exact hCloses hPassed
  cases h

/-- The branches that keep the connection do answer. -/
theorem exists_answer_of_meetsKeepAlive
    (h : MeetsKeepAlive settings requestBodyPolicy request) :
    ∃ answer, admitRequest settings requestBodyPolicy request = .error answer := by
  cases hAdmit : admitRequest settings requestBodyPolicy request with
  | error answer => exact ⟨answer, rfl⟩
  | ok admitted =>
      exfalso
      rw [admitRequest] at hAdmit
      obtain ⟨head, hHead, hAdmit⟩ := bind_eq_ok.mp hAdmit
      rw [mapError_eq_ok] at hHead
      obtain ⟨-, hAdmit⟩ := check_bind_eq_ok.mp hAdmit
      obtain ⟨hFraming, hAdmit⟩ := check_bind_eq_ok.mp hAdmit
      rw [mapError_eq_ok] at hFraming
      obtain ⟨-, hAdmit⟩ := check_bind_eq_ok.mp hAdmit
      obtain ⟨hUnknown, -⟩ := check_bind_eq_ok.mp hAdmit
      rw [failIf_eq_ok] at hUnknown
      rw [meetsKeepAlive_iff hHead] at h
      rcases h with ⟨-, ⟨error, hError⟩ | ⟨-, hToken⟩⟩
      · rw [hFraming] at hError
        cases hError
      · exact hUnknown hToken

/-- The early answers to a request with body framing close its connection and
cancel its body exactly when no branch that keeps the connection is met. -/
theorem early_answers_close_iff (settings : PipelineSettings)
    (requestBodyPolicy : RequestHead → RequestBodyPolicy) (request : HyperRequest) :
    EarlyAnswersClose settings requestBodyPolicy request ↔
      ¬(request.isHttp1 = true ∧ CarriesBodyFraming request.headers ∧
        MeetsKeepAlive settings requestBodyPolicy request) := by
  constructor
  · rintro hClose ⟨hHttp1, hFraming, hKept⟩
    obtain ⟨answer, hAnswer⟩ := exists_answer_of_meetsKeepAlive hKept
    have hRead := (hClose hHttp1 hFraming answer hAnswer).1
    exact (leavesNothingUnread_iff hAnswer).mp hRead hKept
  · intro hNever hHttp1 hFraming answer hAnswer
    have hRead : answer.disposition.LeavesNothingUnread :=
      (leavesNothingUnread_iff hAnswer).mpr fun hKept => hNever ⟨hHttp1, hFraming, hKept⟩
    exact ⟨hRead, fun completed => closes_finishedDisposition settings completed hRead.1⟩

end

/-- Limits of the runtime's own, with a body ceiling of one mebibyte. -/
def plainSettings : PipelineSettings where
  requestTargetCeiling := .eggServe
  maxRequestTargetBytes := 8192
  http1RequestTargetMode := .originOnly
  requestHeaderBytesOwner := .eggServe
  maxHeaderBytes := 65536
  scheme := .http
  maxBodyBytes := some 1048576
  maxRequestsPerConnection := none

/-- `POST / HTTP/1.1` with five octets of content and an expectation nobody knows. -/
def unknownExpectRequest : HyperRequest where
  method := "POST"
  version := .http11
  uri := ⟨none, none, some ['/'], ['/']⟩
  headers := [⟨"content-length", utf8 ("5" : Str)⟩, ⟨"expect", utf8 ("x" : Str)⟩]

/-- The unknown expectation is answered on a connection that stays open, with
the five octets of the body unread. -/
theorem unknown_expect_keeps_connection :
    admitRequest plainSettings (fun _ => .stream 1024) unknownExpectRequest =
        .error ⟨.unknownExpect, 417, .keepAlive⟩ ∧
      ¬EarlyAnswersClose plainSettings (fun _ => .stream 1024) unknownExpectRequest := by
  have hAnswer : admitRequest plainSettings (fun _ => .stream 1024) unknownExpectRequest =
      .error ⟨.unknownExpect, 417, .keepAlive⟩ := by rfl
  refine ⟨hAnswer, fun hClose => ?_⟩
  have hFraming : CarriesBodyFraming unknownExpectRequest.headers := by
    right
    have hFive : unknownExpectRequest.headers.contentLengths = [utf8 ("5" : Str)] := by decide
    rw [hFive]
    refine ⟨nofun, ?_⟩
    rintro ⟨text, hText, -, hZero⟩
    rw [← utf8_injective (List.singleton_inj.mp hText)] at hZero
    revert hZero
    decide
  exact not_leavesNothingUnread_keepAlive (hClose (by decide) hFraming _ hAnswer).1

end Eggserve.Server
