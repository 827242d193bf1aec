import Eggserve.Core.Admission
import Eggserve.H3.ContentLength
import Eggserve.H3.RequestHead

/-! The admission of a request over HTTP/3, against the pipelines of HTTP/1 and
HTTP/2. -/
namespace Eggserve.H3
open Rust Eggserve.Primitives Eggserve.Server

structure HandlerSettings where
  headLimits : HeadLimits
  maxRequestBodyBytes : Nat
  deriving DecidableEq

/-- The answer of the transport to the first read of data. -/
inductive DataProbe where
  | data
  | finished
  | failed
  | timedOut
  deriving DecidableEq, Repr

/-- What is decided before the service is invoked. A `CONNECT` goes another way
over HTTP/3. -/
inductive Decision where
  | reject (status : Nat)
  | invoke (policy : RequestBodyPolicy) (declaredLength : Option Nat)
  | connect
  deriving DecidableEq

/-- Under a reject policy one read tells whether there is content. -/
def probeContent (probe : DataProbe) (policy : RequestBodyPolicy) (declared : Option Nat) :
    Decision :=
  match probe with
  | .data => .reject 413
  | .finished => .invoke policy declared
  | .failed => .reject 500
  | .timedOut => .reject 408

/-- The start of `handle_request`. -/
def admitRequest (settings : HandlerSettings) (requestBodyPolicy : RequestHead → RequestBodyPolicy)
    (request : HyperRequest) (probe : DataProbe) : Decision :=
  match convertRequestHead request settings.headLimits with
  | .error error => .reject error.status
  | .ok head =>
      if head.method = "CONNECT" then .connect
      else
        match declaredContentLength request.headers with
        | .error error => .reject error.status
        | .ok declared =>
            let policy := selectBodyPolicy (requestBodyPolicy head) settings.maxRequestBodyBytes
            if (exceededLimit policy declared).isSome then .reject 413
            else if policy.isReject = true ∧ declared.any (0 < ·) = true then .reject 413
            else if policy.isReject then probeContent probe policy declared
            else .invoke policy declared

/-- Fields of the connection, and the authority, which HTTP/2 and HTTP/3 carry
outside the fields. -/
def isHopField (name : Str) : Bool :=
  ["connection", "keep-alive", "proxy-connection", "transfer-encoding", "upgrade", "te",
    "host"].any fun hop : String => eqIgnoreAsciiCase name hop

/-- The fields declare this much content and no transfer coding. -/
structure Carries (headers : HyperHeaders) (content : Nat) : Prop where
  no_coding : headers.containsKey "transfer-encoding" = false
  absent : content = 0 → headers.contentLengths = []
  present : 0 < content → ∃ text, isDigits text = true ∧ decimalValue text = content ∧
    headers.contentLengths = [utf8 text]

section Refusals

variable {message : Str}

end Refusals

namespace Carries

variable {headers : HyperHeaders} {content : Nat}

/-- Beyond 64 bits no pipeline reads a length. -/
theorem overflow (h : Carries headers content) (hWord : u64Max < content) :
    validateBodyFraming headers = .error (ServiceError.rejected 400 "invalid Content-Length") ∧
      declaredContentLength headers =
        .error (ServiceError.rejected 400 "invalid Content-Length header") := by
  obtain ⟨text, hDigits, rfl, hLengths⟩ := h.present (Nat.zero_lt_of_lt hWord)
  have hParse : parseU64 text = none := by
    rw [parseU64_of_isDigits hDigits, if_neg (Nat.not_le.mpr hWord)]
  constructor
  · rw [validateBodyFraming, check_bind_eq_error]
    refine Or.inr ⟨failIf_eq_ok.mpr fun hBoth => ?_, ?_⟩
    · rw [h.no_coding] at hBoth
      exact absurd hBoth.1 Bool.false_ne_true
    rw [check_bind_eq_error]
    refine Or.inr ⟨rejectRepeated_eq_ok.mpr (by simp [hLengths]), failIf_eq_error.mpr ⟨?_, rfl⟩⟩
    simp [hLengths, validLength, hyperToStr_of_isDigits hDigits, hParse]
  · rw [declaredContentLength, check_bind_eq_error]
    refine Or.inr ⟨failIf_eq_ok.mpr (by simp [hLengths]), ?_⟩
    simp only [hLengths, List.head?_cons, hyperToStr_of_isDigits hDigits, Option.bind_some, hParse]

end Carries

/-! A chain of checks decides with the first one that fails. -/

section Chain

variable {rest : Unit → Except EarlyAnswer AdmittedRequest}

end Chain

section Decisions

variable {requestBodyPolicy : RequestHead → RequestBodyPolicy} {request : HyperRequest}
  {head : RequestHead} {policy : RequestBodyPolicy} {content ceiling : Nat}

end Decisions

section Alike

variable {headers : HyperHeaders} {policy : RequestBodyPolicy} {content status : Nat}

/-- The length travels with the fields. -/
theorem Carries.transfer {others : HyperHeaders} (h : Carries headers content)
    (hFields : ∀ name, isHopField name = false → others.getAll name = headers.getAll name)
    (hCoding : others.containsKey "transfer-encoding" = false) : Carries others content := by
  have hLengths : others.contentLengths = headers.contentLengths := hFields _ (by decide)
  refine ⟨hCoding, fun hZero => ?_, fun hPos => ?_⟩
  · rw [hLengths, h.absent hZero]
  · rw [hLengths]
    exact h.present hPos

end Alike

end Eggserve.H3
