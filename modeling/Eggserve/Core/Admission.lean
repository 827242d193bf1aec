import Eggserve.Core.RequestHead
import Eggserve.Server.EarlyAnswer

/-! The admission of a request by the pipeline that serves HTTP/2: the checks up
to the construction of the body. -/
namespace Eggserve.Core
open Rust Eggserve.Primitives Eggserve.Server

structure PipelineSettings where
  headLimits : HeadLimits
  maxBodyBytes : Nat
  deriving DecidableEq

/-- Whether the stream has ended is asked of the transport. -/
def admitRequest (settings : PipelineSettings) (requestBodyPolicy : RequestHead → RequestBodyPolicy)
    (request : HyperRequest) (bodyIsEndStream : Bool) : Except EarlyAnswer AdmittedRequest := do
  let head ← (convertRequestHead request settings.headLimits).mapError fun error =>
    ⟨.headRejected error, wireStatus error.status, .keepAlive⟩
  failIf (traceContent head request.headers = true) ⟨.traceContent, 400, .closeAndCancelBody⟩
  let policy := selectBodyPolicy (requestBodyPolicy head) settings.maxBodyBytes
  (validateBodyFraming request.headers).mapError fun error =>
    ⟨.framingRejected error, wireStatus error.status, .keepAlive⟩
  let declared := declaredLength request.headers
  checkDeclaredLength policy declared
  let expect := expectations request.headers
  failIf (expect.hasUnknown = true) ⟨.unknownExpect, 417, .keepAlive⟩
  failIf (policy.isReject = true ∧ expect.has100Continue = true)
    ⟨.continueRejected, 413, .closeAndCancelBody⟩
  -- HTTP/2 can carry data without a length, so the state of the stream decides.
  let hasBody := if head.version = .http2 then !bodyIsEndStream else
    declared.any (0 < ·) || request.headers.containsKey "transfer-encoding"
  failIf (policy.isReject = true ∧ hasBody = true) ⟨.bodyRejected, 413, .closeAndCancelBody⟩
  return ⟨head, policy, declared, hasBody⟩

end Eggserve.Core
