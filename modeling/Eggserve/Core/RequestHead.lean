import Eggserve.Server.RequestHead

/-! The head conversion of the pipeline that serves HTTP/2. It also takes
HTTP/1, whose absolute form it always refuses. -/
namespace Eggserve.Core
open Rust Eggserve.Primitives Eggserve.Server

structure HeadLimits where
  maxTargetBytes : Nat
  maxHeaderBytes : Nat
  expectedScheme : Scheme
  deriving DecidableEq

/-- The target, without scheme and authority. -/
def rawTarget (uri : HyperUri) : Str := uri.pathAndQuery.getD ['/']

def checkTargetForm (request : HyperRequest) (version : HttpVersion) (limits : HeadLimits) :
    Except ServiceError Unit := do
  failIf (limits.maxTargetBytes < (utf8 (rawTarget request.uri)).length)
    (ServiceError.rejected 414 "request target too long")
  failIf (request.uri.authority.any (fun text => limits.maxTargetBytes < (utf8 text).length) = true)
    (ServiceError.rejected 414 "request target too long")
  failIf (version ≠ .http2 ∧ request.uri.scheme.isSome = true)
    (ServiceError.rejected 400 "absolute-form request target not allowed")
  failIf (version = .http2 ∧
      request.uri.scheme.any (fun text => !eqIgnoreAsciiCase text limits.expectedScheme.asStr) = true)
    (ServiceError.rejected 400 "conflicting request scheme")
  failIf (rawTarget request.uri = "*") (methodNotAllowed request.method)
  failIf (version ≠ .http2 ∧ request.uri.authority.isSome = true ∧
      connectAuthorityForm request version = false)
    (methodNotAllowed request.method)

def convertTarget (request : HyperRequest) (version : HttpVersion) :
    Except ServiceError RequestTarget :=
  if connectAuthorityForm request version then
    (RequestTarget.parse "/").mapError invalidTarget
  else (RequestTarget.parse (rawTarget request.uri)).mapError invalidTarget

/-- The loops over the fields and over the `Host` values are those of the other
pipeline. -/
def convertRequestHead (request : HyperRequest) (limits : HeadLimits) :
    Except ServiceError RequestHead := do
  failIf (isHttpToken request.method = false)
    (ServiceError.rejected 400 (("invalid method: " : Str) ++ request.method))
  let version ← httpVersion request.version
  checkTargetForm request version limits
  let target ← convertTarget request version
  let headers ← convertHeaders ⟨none, .originOnly, some limits.maxHeaderBytes, limits.expectedScheme⟩
    request.headers
  let authority ← convertAuthority request
  return ⟨request.method, target, version, headers, authority⟩

theorem convertRequestHead_eq_ok {request : HyperRequest} {limits : HeadLimits}
    {head : RequestHead} (h : convertRequestHead request limits = .ok head) :
    ∃ version target headers authority,
      httpVersion request.version = .ok version ∧
      convertHeaders ⟨none, .originOnly, some limits.maxHeaderBytes, limits.expectedScheme⟩
        request.headers = .ok headers ∧
      convertAuthority request = .ok authority ∧
      head = ⟨request.method, target, version, headers, authority⟩ := by
  simp only [convertRequestHead, bind_eq_ok] at h
  obtain ⟨_, -, version, hVersion, _, -, target, -, headers, hHeaders, authority, hAuthority,
    hHead⟩ := h
  exact ⟨version, target, headers, authority, hVersion, hHeaders, hAuthority,
    (Except.ok.inj hHead).symm⟩

end Eggserve.Core
