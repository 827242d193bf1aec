import Eggserve.Primitives.RequestHead
import Eggserve.Server.BodyFraming

/-! The conversion of a transport request into the canonical head, with the
ceilings on the target and on the fields that the runtime owns. -/
namespace Eggserve.Server
open Rust Eggserve.Primitives

/-! The request as the transport hands it over. -/

inductive HyperVersion where
  | http09
  | http10
  | http11
  | http2
  | http3
  deriving DecidableEq, Repr

def HyperVersion.debug : HyperVersion → String
  | http09 => "HTTP/0.9"
  | http10 => "HTTP/1.0"
  | http11 => "HTTP/1.1"
  | http2 => "HTTP/2.0"
  | http3 => "HTTP/3.0"

/-- The parts of a parsed URI; `text` is its display form. -/
structure HyperUri where
  scheme : Option Str
  authority : Option Str
  pathAndQuery : Option Str
  text : Str
  deriving DecidableEq

structure HyperRequest where
  method : Str
  version : HyperVersion
  uri : HyperUri
  headers : HyperHeaders
  deriving DecidableEq

inductive Http1RequestTargetMode where
  | originOnly
  | originOrAbsolute
  deriving DecidableEq, Repr

/-- The arguments of the conversion: a ceiling is `none` where another owner
enforces it. -/
structure HeadLimits where
  maxTargetBytes : Option Nat
  targetMode : Http1RequestTargetMode
  maxHeaderBytes : Option Nat
  expectedScheme : Scheme
  deriving DecidableEq

def httpVersion : HyperVersion → Except ServiceError HttpVersion
  | .http10 => .ok .http10
  | .http11 => .ok .http11
  | .http2 => .ok .http2
  | other =>
      .error (ServiceError.rejected 505 (("unsupported HTTP version: " : Str) ++ other.debug.toList))

/-- The target as it stood on the wire. -/
def rawTarget (uri : HyperUri) : Str :=
  if uri.scheme.isSome then uri.text else uri.pathAndQuery.getD ['/']

def overLimit (limit : Option Nat) (size : Nat) : Bool := limit.any (· < size)

def methodNotAllowed (method : Str) : ServiceError :=
  ServiceError.rejected 405 (("method not allowed: " : Str) ++ method)

def invalidTarget (error : RequestTargetError) : ServiceError :=
  ServiceError.rejected 400 (("invalid request target: " : Str) ++ error.display.toList)

def invalidAbsoluteTarget : ServiceError :=
  ServiceError.rejected 400 "invalid absolute request target"

/-- A `CONNECT` with its authority as the target. -/
def connectAuthorityForm (request : HyperRequest) (version : HttpVersion) : Bool :=
  version ≠ .http2 && request.uri.authority.isSome && request.method = "CONNECT"

/-- The forms of the target that are refused before it is parsed. -/
def checkTargetForm (request : HyperRequest) (version : HttpVersion) (limits : HeadLimits) :
    Except ServiceError Unit := do
  let absoluteForm := request.uri.scheme.isSome
  failIf (overLimit limits.maxTargetBytes (utf8 (rawTarget request.uri)).length = true)
    (ServiceError.rejected 414 "request target too long")
  failIf (request.uri.authority.any (fun text => overLimit limits.maxTargetBytes (utf8 text).length)
      = true)
    (ServiceError.rejected 414 "request target too long")
  failIf (version ≠ .http2 ∧ absoluteForm = true ∧ limits.targetMode = .originOnly)
    (ServiceError.rejected 400 "absolute-form request target not allowed")
  failIf (version = .http2 ∧
      request.uri.scheme.any (fun text => !eqIgnoreAsciiCase text limits.expectedScheme.asStr) = true)
    (ServiceError.rejected 400 "conflicting request scheme")
  -- The method check fires before the target-form check, so `*` is 405 and not 400.
  failIf (rawTarget request.uri = "*") (methodNotAllowed request.method)
  failIf (version ≠ .http2 ∧ request.uri.authority.isSome = true ∧
      connectAuthorityForm request version = false ∧ absoluteForm = false)
    (methodNotAllowed request.method)

/-- The canonical target. The authority of a `CONNECT` is carried elsewhere, so
its target is a placeholder. -/
def convertTarget (request : HyperRequest) (version : HttpVersion) :
    Except ServiceError RequestTarget :=
  if connectAuthorityForm request version then
    (RequestTarget.parse "/").mapError invalidTarget
  else if request.uri.scheme.isSome ∧ version ≠ .http2 then
    match request.uri.scheme, request.uri.authority with
    | some scheme, some text => do
        let authority ← (Authority.parse text).mapError fun _ => invalidAbsoluteTarget
        (RequestTarget.fromAbsoluteComponents scheme authority
          (request.uri.pathAndQuery.getD ['/'])).mapError invalidTarget
    | _, _ => .error invalidAbsoluteTarget
  else (RequestTarget.parse (rawTarget request.uri)).mapError invalidTarget

/-- One turn of the loop over the fields: the bytes so far and the block. -/
def convertField (limits : HeadLimits) (done : Nat × HeaderBlock) (field : HyperField) :
    Except ServiceError (Nat × HeaderBlock) := do
  let headerBytes :=
    saturatingAdd (saturatingAdd done.1 (utf8 field.name).length) field.value.length
  failIf (overLimit limits.maxHeaderBytes headerBytes = true)
    (ServiceError.rejected 431 "request headers too large")
  let name ← (HeaderName.new field.name).mapError fun _ =>
    ServiceError.rejected 400 (("invalid header name: " : Str) ++ field.name)
  let value ← (HeaderValue.fromBytes field.value).mapError fun _ =>
    ServiceError.rejected 400 (("invalid header value for " : Str) ++ field.name)
  return (headerBytes, done.2 ++ [⟨name, value⟩])

def convertHeaders (limits : HeadLimits) (headers : HyperHeaders) :
    Except ServiceError HeaderBlock := do
  let (_, block) ← headers.foldlM (convertField limits) (0, [])
  return block

def parseHost (value : List UInt8) : Except ServiceError Authority :=
  match hyperToStr value with
  | none => .error (ServiceError.rejected 400 "invalid Host header")
  | some text =>
      (Authority.parse text).mapError fun _ => ServiceError.rejected 400 "invalid Host header"

/-- All `Host` fields name one authority, which is also that of the URI. -/
def convertAuthority (request : HyperRequest) : Except ServiceError (Option Authority) := do
  let hosts ← (request.headers.getAll "host").mapM parseHost
  let uriAuthority ← request.uri.authority.mapM fun text =>
    (Authority.parse text).mapError fun _ => ServiceError.rejected 400 "invalid :authority"
  failIf (hosts.tail.any (fun host => some host ≠ hosts.head?) = true)
    (ServiceError.rejected 400 "conflicting Host headers")
  match uriAuthority, hosts.head? with
  | some uri, some host =>
      if uri ≠ host then .error (ServiceError.rejected 400 "conflicting authority metadata")
      else return some uri
  | some uri, none => return some uri
  | none, host => return host

def convertRequestHead (request : HyperRequest) (limits : HeadLimits) :
    Except ServiceError RequestHead := do
  failIf (isHttpToken request.method = false)
    (ServiceError.rejected 400 (("invalid method: " : Str) ++ request.method))
  let version ← httpVersion request.version
  checkTargetForm request version limits
  let target ← convertTarget request version
  let headers ← convertHeaders limits request.headers
  let authority ← convertAuthority request
  return ⟨request.method, target, version, headers, authority⟩

end Eggserve.Server
