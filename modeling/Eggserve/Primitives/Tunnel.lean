import Eggserve.Primitives.Canonical.Response

/-! The vocabulary of tunnels: what a client asks for, and which fields a
service may put into a handshake. -/
namespace Eggserve.Primitives
open Rust

def maxTunnelProtocolBytes : Nat := 64

def maxTunnelHeaderCount : Nat := 32

def maxTunnelHeaderBytes : Nat := 8 * 1024

inductive TunnelKind where
  | http1Upgrade
  | connect
  | extendedConnect
  deriving DecidableEq, Repr

inductive TunnelError where
  | noCapability
  | alreadyAccepted
  | afterCommit
  | invalidProtocol (message : Str)
  | invalidHeader (error : HeaderError)
  | forbiddenHeader (name : Str)
  | tooManyHeaders (count limit : Nat)
  | tooLarge (bytes limit : Nat)
  deriving DecidableEq

def isTchar (b : UInt8) : Bool := isTokenByte b

/-- A bounded protocol token. -/
structure ProtocolName where
  text : Str
  valid : text ≠ [] ∧ (utf8 text).length ≤ maxTunnelProtocolBytes ∧
    (utf8 text).all isTchar = true
  deriving DecidableEq

namespace ProtocolName

def new (name : Str) : Except TunnelError ProtocolName :=
  if hLength : name = [] ∨ (utf8 name).length > maxTunnelProtocolBytes then
    .error (.invalidProtocol (("protocol length " : Str) ++ decimal (utf8 name).length ++
      (" outside 1..=" : Str) ++ decimal maxTunnelProtocolBytes))
  else if hToken : (utf8 name).all isTchar = true then
    .ok ⟨name, fun hEmpty => hLength (.inl hEmpty),
      Nat.le_of_not_lt fun hLong => hLength (.inr hLong), hToken⟩
  else .error (.invalidProtocol "protocol must be RFC 9110 token")

def asBytes (protocol : ProtocolName) : List UInt8 := utf8 protocol.text

end ProtocolName

structure TunnelRequest where
  kind : TunnelKind
  protocol : Option ProtocolName
  deriving DecidableEq

/-- The length of the names and values together. -/
def handshakeHeaderBytes (headers : HeaderBlock) : Nat :=
  (headers.map fun field =>
    saturatingAdd (utf8 field.name.text).length field.value.bytes.length).foldl saturatingAdd 0

def validateHandshakeHeaders (headers : HeaderBlock) : Except TunnelError HeaderBlock := do
  forM ["content-length", "transfer-encoding"] fun name : String =>
    failIf (headers.contains name = true) (.forbiddenHeader name)
  let headers := headers.filter fun field => !isHopByHopHeader field.name.text
  failIf (headers.length > maxTunnelHeaderCount)
    (.tooManyHeaders headers.length maxTunnelHeaderCount)
  failIf (handshakeHeaderBytes headers > maxTunnelHeaderBytes)
    (.tooLarge (handshakeHeaderBytes headers) maxTunnelHeaderBytes)
  return headers

/-- Accepted fields are the end-to-end fields of a block without framing. -/
theorem validateHandshakeHeaders_eq_ok {headers accepted : HeaderBlock}
    (h : validateHandshakeHeaders headers = .ok accepted) :
    accepted = headers.filter (fun field => !isHopByHopHeader field.name.text) ∧
      headers.contains "content-length" = false ∧
      headers.contains "transfer-encoding" = false := by
  simp only [validateHandshakeHeaders, check_bind_eq_ok, forM_eq_ok, failIf_eq_ok,
    List.forall_mem_cons, List.not_mem_nil, Bool.not_eq_true] at h
  obtain ⟨⟨hLength, hCoding, -⟩, -, -, hAccepted⟩ := h
  exact ⟨(Except.ok.inj hAccepted).symm, hLength, hCoding⟩

end Eggserve.Primitives
