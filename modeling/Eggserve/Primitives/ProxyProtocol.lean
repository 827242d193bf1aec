import Eggserve.Rust.Net
import Eggserve.Rust.Result

/-! The parsers of the PROXY protocol: one text line (version 1) or one binary
header (version 2) that names the endpoints of the connection. -/
namespace Eggserve.Primitives
open Rust

inductive ProxySourceKind where
  | proxyV1
  | proxyV2
  | forwarded
  | legacyForwarded
  deriving DecidableEq, Repr

/-- The endpoints that the proxy reports; an absent one is not invented. -/
structure ProxyEndpoints where
  source : Option SocketAddr
  destination : Option SocketAddr
  kind : ProxySourceKind
  deriving DecidableEq

inductive ProxyParseError where
  | incomplete
  | tooLong
  | invalid
  deriving DecidableEq, Repr

def proxyV1MaxBytes : Nat := 107

def proxyV2Signature : List UInt8 :=
  [0x0d, 0x0a, 0x0d, 0x0a, 0x00, 0x0d, 0x0a, 0x51, 0x55, 0x49, 0x54, 0x0a]

def proxyV2HeaderLen : Nat := 16

def proxyV2MaxLen : Nat := 1024

/-- `PROXY ` in octets. -/
def proxyV1Start : List UInt8 := [0x50, 0x52, 0x4f, 0x58, 0x59, 0x20]

def crlf : List UInt8 := [0x0d, 0x0a]

/-- One to five digits, within 16 bits. -/
def parsePortStrict (value : Str) : Except ProxyParseError Nat :=
  if isDigits value = false ∨ 5 < value.length ∨ 65535 < decimalValue value then .error .invalid
  else .ok (decimalValue value)

def parseIpOf (isV4 : Bool) (text : Str) : Except ProxyParseError IpAddr :=
  match if isV4 then (parseIpv4 text).map IpAddr.v4 else (parseIpv6 text).map IpAddr.v6 with
  | some addr => .ok addr
  | none => .error .invalid

def v1Family (protocol : Str) : Except ProxyParseError Bool :=
  if protocol = "TCP4" then .ok true
  else if protocol = "TCP6" then .ok false
  else .error .invalid

/-- The six words of a line; both addresses are of the family it names. -/
def parseV1Words : List Str → Except ProxyParseError ProxyEndpoints
  | [proxy, protocol, source, destination, sourcePort, destinationPort] => do
      failIf ([proxy, protocol, source, destination, sourcePort, destinationPort].any List.isEmpty
        = true) .invalid
      failIf (proxy ≠ "PROXY") .invalid
      let isV4 ← v1Family protocol
      let sourceIp ← parseIpOf isV4 source
      let destinationIp ← parseIpOf isV4 destination
      let sourcePort ← parsePortStrict sourcePort
      let destinationPort ← parsePortStrict destinationPort
      return ⟨some ⟨sourceIp, sourcePort⟩, some ⟨destinationIp, destinationPort⟩, .proxyV1⟩
  | _ => .error .invalid

/-- One complete line with its terminator. -/
def parseProxyV1Line (line : List UInt8) : Except ProxyParseError ProxyEndpoints := do
  failIf (proxyV1MaxBytes < line.length) .tooLong
  failIf (line.length < 8 ∨ ¬crlf <:+ line) .invalid
  failIf (¬proxyV1Start <+: line) .invalid
  failIf (line.any (fun byte => 128 ≤ byte) = true) .invalid
  match fromUtf8 (line.take (line.length - 2)) with
  | none => Except.error .invalid
  | some text =>
      if text = "PROXY UNKNOWN" ∨ ("PROXY UNKNOWN " : Str) <+: text then
        return ⟨none, none, .proxyV1⟩
      else parseV1Words (text.splitOn ' ')

/-- `u16::from_be_bytes` of two octets of a buffer. -/
def beU16 (buf : List UInt8) (index : Nat) : Nat :=
  (buf.getD index 0).toNat * 256 + (buf.getD (index + 1) 0).toNat

/-- The length field of a header. -/
def v2Length (buf : List UInt8) : Nat := beU16 buf 14

def ipv4At (body : List UInt8) (index : Nat) : IpAddr :=
  .v4 (Ipv4Addr.ofOctets (((body.drop index).take 4).map UInt8.toNat))

def ipv6At (body : List UInt8) (index : Nat) : IpAddr :=
  .v6 ⟨BitVec.ofNat 128 (bigEndian 256 (((body.drop index).take 16).map UInt8.toNat))⟩

/-- The endpoints of a `PROXY` command by family and protocol. -/
def parseV2Addresses (family protocol len : Nat) (body : List UInt8) :
    Except ProxyParseError ProxyEndpoints :=
  match family, protocol with
  | 0, 0 => .ok ⟨none, none, .proxyV2⟩
  | 1, 1 =>
      if len < 12 then .error .invalid
      else
        .ok ⟨some ⟨ipv4At body 0, beU16 body 8⟩, some ⟨ipv4At body 4, beU16 body 10⟩, .proxyV2⟩
  | 2, 1 =>
      if len < 36 then .error .invalid
      else
        .ok ⟨some ⟨ipv6At body 0, beU16 body 32⟩, some ⟨ipv6At body 16, beU16 body 34⟩, .proxyV2⟩
  | 3, 1 => if len < 216 then .error .invalid else .ok ⟨none, none, .proxyV2⟩
  | _, _ => .error .invalid

/-- A header at the front of the buffer, with the octets it takes. -/
def parseProxyV2Header (buf : List UInt8) : Except ProxyParseError (ProxyEndpoints × Nat) := do
  failIf (buf.length < proxyV2HeaderLen) .incomplete
  failIf (buf.take 12 ≠ proxyV2Signature) .invalid
  let verCmd := (buf.getD 12 0).toNat
  failIf (verCmd / 16 ≠ 2) .invalid
  let command := verCmd % 16
  failIf (command ≠ 0 ∧ command ≠ 1) .invalid
  let famProto := (buf.getD 13 0).toNat
  let family := famProto / 16
  let protocol := famProto % 16
  failIf (3 < family) .invalid
  failIf (2 < protocol) .invalid
  let len := v2Length buf
  failIf (proxyV2MaxLen < len) .tooLong
  let total := proxyV2HeaderLen + len
  failIf (buf.length < total) .incomplete
  let body := (buf.take total).drop proxyV2HeaderLen
  -- `LOCAL` ignores all address information.
  if command = 0 then return (⟨none, none, .proxyV2⟩, total)
  else
    let endpoints ← parseV2Addresses family protocol len body
    return (endpoints, total)

end Eggserve.Primitives
