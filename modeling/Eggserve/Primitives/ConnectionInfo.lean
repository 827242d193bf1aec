import Eggserve.Primitives.Forwarded
import Eggserve.Primitives.IpPrefix

/-! The peer of a connection, the client that a proxy in front of it names, and
the peers that are trusted to name one. -/
namespace Eggserve.Primitives
open Rust

structure TlsInfo where
  protocolVersion : Option Str
  serverName : Option Str
  alpn : Option Str
  clientAuthenticated : Bool
  peerCertificatesPresent : Bool
  peerCertificateChain : Option (List (List UInt8))
  deriving DecidableEq

structure ConnectionInfo where
  localAddr : Option SocketAddr
  remoteAddr : Option SocketAddr
  scheme : Scheme
  tls : Option TlsInfo
  proxySource : Option SocketAddr
  proxyDestination : Option SocketAddr
  proxyProvenance : Option ProxySourceKind
  effectiveClient : Option SocketAddr
  effectiveScheme : Option Scheme
  effectiveAuthority : Option Authority
  forwardedProvenance : Option ProxySourceKind
  deriving DecidableEq

namespace ConnectionInfo

def withForwardedEffective (self : ConnectionInfo) (effective : ForwardedEffective) :
    ConnectionInfo :=
  { self with
    effectiveClient := self.effectiveClient.or effective.client
    effectiveScheme := self.effectiveScheme.or effective.scheme
    effectiveAuthority := self.effectiveAuthority.or effective.authority
    forwardedProvenance := some effective.provenance }

def effectiveClientAddr (self : ConnectionInfo) : Option SocketAddr :=
  self.effectiveClient.or self.remoteAddr

/-- The metadata without what a proxy says. -/
def transport (self : ConnectionInfo) : ConnectionInfo :=
  { self with
    proxySource := none
    proxyDestination := none
    proxyProvenance := none
    effectiveClient := none
    effectiveScheme := none
    effectiveAuthority := none
    forwardedProvenance := none }

@[simp] theorem transport_withForwardedEffective (self : ConnectionInfo)
    (effective : ForwardedEffective) :
    (self.withForwardedEffective effective).transport = self.transport := rfl

end ConnectionInfo

/-! Trusted peers. -/

structure ProxyProtocolConfig where
  enabled : Bool
  deriving DecidableEq

/-- Every peer comes from the parser, so that no shift of a match is too wide. -/
structure TrustedProxyConfig where
  peers : List IpPrefix
  trustUnix : Bool
  proxyProtocol : ProxyProtocolConfig
  forwarded : ForwardedConfig
  fits : ∀ net ∈ peers, net.prefixLen ≤ net.network.width

namespace TrustedProxyConfig

def isTrustedPeer (self : TrustedProxyConfig) (peer : SocketAddr) : MayPanic Bool :=
  self.peers.anyM fun net => net.matchesIp peer.ip

def addPeer (self : TrustedProxyConfig) (net : IpPrefix)
    (hFits : net.prefixLen ≤ net.network.width) : TrustedProxyConfig :=
  { self with
    peers := self.peers ++ [net]
    fits := List.forall_mem_append.mpr ⟨self.fits, List.forall_mem_singleton.mpr hFits⟩ }

/-- The address is in one of the prefixes. -/
def Trusts (self : TrustedProxyConfig) (ip : IpAddr) : Prop :=
  ∃ net ∈ self.peers, ip.AgreesOn net.prefixLen net.network

instance (self : TrustedProxyConfig) (ip : IpAddr) : Decidable (self.Trusts ip) :=
  inferInstanceAs (Decidable (∃ net ∈ self.peers, ip.AgreesOn net.prefixLen net.network))

/-- The text names an address of which the first bits are those of `ip`. -/
def Covers (value : Str) (ip : IpAddr) : Prop :=
  ∃ addr len, IpPrefix.Names (trim value) addr len ∧ ip.AgreesOn len addr

theorem anyM_matchesIp (ip : IpAddr) (nets : List IpPrefix)
    (hFits : ∀ net ∈ nets, net.prefixLen ≤ net.network.width) :
    nets.anyM (fun net => net.matchesIp ip) =
      some (decide (∃ net ∈ nets, ip.AgreesOn net.prefixLen net.network)) := by
  induction nets with
  | nil => simp
  | cons net rest ih =>
      have hHead := IpPrefix.matchesIp_eq (hFits net List.mem_cons_self) ip
      have hRest := ih fun other hOther => hFits other (List.mem_cons_of_mem net hOther)
      rw [List.anyM, hHead, hRest]
      by_cases hAgree : ip.AgreesOn net.prefixLen net.network
      · simp [hAgree]
      · simp [hAgree]

theorem isTrustedPeer_eq (self : TrustedProxyConfig) (peer : SocketAddr) :
    self.isTrustedPeer peer = some (decide (self.Trusts peer.ip)) :=
  anyM_matchesIp peer.ip self.peers self.fits

end TrustedProxyConfig

end Eggserve.Primitives
