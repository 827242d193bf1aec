import Eggserve.Primitives.ConnectionInfo
import Eggserve.Primitives.ForwardedChecks
import Eggserve.Primitives.ProxyRoundTrip
import Eggserve.Primitives.RequestHead
import Eggserve.Server.ProxyPreamble

/-! Who a service takes its client for. A preamble names the client of a
connection, the headers of a request name the client of that request, and either
counts only when the immediate peer is trusted. -/
namespace Eggserve.Server
open Rust Eggserve.Primitives

structure ConnectionContext where
  localAddr : Option SocketAddr
  remoteAddr : Option SocketAddr
  scheme : Scheme
  tls : Option TlsInfo
  proxySource : Option SocketAddr
  proxyDestination : Option SocketAddr
  proxyProvenance : Option ProxySourceKind
  deriving DecidableEq

namespace ConnectionContext

def forTcp (localAddr remoteAddr : SocketAddr) (tls : Option TlsInfo) : ConnectionContext :=
  { localAddr := some localAddr
    remoteAddr := some remoteAddr
    scheme := if tls.isSome then .https else .http
    tls := tls
    proxySource := none
    proxyDestination := none
    proxyProvenance := none }

def forUnix : ConnectionContext :=
  { localAddr := none
    remoteAddr := none
    scheme := .http
    tls := none
    proxySource := none
    proxyDestination := none
    proxyProvenance := none }

def withProxyEndpoints (self : ConnectionContext) (endpoints : ProxyEndpoints) :
    ConnectionContext :=
  { self with
    proxySource := endpoints.source
    proxyDestination := endpoints.destination
    proxyProvenance := some endpoints.kind }

def connectionInfo (self : ConnectionContext) : ConnectionInfo :=
  { localAddr := self.localAddr
    remoteAddr := self.remoteAddr
    scheme := self.scheme
    tls := self.tls
    proxySource := self.proxySource
    proxyDestination := self.proxyDestination
    proxyProvenance := self.proxyProvenance
    effectiveClient := self.proxySource
    effectiveScheme := none
    effectiveAuthority := none
    forwardedProvenance := none }

/-- The peer is trusted. -/
def PeerTrusted (self : ConnectionContext) (config : TrustedProxyConfig) : Prop :=
  match self.remoteAddr with
  | some peer => config.Trusts peer.ip
  | none => config.trustUnix = true

end ConnectionContext

/-- The peer is trusted by its address, or by the flag where it has none. -/
def forwardingPeerTrusted (config : TrustedProxyConfig) (context : ConnectionContext) :
    MayPanic Bool :=
  match context.remoteAddr with
  | some peer => config.isTrustedPeer peer
  | none => some config.trustUnix

def applyForwardedPolicy (base : ConnectionInfo) (head : RequestHead)
    (config : TrustedProxyConfig) (context : ConnectionContext) : MayPanic ConnectionInfo :=
  if config.forwarded.isDisabled then some base
  else do
    let trustedPeer ← forwardingPeerTrusted config context
    match deriveForwardedEffective head.headers config.forwarded trustedPeer with
    | .ok none => return base
    | .ok (some effective) => return base.withForwardedEffective effective
    | .error _ => return base

/-- What becomes of the TLS handshake of a connection. -/
inductive Handshake where
  | cleartext
  | completed (info : TlsInfo)
  | failed

namespace Handshake

def tls : Handshake → Option TlsInfo
  | cleartext => none
  | completed info => some info
  | failed => none

/-- A failed handshake leaves no connection to serve. -/
def serves (self : Handshake) (context : Option TlsInfo → ConnectionContext) :
    Option ConnectionContext :=
  match self with
  | cleartext => some (context none)
  | completed info => some (context (some info))
  | failed => none

end Handshake

/-- A connection as the listener meets it: the octets up to the end of a
preamble in the pieces that are read, and whether the clock lets it be read. -/
inductive Arrival where
  | tcp (localAddr remoteAddr : SocketAddr) (reads : List (List UInt8)) (inTime : Bool)
      (handshake : Handshake)
  | unix

def readInTime (reads : List (List UInt8)) (inTime : Bool) : PreambleResult :=
  if inTime then (readProxyPreamble reads).1 else .error .timeout

def handleTcpAccept (config : TrustedProxyConfig) (localAddr remoteAddr : SocketAddr)
    (reads : List (List UInt8)) (inTime : Bool) (handshake : Handshake) :
    MayPanic (Option ConnectionContext) :=
  if config.proxyProtocol.enabled then do
    let trusted ← config.isTrustedPeer remoteAddr
    if trusted then
      match readInTime reads inTime with
      | .ok (endpoints, _) =>
          return handshake.serves fun tls =>
            (ConnectionContext.forTcp localAddr remoteAddr tls).withProxyEndpoints endpoints
      | .error _ => return none
    else return none
  else return handshake.serves (ConnectionContext.forTcp localAddr remoteAddr)

def handleUnixAccept : MayPanic (Option ConnectionContext) := some (some .forUnix)

namespace Arrival

def accept (config : TrustedProxyConfig) : Arrival → MayPanic (Option ConnectionContext)
  | tcp localAddr remoteAddr reads inTime handshake =>
      handleTcpAccept config localAddr remoteAddr reads inTime handshake
  | unix => handleUnixAccept

/-- What the requests of a connection tell the service about it. -/
def serve (arrival : Arrival) (config : TrustedProxyConfig) (heads : List RequestHead) :
    MayPanic (List ConnectionInfo) := do
  match ← arrival.accept config with
  | none => return []
  | some context =>
      heads.mapM fun head => applyForwardedPolicy context.connectionInfo head config context

/-- What the transport shows by itself. -/
def transport : Arrival → ConnectionInfo
  | tcp localAddr remoteAddr _ _ handshake =>
      (ConnectionContext.forTcp localAddr remoteAddr handshake.tls).connectionInfo
  | unix => ConnectionContext.forUnix.connectionInfo

/-- The configuration trusts the immediate peer. -/
def Trusted (arrival : Arrival) (config : TrustedProxyConfig) : Prop :=
  match arrival with
  | tcp _ remoteAddr _ _ _ => config.Trusts remoteAddr.ip
  | unix => config.trustUnix = true

end Arrival

/-! One request. -/

theorem forwardingPeerTrusted_eq (config : TrustedProxyConfig) (context : ConnectionContext) :
    ∃ trusted, forwardingPeerTrusted config context = some trusted ∧
      (trusted = true → context.PeerTrusted config) := by
  rw [forwardingPeerTrusted, ConnectionContext.PeerTrusted]
  cases context.remoteAddr with
  | none => exact ⟨config.trustUnix, rfl, id⟩
  | some peer => exact ⟨_, config.isTrustedPeer_eq peer, of_decide_eq_true⟩

/-- The headers of one request add to the connection, where its peer is trusted, or do
nothing. -/
theorem applyForwardedPolicy_cases (base : ConnectionInfo) (head : RequestHead)
    (config : TrustedProxyConfig) (context : ConnectionContext) :
    applyForwardedPolicy base head config context = some base ∨
      context.PeerTrusted config ∧ ∃ effective, applyForwardedPolicy base head config context =
        some (base.withForwardedEffective effective) := by
  obtain ⟨trusted, hRun, hTrusted⟩ := forwardingPeerTrusted_eq config context
  rw [applyForwardedPolicy, hRun]
  by_cases hDisabled : config.forwarded.isDisabled = true
  · exact .inl (if_pos hDisabled)
  · rw [if_neg hDisabled, Option.bind_eq_bind, Option.bind_some]
    cases hDerived : deriveForwardedEffective head.headers config.forwarded trusted with
    | error rejection => exact .inl rfl
    | ok found =>
        cases found with
        | none => exact .inl rfl
        | some effective =>
            have hPeer := (deriveForwardedEffective_eq_ok.mp hDerived).1
            exact .inr ⟨hTrusted hPeer, effective, rfl⟩

/-! One connection. -/

/-- The context of a connection that is served: the transport's own, with the
endpoints of a preamble where the listener requires one. -/
inductive Admits (config : TrustedProxyConfig) : Arrival → ConnectionContext → Prop
  | unix : Admits config .unix .forUnix
  | direct {localAddr remoteAddr : SocketAddr} {reads : List (List UInt8)} {inTime : Bool}
      {handshake : Handshake} (hOff : config.proxyProtocol.enabled = false) :
      Admits config (.tcp localAddr remoteAddr reads inTime handshake)
        (.forTcp localAddr remoteAddr handshake.tls)
  | proxied {localAddr remoteAddr : SocketAddr} {reads : List (List UInt8)} {inTime : Bool}
      {handshake : Handshake} {endpoints : ProxyEndpoints} {leftover : List UInt8}
      (hPeer : config.Trusts remoteAddr.ip)
      (hRead : readInTime reads inTime = .ok (endpoints, leftover)) :
      Admits config (.tcp localAddr remoteAddr reads inTime handshake)
        ((ConnectionContext.forTcp localAddr remoteAddr handshake.tls).withProxyEndpoints endpoints)

/-- The information of a request on an admitted connection. -/
structure Seen (config : TrustedProxyConfig) (arrival : Arrival) (info : ConnectionInfo) :
    Prop where
  transport : info.transport = arrival.transport
  untrusted : ¬arrival.Trusted config → info = arrival.transport
  sourceFirst : ∀ source, info.proxySource = some source → info.effectiveClientAddr = some source
  required : config.proxyProtocol.enabled = true → info.remoteAddr.isSome = true →
    info.proxyProvenance.isSome = true ∧ arrival.Trusted config

theorem Admits.seen {config : TrustedProxyConfig} {arrival : Arrival} {context : ConnectionContext}
    (h : Admits config arrival context) : Seen config arrival context.connectionInfo := by
  cases h with
  | unix =>
      refine ⟨rfl, fun _ => rfl, fun source hSource => ?_, fun _ hSome => ?_⟩
      · cases hSource
      · cases hSome
  | direct hOff =>
      refine ⟨rfl, fun _ => rfl, fun source hSource => ?_, fun hOn => ?_⟩
      · cases hSource
      · rw [hOff] at hOn
        cases hOn
  | @proxied localAddr remoteAddr reads inTime handshake endpoints leftover hPeer hRead =>
      refine ⟨rfl, fun hUntrusted => absurd hPeer hUntrusted, fun source hSource => ?_,
        fun _ _ => ⟨rfl, hPeer⟩⟩
      change endpoints.source = some source at hSource
      change endpoints.source.or (some remoteAddr) = some source
      rw [hSource]
      rfl

/-- Trust in the peer of a context is trust in the peer of its connection. -/
theorem Admits.trusted {config : TrustedProxyConfig} {arrival : Arrival}
    {context : ConnectionContext} (h : Admits config arrival context)
    (hPeer : context.PeerTrusted config) :
    arrival.Trusted config := by
  cases h with
  | unix => exact hPeer
  | direct _ => exact hPeer
  | proxied hTrusts _ => exact hTrusts

/-- Headers keep what a connection shows, where its peer is trusted. -/
theorem Seen.withForwardedEffective {config : TrustedProxyConfig} {arrival : Arrival}
    {info : ConnectionInfo} (h : Seen config arrival info) (hTrusted : arrival.Trusted config)
    (hClient : info.effectiveClient = info.proxySource) (effective : ForwardedEffective) :
    Seen config arrival (info.withForwardedEffective effective) := by
  refine ⟨h.transport, fun hUntrusted => absurd hTrusted hUntrusted, fun source hSource => ?_,
    h.required⟩
  change info.proxySource = some source at hSource
  change (info.effectiveClient.or effective.client).or info.remoteAddr = some source
  rw [hClient, hSource]
  rfl

theorem Admits.request {config : TrustedProxyConfig} {arrival : Arrival}
    {context : ConnectionContext} (h : Admits config arrival context) (head : RequestHead) :
    ∃ info, applyForwardedPolicy context.connectionInfo head config context = some info ∧
      Seen config arrival info := by
  rcases applyForwardedPolicy_cases context.connectionInfo head config context with
    hBase | ⟨hPeer, effective, hEffective⟩
  · exact ⟨_, hBase, h.seen⟩
  · exact ⟨_, hEffective, h.seen.withForwardedEffective (h.trusted hPeer) rfl effective⟩

/-- A listener behind the proxies of one network, which are to send a preamble. -/
def noProxies : TrustedProxyConfig where
  peers := []
  trustUnix := false
  proxyProtocol := ⟨true⟩
  forwarded := ⟨true, false, 8192, 16⟩
  fits := fun _ hNet => absurd hNet List.not_mem_nil

def privateProxies : TrustedProxyConfig :=
  noProxies.addPeer ⟨.v4 ⟨0x0a000000⟩, 8⟩ (Nat.le_of_ble_eq_true rfl)

/-- A request that names a client of its own. -/
def spoofingRequest : RequestHead where
  method := "GET"
  target := ⟨['/'], .origin, 0, 1, none, rfl⟩
  version := .http11
  headers := twoClients
  authority := none

/-- The octets by which a proxy announces two endpoints. -/
inductive SentAhead (pair : ProxyPair) : List UInt8 → ProxySourceKind → Prop
  | line : SentAhead pair pair.v1Line .proxyV1
  | header (tlvs : List UInt8) (hMax : pair.addresses.length + tlvs.length ≤ proxyV2MaxLen) :
      SentAhead pair (pair.v2Header tlvs) .proxyV2

theorem cr_not_mem_words (pair : ProxyPair) : ∀ word ∈ pair.words, '\r' ∉ word := by
  have hDecimal : ∀ n, '\r' ∉ decimal n := not_mem_toDigits (by decide) (by decide) (by decide)
  intro word hWord
  cases pair with
  | v4 source destination sourcePort destinationPort =>
      have hSource := source.not_mem_display (c := '\r') (by decide) (by decide)
      have hDestination := destination.not_mem_display (c := '\r') (by decide) (by decide)
      simp only [ProxyPair.words, List.mem_cons, List.not_mem_nil, or_false] at hWord
      rcases hWord with rfl | rfl | rfl | rfl | rfl | rfl
      · decide
      · decide
      · exact hSource
      · exact hDestination
      · exact hDecimal _
      · exact hDecimal _
  | v6 source destination sourcePort destinationPort =>
      have hSource :=
        source.not_mem_display (c := '\r') (by decide) (by decide) (by decide) (by decide)
      have hDestination :=
        destination.not_mem_display (c := '\r') (by decide) (by decide) (by decide) (by decide)
      simp only [ProxyPair.words, List.mem_cons, List.not_mem_nil, or_false] at hWord
      rcases hWord with rfl | rfl | rfl | rfl | rfl | rfl
      · decide
      · decide
      · exact hSource
      · exact hDestination
      · exact hDecimal _
      · exact hDecimal _

theorem not_mem_intercalate {c space : Char} (hSpace : c ≠ space) {parts : List Str}
    (h : ∀ part ∈ parts, c ∉ part) : c ∉ List.intercalate [space] parts := by
  induction parts with
  | nil => simp
  | cons part rest ih =>
      have hRest := ih fun other hOther => h other (List.mem_cons_of_mem part hOther)
      cases rest with
      | nil => simpa using h part List.mem_cons_self
      | cons next rest =>
          rw [List.intercalate_cons_cons]
          simp only [List.mem_append, List.mem_singleton, not_or]
          exact ⟨⟨h part List.mem_cons_self, hSpace⟩, hRest⟩

/-- The text of a line has no line end. -/
theorem cr_not_mem_v1Text (pair : ProxyPair) : (0x0d : UInt8) ∉ utf8 pair.v1Text := by
  have hAscii : ∀ c ∈ pair.v1Text, c.toNat < 128 :=
    ascii_intercalate fun word hWord => (pair.isWord word hWord).2.2
  rw [utf8_of_ascii hAscii, List.mem_map]
  rintro ⟨c, hMember, hByte⟩
  have hNat : c.toNat = 13 := by
    rw [← toNat_ofNat_of_ascii (hAscii c hMember), hByte]
    rfl
  have hChar : c = '\r' := by
    rw [← Char.ofNat_toNat c, hNat]
  exact not_mem_intercalate (by decide) (cr_not_mem_words pair) (hChar ▸ hMember)

/-- A text without a line end, up to the one behind it. -/
theorem firstLine_append {text rest : List UInt8} (hText : (0x0d : UInt8) ∉ text) :
    FirstLine (text ++ crlf ++ rest) (text ++ crlf).length := by
  refine ⟨?_, ?_, ?_⟩
  · rw [List.take_left]
    exact List.suffix_append _ _
  · exact (List.prefix_append (text ++ crlf) rest).length_le
  · intro m hShort hEnd
    have hShort : m < text.length + 2 := by simpa [crlf] using hShort
    rw [List.append_assoc] at hEnd
    by_cases hWithin : m ≤ text.length
    · rw [List.take_append_of_le_length hWithin] at hEnd
      exact hText (List.mem_of_mem_take (hEnd.subset (by simp [crlf])))
    · obtain rfl : m = text.length + 1 := by omega
      rw [List.take_length_add_append] at hEnd
      obtain ⟨front, hFront⟩ := hEnd
      have hLast := congrArg List.getLast? hFront
      simp [crlf] at hLast

theorem length_v2Header (pair : ProxyPair) (tlvs : List UInt8) :
    (pair.v2Header tlvs).length = proxyV2HeaderLen + (pair.addresses.length + tlvs.length) := by
  simp only [ProxyPair.v2Header, List.length_append, length_beOctets]
  simp [proxyV2Signature, proxyV2HeaderLen]
  omega

theorem SentAhead.preamble {pair : ProxyPair} {octets : List UInt8} {kind : ProxySourceKind}
    (h : SentAhead pair octets kind) (rest : List UInt8) :
    Preamble (octets ++ rest) (pair.endpoints kind) octets.length := by
  cases h with
  | line =>
      have hParse := parseProxyV1Line_v1Line pair
      refine .text (firstLine_append (cr_not_mem_v1Text pair)) ?_ ?_
      · have hChecked := hParse
        simp only [parseProxyV1Line, check_bind_eq_ok, failIf_eq_ok, not_lt] at hChecked
        exact hChecked.1
      · rw [List.take_left]
        exact hParse
  | header tlvs hMax =>
      have hWhole := parseProxyV2Header_v2Header pair tlvs rest hMax
      have hAlone := parseProxyV2Header_v2Header pair tlvs [] hMax
      have hTotal := (parseProxyV2Header_eq_ok hWhole).2.2
      have hLength := length_v2Header pair tlvs
      rw [List.append_nil] at hAlone
      refine .binary ?_ ?_ ?_ ?_
      · rw [hLength, hTotal]
      · omega
      · rw [List.length_append]
        exact Nat.le_add_right _ _
      · rw [List.take_left, hLength]
        exact hAlone

/-- What is read of a stream that starts with an announcement. -/
theorem SentAhead.delivered {pair : ProxyPair} {octets rest : List UInt8} {kind : ProxySourceKind}
    (h : SentAhead pair octets kind) (delivery : Delivery (octets ++ rest)) :
    ∃ leftover, delivery.result = .ok (pair.endpoints kind, leftover) ∧
      leftover ++ delivery.unread = rest := by
  have hPreamble := h.preamble rest
  have hVerdict := preambleVerdict_eq_ok.mpr hPreamble
  have hEndpoints := delivery.endpoints_eq
  rw [hVerdict, Delivery.endpoints] at hEndpoints
  cases hResult : delivery.result with
  | error error =>
      rw [hResult] at hEndpoints
      cases hEndpoints
  | ok found =>
      obtain ⟨named, leftover⟩ := found
      rw [hResult] at hEndpoints
      cases hEndpoints
      obtain ⟨n, hOther, hSplit⟩ := delivery.split_of_ok hResult
      have hSame := hVerdict.symm.trans (preambleVerdict_eq_ok.mpr hOther)
      obtain rfl : octets.length = n :=
        congrArg Prod.snd (Except.ok.inj (Option.some.inj hSame))
      rw [List.take_left, List.append_assoc] at hSplit
      exact ⟨leftover, rfl, List.append_cancel_left hSplit⟩

/-- A trusted proxy announces the endpoints of a connection, in either version and however the
octets arrive. Then the client and the destination it names are those of every request of the
connection, the addresses of the socket stay the proxy's, and what is read next is what follows
the announcement. -/
theorem proxied_client_reaches_service {config : TrustedProxyConfig} {pair : ProxyPair}
    {octets rest : List UInt8} {kind : ProxySourceKind} {localAddr remoteAddr : SocketAddr}
    {handshake : Handshake} (hSent : SentAhead pair octets kind)
    (hOn : config.proxyProtocol.enabled = true) (hPeer : config.Trusts remoteAddr.ip)
    (hHandshake : handshake ≠ .failed) (delivery : Delivery (octets ++ rest))
    (heads : List RequestHead) :
    (∃ leftover, delivery.result = .ok (pair.endpoints kind, leftover) ∧
      leftover ++ delivery.unread = rest) ∧
      ∃ infos, (Arrival.tcp localAddr remoteAddr delivery.reads true handshake).serve config heads =
          some infos ∧ infos.length = heads.length ∧ ∀ info ∈ infos,
        info.effectiveClientAddr = (pair.endpoints kind).source ∧
        info.proxyDestination = (pair.endpoints kind).destination ∧
        info.proxyProvenance = some kind ∧
        info.localAddr = some localAddr ∧ info.remoteAddr = some remoteAddr := by
  obtain ⟨leftover, hResult, hRest⟩ := hSent.delivered delivery
  refine ⟨⟨leftover, hResult, hRest⟩, ?_⟩
  have hRead : readInTime delivery.reads true = .ok (pair.endpoints kind, leftover) := hResult
  have hAccept : (Arrival.tcp localAddr remoteAddr delivery.reads true handshake).accept config =
      some (some ((ConnectionContext.forTcp localAddr remoteAddr handshake.tls).withProxyEndpoints
        (pair.endpoints kind))) := by
    rw [Arrival.accept, handleTcpAccept, if_pos hOn, config.isTrustedPeer_eq, decide_eq_true hPeer]
    rw [Option.bind_eq_bind, Option.bind_some, if_pos rfl, hRead]
    cases handshake with
    | cleartext => rfl
    | completed info => rfl
    | failed => exact absurd rfl hHandshake
  rw [Arrival.serve, hAccept, Option.bind_eq_bind, Option.bind_some]
  refine Panicking.mapM_forall heads fun head _ => ?_
  rcases applyForwardedPolicy_cases _ head config _ with hBase | ⟨-, effective, hEffective⟩
  · refine ⟨_, hBase, ?_⟩
    cases pair <;> exact ⟨rfl, rfl, rfl, rfl, rfl⟩
  · refine ⟨_, hEffective, ?_⟩
    cases pair <;> exact ⟨rfl, rfl, rfl, rfl, rfl⟩

def clientPair : ProxyPair := .v4 ⟨0xc0000201⟩ ⟨0xcb007101⟩ 4711 443

theorem pieces_of_pair : ∀ bytes ∈ [clientPair.v2Header [] ++ [0x47]],
    1 ≤ bytes.length ∧ bytes.length ≤ readSize := by
  have hLength : (clientPair.v2Header []).length = 28 := length_v2Header clientPair []
  intro bytes hBytes
  rw [List.mem_singleton.mp hBytes, List.length_append, hLength]
  decide

/-- The header of a pair and the first octet of a request, in one read. -/
def pairDelivery : Delivery (clientPair.v2Header [] ++ [0x47]) :=
  ⟨[clientPair.v2Header [] ++ [0x47]], pieces_of_pair, List.flatten_singleton⟩

theorem proxied_client_reaches_service_pair :
    (∃ leftover, pairDelivery.result =
        .ok (clientPair.endpoints .proxyV2, leftover) ∧
      leftover ++ pairDelivery.unread = [0x47]) ∧
      ∃ infos, (Arrival.tcp ⟨.v4 ⟨0x0a000001⟩, 80⟩ ⟨.v4 ⟨0x0a010203⟩, 40000⟩
          pairDelivery.reads true .cleartext).serve privateProxies
            [spoofingRequest] = some infos ∧ infos.length = [spoofingRequest].length ∧
        ∀ info ∈ infos,
          info.effectiveClientAddr = (clientPair.endpoints .proxyV2).source ∧
          info.proxyDestination = (clientPair.endpoints .proxyV2).destination ∧
          info.proxyProvenance = some .proxyV2 ∧
          info.localAddr = some ⟨.v4 ⟨0x0a000001⟩, 80⟩ ∧
          info.remoteAddr = some ⟨.v4 ⟨0x0a010203⟩, 40000⟩ := by
  have hHandshake : Handshake.cleartext ≠ .failed := by
    intro h
    cases h
  exact proxied_client_reaches_service (.header [] (by decide)) rfl
    ⟨_, List.mem_cons_self, by decide⟩ hHandshake pairDelivery
    [spoofingRequest]

end Eggserve.Server
