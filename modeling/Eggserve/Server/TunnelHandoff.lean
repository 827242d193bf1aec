import Eggserve.Server.Finalize
import Eggserve.Server.TunnelAccept

/-! The head that a handoff writes. The acceptance and the response reach the
pipeline on two ways, and the response is not normalized. -/
namespace Eggserve.Server
open Rust Eggserve.Primitives Eggserve.Static Transition

def convertHandshakeWithoutNormalization (response : Response) (filePermit : Bool)
    (errorPolicy : ErrorRepresentationPolicy) : MayPanic (HyperResponse × ResponseProvenance) :=
  match toHyperResponse response filePermit with
  | .ok converted => some (converted, .service)
  | .error .fileStreamLimit =>
      (serviceUnavailableWithPolicy errorPolicy).map fun error => (error, .runtime)
  | .error _ => (internalErrorWithPolicy errorPolicy).map fun error => (error, .runtime)

/-- What the head of a handoff depends on besides the response. -/
structure HandoffContext where
  dates : HttpDate
  config : H1ConnectionPolicy
  clock : SystemTime
  completed : Nat
  filePermit : Bool
  closeAfterResponse : Bool
  streamChunkSize : Nat

namespace HandoffContext

def closes (context : HandoffContext) : Bool :=
  finishDisposition context.config context.completed context.closeAfterResponse

/-- The response of the service, from its conversion to the transport. -/
def writeHandoff (context : HandoffContext) (response : Response) : MayPanic HyperResponse := do
  let (converted, provenance) ← convertHandshakeWithoutNormalization response context.filePermit
    context.config.responsePolicy.errorPolicy
  let final ← finalizeRuntimeResponse context.dates context.config context.clock converted
    provenance
  return applyHttp1Disposition final context.closes

end HandoffContext

/-- The elements of a field value that is a list of tokens. -/
def listedTokens (value : List UInt8) : List Str :=
  match hyperToStr value with
  | some text => (text.splitOn ',').map fun token => (trim token).map Char.toLower
  | none => []

/-- A head that ends HTTP on this connection. -/
structure IsHandshake (kind : TunnelKind) (protocol : Option ProtocolName) (chunkSize : Nat)
    (head : HyperResponse) : Prop where
  upgrade : kind = .http1Upgrade →
    head.status.code = 101 ∧
      (∃ name, protocol = some name ∧ head.headers.getAll "upgrade" = [name.asBytes]) ∧
      ∃ value ∈ head.headers.getAll "connection", ("upgrade" : Str) ∈ listedTokens value
  connect : kind ≠ .http1Upgrade → 200 ≤ head.status.code ∧ head.status.code < 300
  contentLength : head.headers.getAll "content-length" = []
  transferEncoding : head.headers.getAll "transfer-encoding" = []
  noBody : wireBytes chunkSize head.body = []

/-! What `accept` returns. -/

theorem trimOws_protocol (protocol : ProtocolName) :
    trimOws protocol.asBytes = protocol.asBytes := by
  have hToken := List.all_eq_true.mp protocol.valid.2.2
  exact trimOws_of_no_ows fun b hb => not_isOwsByte_of_token (hToken b hb)

theorem runtimeField_eq_ok {name : Str} {value : List UInt8} {field : HeaderField}
    (h : runtimeField name value = .ok field) :
    field.name.text = name ∧ field.value.bytes = trimOws value := by
  simp only [runtimeField, HeaderName.new, HeaderValue.fromBytes] at h
  split at h
  · cases h
  · split at h
    · cases h
    · split at h
      · split at h
        · obtain rfl := Except.ok.inj h
          exact ⟨rfl, rfl⟩
        · cases h
      · cases h

/-- The runtime's two fields of an upgrade, and no others of their names. -/
theorem upgradeFields_eq_ok {request : TunnelRequest} {headers result : HeaderBlock}
    (h : upgradeFields request headers = .ok result) :
    (request.kind ≠ .http1Upgrade ∧ result = headers) ∨
      ∃ protocol upgrade connection, request.protocol = some protocol ∧
        result = headers.filter (fun field =>
          !field.name.is "upgrade" && !field.name.is "connection") ++ [upgrade] ++ [connection] ∧
        (upgrade.name.text = ("upgrade" : Str) ∧ upgrade.value.bytes = protocol.asBytes) ∧
        connection.name.text = ("connection" : Str) ∧ connection.value.bytes = utf8 "upgrade" := by
  unfold upgradeFields at h
  split at h
  · right
    split at h
    · cases h
    · rename_i protocol hProtocol
      simp only [bind_eq_ok] at h
      obtain ⟨upgrade, hUpgrade, connection, hConnection, hResult⟩ := h
      obtain ⟨hName, hValue⟩ := runtimeField_eq_ok hUpgrade
      rw [trimOws_protocol] at hValue
      refine ⟨protocol, upgrade, connection, hProtocol, (Except.ok.inj hResult).symm,
        ⟨hName, hValue⟩, ?_⟩
      obtain ⟨hName, hValue⟩ := runtimeField_eq_ok hConnection
      exact ⟨hName, hValue.trans (by decide)⟩
  · rename_i hKind
    exact .inl ⟨hKind, (Except.ok.inj h).symm⟩

/-- What a response of `accept` looks like before it is finalized. -/
structure BuiltHandshake (request : TunnelRequest) (response : Response) : Prop where
  status : response.status = handshakeStatus request.kind
  body : response.body = some .empty
  contentLength : (hyperHeaders response.headers).getAll "content-length" = []
  transferEncoding : (hyperHeaders response.headers).getAll "transfer-encoding" = []
  upgrade : request.kind = .http1Upgrade →
    (∃ name, request.protocol = some name ∧
      (hyperHeaders response.headers).getAll "upgrade" = [name.asBytes]) ∧
    (hyperHeaders response.headers).getAll "connection" = [utf8 "upgrade"]

/-- A name that the service did not supply and the runtime does not add. -/
theorem getAll_upgradeFields_eq_nil {request : TunnelRequest} {headers result : HeaderBlock}
    {name : Str} (h : upgradeFields request headers = .ok result)
    (hHeaders : ∀ field ∈ headers, field.name.is name = false)
    (hUpgrade : eqIgnoreAsciiCase ("upgrade" : String) name = false)
    (hConnection : eqIgnoreAsciiCase ("connection" : String) name = false) :
    (hyperHeaders result).getAll name = [] := by
  rcases upgradeFields_eq_ok h with ⟨-, rfl⟩ | ⟨_, upgrade, connection, -, rfl, hFirst, hSecond⟩
  · exact HyperHeaders.getAll_hyperHeaders_eq_nil hHeaders
  · refine HyperHeaders.getAll_hyperHeaders_eq_nil fun field hField => ?_
    simp only [List.mem_append, List.mem_filter, List.mem_singleton] at hField
    rcases hField with (⟨hField, -⟩ | rfl) | rfl
    · exact hHeaders field hField
    · rw [HeaderName.is, hFirst.1]
      exact hUpgrade
    · rw [HeaderName.is, hSecond.1]
      exact hConnection

theorem getAll_upgradeFields {request : TunnelRequest} {headers result : HeaderBlock}
    (h : upgradeFields request headers = .ok result) (hKind : request.kind = .http1Upgrade) :
    (∃ name, request.protocol = some name ∧
      (hyperHeaders result).getAll "upgrade" = [name.asBytes]) ∧
      (hyperHeaders result).getAll "connection" = [utf8 "upgrade"] := by
  rcases upgradeFields_eq_ok h with ⟨hOther, -⟩ | ⟨protocol, upgrade, connection, hProtocol, rfl,
    ⟨hUpgrade, hProtocolValue⟩, hConnection, hToken⟩
  · exact absurd hKind hOther
  · have hNone : ∀ name : String, name = "upgrade" ∨ name = "connection" →
        (hyperHeaders (headers.filter fun field =>
          !field.name.is "upgrade" && !field.name.is "connection")).getAll name = [] := by
      intro name hName
      refine HyperHeaders.getAll_hyperHeaders_eq_nil fun field hField => ?_
      have hKept := (List.mem_filter.mp hField).2
      rw [Bool.and_eq_true, Bool.not_eq_true', Bool.not_eq_true'] at hKept
      rcases hName with rfl | rfl
      · exact hKept.1
      · exact hKept.2
    have hSplit : ∀ name : String, name = "upgrade" ∨ name = "connection" →
        (hyperHeaders (headers.filter (fun field =>
          !field.name.is "upgrade" && !field.name.is "connection") ++
            [upgrade] ++ [connection])).getAll name =
          HyperHeaders.getAll [⟨"upgrade", protocol.asBytes⟩] name ++
            HyperHeaders.getAll [⟨"connection", utf8 "upgrade"⟩] name := by
      intro name hName
      rw [hyperHeaders, List.map_append, List.map_append, HyperHeaders.getAll_append,
        HyperHeaders.getAll_append]
      have hRest := hNone name hName
      rw [hyperHeaders] at hRest
      rw [hRest, List.map_singleton, List.map_singleton, hUpgrade, hProtocolValue, hConnection,
        hToken, List.nil_append]
    refine ⟨⟨protocol, hProtocol, ?_⟩, ?_⟩
    · rw [hSplit "upgrade" (.inl rfl)]
      rfl
    · rw [hSplit "connection" (.inr rfl)]
      rfl

theorem builtHandshake_of_eq_ok {request : TunnelRequest} {headers : HeaderBlock}
    {response : Response} (h : buildHandshakeResponse request headers = .ok response) :
    BuiltHandshake request response := by
  simp only [buildHandshakeResponse, bind_eq_ok] at h
  obtain ⟨accepted, hAccepted, result, hResult, hResponse⟩ := h
  obtain rfl := Except.ok.inj hResponse
  obtain ⟨rfl, hLength, hCoding⟩ := validateHandshakeHeaders_eq_ok hAccepted
  have hKept : ∀ name : Str, headers.contains name = false →
      ∀ field ∈ headers.filter (fun field => !isHopByHopHeader field.name.text),
        field.name.is name = false := by
    intro name hAbsent field hField
    have hNone := List.any_eq_false.mp hAbsent field (List.mem_filter.mp hField).1
    simpa using hNone
  exact {
    status := rfl
    body := rfl
    contentLength := getAll_upgradeFields_eq_nil hResult (hKept _ hLength) (by decide) (by decide)
    transferEncoding :=
      getAll_upgradeFields_eq_nil hResult (hKept _ hCoding) (by decide) (by decide)
    upgrade := getAll_upgradeFields hResult }

/-! What the pipeline can have at a handoff. -/

namespace TunnelExchange

variable {ι : Type} [DecidableEq ι]

/-- The response that a call of `accept` carries, once it is built. -/
def Carries (response : Response) : AcceptPc → Prop
  | .claim built => built = response
  | .store built => built = response
  | .returned (.ok built) => built = response
  | _ => False

structure HandshakeTracked (s : TunnelExchange ι) : Prop where
  built : ∀ caller response, Carries response (s.accept caller) → BuiltHandshake s.request response
  staged : ∀ acceptance, s.sidecar = some acceptance → acceptance.kind = s.request.kind
  held : ∀ acceptance, heldAcceptance s.invocation = some acceptance →
    acceptance.kind = s.request.kind

omit [DecidableEq ι] in
theorem handshakeTracked_initial {s : TunnelExchange ι} (hInitial : s.Initial) :
    s.HandshakeTracked := by
  obtain ⟨-, -, hSidecar, hIdle, hStart, -⟩ := hInitial
  refine ⟨?_, by simp [hSidecar], by simp [hStart, heldAcceptance]⟩
  intro caller response hCarries
  rw [hIdle caller] at hCarries
  exact hCarries.elim

/-- What one caller carries after it has moved. -/
theorem built_update {s : TunnelExchange ι} (h : s.HandshakeTracked) {caller : ι} {pc : AcceptPc}
    (hMoved : ∀ response, Carries response pc → BuiltHandshake s.request response) (other : ι)
    (response : Response) (hCarries : Carries response (Function.update s.accept caller pc other)) :
    BuiltHandshake s.request response :=
  (Function.forall_update_iff s.accept fun _ pc =>
    Carries response pc → BuiltHandshake s.request response).mpr
    ⟨hMoved response, fun other _ => h.built other response⟩ other hCarries

theorem handshakeTracked_step {s s' : TunnelExchange ι} {action : TunnelAction ι}
    (h : s.HandshakeTracked) (hStep : s.step action = some s') : s'.HandshakeTracked := by
  cases tunnelEffect_step hStep with
  | caller caller hEffect =>
      cases hEffect with
      | moves pc _ hAfter _ hBuilt hState =>
          subst hState
          refine ⟨built_update h fun response hCarries => ?_, h.staged, h.held⟩
          cases pc with
          | claim built =>
              obtain rfl : built = response := hCarries
              obtain ⟨headers, hHeaders⟩ := hBuilt built rfl
              exact builtHandshake_of_eq_ok hHeaders
          | store built => exact (hAfter trivial).elim
          | returned result =>
              cases result with
              | ok built => exact (hAfter trivial).elim
              | error error => exact hCarries.elim
          | idle => exact hCarries.elim
          | load headers => exact hCarries.elim
          | build headers => exact hCarries.elim
      | claims response hPc _ hState =>
          subst hState
          refine ⟨built_update h fun other hCarries => ?_, h.staged, h.held⟩
          exact h.built caller other (by rw [hPc]; exact hCarries)
      | stores response hPc hState =>
          subst hState
          refine ⟨built_update h fun other hCarries => ?_, ?_, h.held⟩
          · exact h.built caller other (by rw [hPc]; exact hCarries)
          · rintro acceptance ⟨⟩
            rfl
  | takes response _ hPc hState =>
      subst hState
      refine ⟨h.built, by simp, fun acceptance hHeld => h.staged acceptance ?_⟩
      cases hSidecar : s.sidecar with
      | none => simp [hSidecar, heldAcceptance] at hHeld
      | some staged => simpa [hSidecar, heldAcceptance] using hHeld
  | advances committed invocation _ _ _ _ hHeld hState =>
      subst hState
      exact ⟨h.built, h.staged, fun acceptance hAfter => h.held acceptance (hHeld acceptance hAfter)⟩

theorem handshakeTracked_of_reachable {s : TunnelExchange ι} (hReach : machine.Reachable s) :
    s.HandshakeTracked := by
  refine Machine.ReachableUnder.invariant ?_ ?_ hReach
  · exact fun _ hInitial => handshakeTracked_initial hInitial
  · exact fun _ _ _ h _ hStep => handshakeTracked_step h hStep

end TunnelExchange

/-! What is written. -/

/-- A built handshake is written as one. -/
theorem isHandshake_of_built {context : HandoffContext} {request : TunnelRequest}
    {response : Response} {head : HyperResponse} (h : BuiltHandshake request response)
    (hDate : context.config.dateOwner = .external →
      datesValid context.dates (hyperHeaders response.headers) = true)
    (hStays : request.kind = .http1Upgrade → context.closes = false)
    (hHead : context.writeHandoff response = some head) :
    IsHandshake request.kind request.protocol context.streamChunkSize head := by
  have hConverted : convertHandshakeWithoutNormalization response context.filePermit
      context.config.responsePolicy.errorPolicy =
        some (⟨response.status, hyperHeaders response.headers, some .empty⟩, .service) := by
    simp only [convertHandshakeWithoutNormalization, toHyperResponse, h.body]
    rfl
  rw [HandoffContext.writeHandoff, hConverted, Option.bind_eq_bind, Option.bind_some] at hHead
  obtain ⟨final, hFinal, hHead⟩ := Option.bind_eq_some_iff.mp hHead
  obtain rfl := Option.some.inj hHead
  obtain ⟨hStatus, hBody, hKept⟩ :=
    finalizeRuntimeResponse_keeps (by simpa [externalDate] using hDate) hFinal
  obtain ⟨hSameStatus, hSameBody, hSame⟩ := applyHttp1Disposition_keeps final context.closes
  have hHeaders : ∀ name : String, name ∈ blockedHeaders →
      (name : Str).map Char.toLower = (name : Str) →
      (∀ touched ∈ finalizedNames, eqIgnoreAsciiCase (touched : String) name = false) →
      final.headers.getAll name = (hyperHeaders response.headers).getAll name :=
    fun name hBlocked hLower hNames => hKept name (untouched_of_blocked hBlocked hLower hNames)
  have hCode : (applyHttp1Disposition final context.closes).status =
      handshakeStatus request.kind := by
    rw [hSameStatus, hStatus]
    exact h.status
  refine ⟨fun hKind => ?_, fun hKind => ?_, ?_, ?_, ?_⟩
  · obtain ⟨⟨protocol, hProtocol, hUpgrade⟩, hConnection⟩ := h.upgrade hKind
    refine ⟨?_, ⟨protocol, hProtocol, ?_⟩, utf8 "upgrade", ?_, by decide⟩
    · rw [hCode, hKind]
      rfl
    · rw [hSame _ (by decide), hHeaders "upgrade" (by decide) (by decide) (by decide), hUpgrade]
    · rw [hStays hKind]
      -- the connection stays open, so nothing replaces the field
      have hField := hHeaders "connection" (by decide) (by decide) (by decide)
      simp only [applyHttp1Disposition, Bool.false_eq_true, if_false, hField, hConnection,
        List.mem_singleton]
  · rw [hCode]
    cases hOther : request.kind with
    | http1Upgrade => exact absurd hOther hKind
    | connect => decide
    | extendedConnect => decide
  · rw [hSame _ (by decide), hHeaders "content-length" (by decide) (by decide) (by decide)]
    exact h.contentLength
  · rw [hSame _ (by decide), hHeaders "transfer-encoding" (by decide) (by decide) (by decide)]
    exact h.transferEncoding
  · rw [hSameBody, hBody]
    rfl

/-- Whenever a tunnel is handed off and the service has returned the response
that `accept` gave it, the head is a handshake, provided that a date of the
service is valid and, for an upgrade, that the connection is not closed by it. -/
theorem handoff_writes_handshake {ι : Type} [DecidableEq ι] (context : HandoffContext)
    (s : TunnelExchange ι) (hReach : TunnelExchange.machine.Reachable s)
    (acceptance : TunnelAcceptance ι) (response : Response)
    (hHandoff : s.invocation = .done (.handoff acceptance response)) (caller : ι)
    (hReturned : s.accept caller = .returned (.ok response))
    (hDate : context.config.dateOwner = .external →
      datesValid context.dates (hyperHeaders response.headers) = true)
    (hStays : acceptance.kind = .http1Upgrade → context.closes = false)
    (head : HyperResponse) (hHead : context.writeHandoff response = some head) :
    IsHandshake acceptance.kind s.request.protocol context.streamChunkSize head := by
  have hTracked := TunnelExchange.handshakeTracked_of_reachable hReach
  have hKind : acceptance.kind = s.request.kind :=
    hTracked.held acceptance (by rw [hHandoff]; rfl)
  have hBuilt : BuiltHandshake s.request response :=
    hTracked.built caller response (by rw [hReturned]; rfl)
  rw [hKind] at hStays ⊢
  exact isHandshake_of_built hBuilt hDate hStays hHead

theorem TunnelExchange.step_accept_build {ι : Type} [DecidableEq ι] {s : TunnelExchange ι}
    {caller : ι} {headers : HeaderBlock} {response : Response}
    (hPc : s.accept caller = .build headers)
    (hBuilt : buildHandshakeResponse s.request headers = .ok response) :
    TunnelExchange.machine.step s (.accept caller) =
      some (s.setAccept caller (.claim response)) := by
  simp only [machine, step, stepAccept, hPc, hBuilt]

/-- An upgrade to a protocol, before the service is admitted. -/
def upgradeExchange : TunnelExchange Unit where
  request := ⟨.http1Upgrade, some ⟨"chat", by decide, by decide, by decide⟩⟩
  committed := false
  accepted := false
  sidecar := none
  accept := fun _ => .idle
  invocation := .start
  log := []

/-- The service accepts with the given headers and returns any response. -/
theorem upgradeExchange_handoff {headers : HeaderBlock} {handshake : Response}
    (hBuilt : buildHandshakeResponse upgradeExchange.request headers = .ok handshake)
    (response : Response) :
    ∃ s : TunnelExchange Unit, TunnelExchange.machine.Reachable s ∧
      s.request = upgradeExchange.request ∧
      s.invocation = .done (.handoff ⟨(), .http1Upgrade⟩ response) ∧
      s.accept () = .returned (.ok handshake) := by
  have hStart : TunnelExchange.machine.Reachable upgradeExchange :=
    .start ⟨rfl, rfl, rfl, fun _ => rfl, rfl, rfl⟩
  have hServing := hStart.step (a := .serviceAdmission true) trivial rfl
  have hCalled := hServing.step (a := .call () headers) trivial rfl
  have hLoaded := hCalled.step (a := .accept ()) trivial rfl
  have hClaiming := hLoaded.step (a := .accept ()) trivial <|
    TunnelExchange.step_accept_build rfl (by exact hBuilt)
  have hClaimed := hClaiming.step (a := .accept ()) trivial rfl
  have hStored := hClaimed.step (a := .accept ()) trivial rfl
  have hReturned := hStored.step (a := .serviceReturns (.ok response)) trivial rfl
  have hCommitted := hReturned.step (a := .markCommitted) trivial rfl
  have hTook := hCommitted.step (a := .takeSidecar) trivial rfl
  have hHanded := hTook.step (a := .tunnelAdmission true) trivial rfl
  exact ⟨_, hHanded, rfl, rfl, rfl⟩

/-- What `accept` returns for it when the service adds nothing. -/
def chatHandshake : Response where
  status := handshakeStatus .http1Upgrade
  headers := [fixedField "upgrade" "chat" (by decide) (by decide),
    fixedField "connection" "upgrade" (by decide) (by decide)]
  body := some .empty
  normalized := false

theorem buildHandshakeResponse_chat :
    buildHandshakeResponse upgradeExchange.request [] = .ok chatHandshake := rfl

/-- No date and no identification of the server. -/
def quietContext (dateOwner : PolicyOwner) (maxRequestsPerConnection : Option Nat) :
    HandoffContext where
  dates := ⟨fun _ => none, fun _ => none⟩
  config := ⟨⟨none, .suppress, [], .minimal, by simp⟩, dateOwner, .eggServe,
    maxRequestsPerConnection⟩
  clock := 0
  completed := 0
  filePermit := true
  closeAfterResponse := false
  streamChunkSize := 1

/-- The service returns what `accept` gave it. -/
theorem handoff_writes_handshake_chat :
    ∃ (s : TunnelExchange Unit) (head : HyperResponse), TunnelExchange.machine.Reachable s ∧
      s.invocation = .done (.handoff ⟨(), .http1Upgrade⟩ chatHandshake) ∧
      (quietContext .eggServe none).writeHandoff chatHandshake = some head ∧
      IsHandshake .http1Upgrade s.request.protocol 1 head := by
  obtain ⟨s, hReach, -, hHandoff, hReturned⟩ :=
    upgradeExchange_handoff buildHandshakeResponse_chat chatHandshake
  have hHead : (quietContext .eggServe none).writeHandoff chatHandshake =
      some ⟨⟨101, by decide⟩, hyperHeaders chatHandshake.headers, some .empty⟩ := rfl
  refine ⟨s, _, hReach, hHandoff, hHead, ?_⟩
  exact handoff_writes_handshake (quietContext .eggServe none) s hReach _ _ hHandoff () hReturned
    (fun hExternal => by cases hExternal) (fun _ => rfl) _ hHead

/-- An ordinary answer to an accepted upgrade. -/
def greeting : Response := ⟨.ok, [], some (.bytes (utf8 "hello")), false⟩

theorem date_isName : ("date" : Str) ≠ [] ∧ (utf8 "date").length ≤ 256 ∧
    isValidHeaderName "date" = true := by
  decide

def twoDates : HeaderBlock :=
  [fixedField "date" "today" date_isName (by decide),
    fixedField "date" "tomorrow" date_isName (by decide)]

def twoDatesHandshake : Response :=
  { chatHandshake with headers := twoDates ++ chatHandshake.headers }

/-- Handoffs whose head is no handshake: the service returns something else than
what `accept` gave it, the service owns the date and sends two, or the response
is the last on its connection. -/
theorem handoff_without_handshake :
    (∃ (s : TunnelExchange Unit) (head : HyperResponse), TunnelExchange.machine.Reachable s ∧
      s.invocation = .done (.handoff ⟨(), .http1Upgrade⟩ greeting) ∧
      (quietContext .eggServe none).writeHandoff greeting = some head ∧
      ¬IsHandshake .http1Upgrade s.request.protocol 1 head) ∧
    (∃ (s : TunnelExchange Unit) (head : HyperResponse), TunnelExchange.machine.Reachable s ∧
      s.invocation = .done (.handoff ⟨(), .http1Upgrade⟩ twoDatesHandshake) ∧
      s.accept () = .returned (.ok twoDatesHandshake) ∧
      (quietContext .external none).writeHandoff twoDatesHandshake = some head ∧
      ¬IsHandshake .http1Upgrade s.request.protocol 1 head) ∧
    ∃ (s : TunnelExchange Unit) (head : HyperResponse), TunnelExchange.machine.Reachable s ∧
      s.invocation = .done (.handoff ⟨(), .http1Upgrade⟩ chatHandshake) ∧
      s.accept () = .returned (.ok chatHandshake) ∧
      (quietContext .eggServe (some 1)).writeHandoff chatHandshake = some head ∧
      ¬IsHandshake .http1Upgrade s.request.protocol 1 head := by
  refine ⟨?_, ?_, ?_⟩
  · obtain ⟨s, hReach, -, hHandoff, -⟩ :=
      upgradeExchange_handoff buildHandshakeResponse_chat greeting
    refine ⟨s, _, hReach, hHandoff, rfl, fun hHandshake => ?_⟩
    exact absurd (hHandshake.upgrade rfl).1 (by decide)
  · have hBuilt : buildHandshakeResponse upgradeExchange.request twoDates =
        .ok twoDatesHandshake := rfl
    obtain ⟨s, hReach, -, hHandoff, hReturned⟩ := upgradeExchange_handoff hBuilt twoDatesHandshake
    refine ⟨s, _, hReach, hHandoff, hReturned, rfl, fun hHandshake => ?_⟩
    exact absurd (hHandshake.upgrade rfl).1 (by decide)
  · obtain ⟨s, hReach, -, hHandoff, hReturned⟩ :=
      upgradeExchange_handoff buildHandshakeResponse_chat chatHandshake
    refine ⟨s, _, hReach, hHandoff, hReturned, rfl, fun hHandshake => ?_⟩
    exact absurd (hHandshake.upgrade rfl).2.2 (by decide)

end Eggserve.Server
