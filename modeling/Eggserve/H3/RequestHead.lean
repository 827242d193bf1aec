import Eggserve.Core.RequestHead
import Eggserve.Primitives.Upgrade

/-! The head conversion of HTTP/3, and the authority of a request over all three
protocols. -/
namespace Eggserve.H3
open Rust Eggserve.Primitives Eggserve.Server

structure HeadLimits where
  maxRequestTargetBytes : Nat
  maxHeaders : Nat
  maxHeaderBytes : Nat
  deriving DecidableEq

/-- `u8::to_ascii_lowercase`. -/
def byteLower (b : UInt8) : UInt8 := if 0x41 ≤ b ∧ b ≤ 0x5a then b + 0x20 else b

/-- `[u8]::eq_ignore_ascii_case`. -/
def bytesEqIgnoreAsciiCase (first second : List UInt8) : Bool :=
  first.map byteLower = second.map byteLower

/-- The fields of a connection, which HTTP/3 does not have. -/
def isConnectionHeader (name : Str) : Bool :=
  ["connection", "keep-alive", "proxy-connection", "transfer-encoding", "upgrade"].any
    fun forbidden : String => name.map Char.toLower = forbidden.toList

/-- One turn of the loop over the fields. -/
def convertField (limits : HeadLimits) (done : Nat × HeaderBlock) (field : HyperField) :
    Except ServiceError (Nat × HeaderBlock) := do
  failIf (isConnectionHeader field.name = true)
    (ServiceError.rejected 400 "forbidden HTTP/3 connection header")
  failIf (eqIgnoreAsciiCase field.name "te" = true ∧
      bytesEqIgnoreAsciiCase field.value (utf8 "trailers") = false)
    (ServiceError.rejected 400 "invalid HTTP/3 TE header")
  let headerBytes :=
    saturatingAdd (saturatingAdd done.1 (utf8 field.name).length) field.value.length
  failIf (limits.maxHeaderBytes < headerBytes)
    (ServiceError.rejected 431 "request headers too large")
  let name ← (HeaderName.new field.name).mapError fun _ =>
    ServiceError.rejected 400 "invalid header name"
  let value ← (HeaderValue.fromBytes field.value).mapError fun _ =>
    ServiceError.rejected 400 "invalid header value"
  return (headerBytes, done.2 ++ [⟨name, value⟩])

/-- The authority is that of the URI. The `Host` fields are not looked at. -/
def convertAuthority (request : HyperRequest) : Except ServiceError (Option Authority) :=
  request.uri.authority.mapM fun text =>
    (Authority.parse text).mapError fun _ => ServiceError.rejected 400 "invalid authority"

def convertRequestHead (request : HyperRequest) (limits : HeadLimits) :
    Except ServiceError RequestHead := do
  failIf (isHttpToken request.method = false) (ServiceError.rejected 400 "invalid method")
  failIf (request.uri.scheme.any (fun scheme => eqIgnoreAsciiCase scheme "https") = false)
    (ServiceError.rejected 400 "HTTP/3 requires https scheme")
  let rawTarget := Core.rawTarget request.uri
  failIf (limits.maxRequestTargetBytes < (utf8 rawTarget).length)
    (ServiceError.rejected 414 "request target too long")
  let target ← (RequestTarget.parse rawTarget).mapError fun _ =>
    ServiceError.rejected 400 "invalid request target"
  failIf (limits.maxHeaders < request.headers.length)
    (ServiceError.rejected 431 "too many request headers")
  let (_, headers) ← request.headers.foldlM (convertField limits) (0, [])
  let authority ← convertAuthority request
  return ⟨request.method, target, .http3, headers, authority⟩

theorem convertRequestHead_eq_ok {request : HyperRequest} {limits : HeadLimits}
    {head : RequestHead} (h : convertRequestHead request limits = .ok head) :
    ∃ target bytes headers authority,
      request.headers.foldlM (convertField limits) (0, []) = .ok (bytes, headers) ∧
      convertAuthority request = .ok authority ∧
      head = ⟨request.method, target, .http3, headers, authority⟩ := by
  simp only [convertRequestHead, bind_eq_ok] at h
  obtain ⟨_, -, _, -, _, -, target, -, _, -, ⟨bytes, headers⟩, hHeaders, authority, hAuthority,
    hHead⟩ := h
  exact ⟨target, bytes, headers, authority, hHeaders, hAuthority, (Except.ok.inj hHead).symm⟩

/-! The authority of an accepted request. -/

/-- Every `Host` value parses, all of them and the authority of the URI are that
of the head, and the head has none without them. A service that routes by the
fields of the head comes to the same authority. -/
structure OneAuthority (request : HyperRequest) (head : RequestHead) : Prop where
  hosts : ∀ value ∈ request.headers.getAll "host", ∃ host, parseHost value = .ok host ∧
    head.authority = some host
  uri : ∀ text, request.uri.authority = some text → ∃ authority,
    Authority.parse text = .ok authority ∧ head.authority = some authority
  absent : request.headers.getAll "host" = [] → request.uri.authority = none →
    head.authority = none
  routed : ∀ value ∈ head.headers.getAll "host", ∃ text host, value.toStr = some text ∧
    Authority.parse text = .ok host ∧ head.authority = some host

/-- The `Host` fields name the authority of the URI. -/
def HostsAgree (request : HyperRequest) : Prop :=
  ∀ value ∈ request.headers.getAll "host", ∃ text host, request.uri.authority = some text ∧
    Authority.parse text = .ok host ∧ parseHost value = .ok host

section Authorities

variable {request : HyperRequest} {head : RequestHead}

/-- A field of the head is a field of the request, trimmed. -/
def Converts (field : HyperField) (converted : HeaderField) : Prop :=
  converted.name.text = field.name ∧ converted.value.bytes = trimOws field.value

theorem foldlM_converts {convert : Nat × HeaderBlock → HyperField →
      Except ServiceError (Nat × HeaderBlock)}
    (hTurn : ∀ done field next, convert done field = .ok next →
      ∃ converted, next.2 = done.2 ++ [converted] ∧ Converts field converted)
    {fields : HyperHeaders} {done last : Nat × HeaderBlock}
    (h : fields.foldlM convert done = .ok last) :
    ∃ added, last.2 = done.2 ++ added ∧ List.Forall₂ Converts fields added := by
  induction fields generalizing done with
  | nil =>
      obtain rfl := Except.ok.inj h
      exact ⟨[], (List.append_nil _).symm, .nil⟩
  | cons field rest ih =>
      rw [List.foldlM_cons, bind_eq_ok] at h
      obtain ⟨next, hField, hRest⟩ := h
      obtain ⟨converted, hNext, hConverts⟩ := hTurn done field next hField
      obtain ⟨added, hLast, hAdded⟩ := ih hRest
      refine ⟨converted :: added, ?_, .cons hConverts hAdded⟩
      rw [hLast, hNext, List.append_assoc]
      rfl

theorem converts_of_new {field : HyperField} {name : HeaderName} {value : HeaderValue}
    {nameError valueError : HeaderError → ServiceError}
    (hName : (HeaderName.new field.name).mapError nameError = .ok name)
    (hValue : (HeaderValue.fromBytes field.value).mapError valueError = .ok value) :
    Converts field ⟨name, value⟩ :=
  ⟨HeaderName.text_of_new (mapError_eq_ok.mp hName),
    HeaderValue.bytes_of_fromBytes (mapError_eq_ok.mp hValue)⟩

theorem convertField_converts {limits : HeadLimits} (done : Nat × HeaderBlock)
    (field : HyperField) (next : Nat × HeaderBlock) (h : convertField limits done field = .ok next) :
    ∃ converted, next.2 = done.2 ++ [converted] ∧ Converts field converted := by
  simp only [convertField, bind_eq_ok] at h
  obtain ⟨_, -, _, -, _, -, name, hName, value, hValue, hNext⟩ := h
  obtain rfl := Except.ok.inj hNext
  exact ⟨_, rfl, converts_of_new hName hValue⟩

theorem convertHeaders_converts {limits : Server.HeadLimits} {headers : HeaderBlock}
    (h : convertHeaders limits request.headers = .ok headers) :
    List.Forall₂ Converts request.headers headers := by
  simp only [convertHeaders, bind_eq_ok] at h
  obtain ⟨⟨bytes, block⟩, hFold, hBlock⟩ := h
  obtain rfl := Except.ok.inj hBlock
  obtain ⟨added, hLast, hConverts⟩ := foldlM_converts (fun done field next hField => by
    simp only [Server.convertField, bind_eq_ok] at hField
    obtain ⟨_, -, name, hName, value, hValue, hNext⟩ := hField
    obtain rfl := Except.ok.inj hNext
    exact ⟨_, rfl, converts_of_new hName hValue⟩) hFold
  rw [List.nil_append] at hLast
  rw [hLast]
  exact hConverts

/-- A `Host` value of the head is one of the request, trimmed. -/
theorem mem_getAll_of_converts {fields : HyperHeaders} {headers : HeaderBlock} {name : Str}
    (h : List.Forall₂ Converts fields headers) :
    ∀ value ∈ headers.getAll name, ∃ raw ∈ fields.getAll name, value.bytes = trimOws raw := by
  intro value hValue
  obtain ⟨converted, hMem, rfl⟩ := List.mem_map.mp hValue
  obtain ⟨hConverted, hIs⟩ := List.mem_filter.mp hMem
  have hField : ∃ field ∈ fields, Converts field converted := by
    clear hValue hMem hIs
    induction h with
    | nil => cases hConverted
    | cons hHead _ ih =>
        rcases List.mem_cons.mp hConverted with rfl | hRest
        · exact ⟨_, List.mem_cons_self, hHead⟩
        · obtain ⟨field, hMem, hConverts⟩ := ih hRest
          exact ⟨field, List.mem_cons_of_mem _ hMem, hConverts⟩
  obtain ⟨field, hMem, hName, hBytes⟩ := hField
  rw [HeaderName.is, hName] at hIs
  exact ⟨field.value, List.mem_map_of_mem (List.mem_filter.mpr ⟨hMem, hIs⟩), hBytes⟩

theorem trimOwsChars_utf8 (text : Str) : trimOws (utf8 text) = utf8 (trimOwsChars text) :=
  trimBlank_flatMap encodes_ows text

theorem parse_trimOwsChars (text : Str) :
    Authority.parse (trimOwsChars text) = Authority.parse text := by
  have hTrim : trimOwsChars (trimOwsChars text) = trimOwsChars text :=
    trimBlank_trimBlank isOwsChar text
  simp only [Authority.parse, hTrim]

theorem routed_of_hosts {headers : HeaderBlock} {authority : Option Authority}
    (hConverts : List.Forall₂ Converts request.headers headers)
    (hHosts : ∀ value ∈ request.headers.getAll "host", ∃ host, parseHost value = .ok host ∧
      authority = some host) :
    ∀ value ∈ headers.getAll "host", ∃ text host, value.toStr = some text ∧
      Authority.parse text = .ok host ∧ authority = some host := by
  intro value hValue
  obtain ⟨raw, hRaw, hBytes⟩ := mem_getAll_of_converts hConverts value hValue
  obtain ⟨host, hHost, hAuthority⟩ := hHosts raw hRaw
  unfold parseHost at hHost
  cases hText : hyperToStr raw with
  | none =>
      rw [hText] at hHost
      cases hHost
  | some text =>
      simp only [hText] at hHost
      have hParse : Authority.parse text = .ok host := mapError_eq_ok.mp hHost
      refine ⟨trimOwsChars text, host, ?_, (parse_trimOwsChars text).trans hParse, hAuthority⟩
      rw [HeaderValue.toStr, hBytes, (hyperToStr_eq_some.mp hText).1, trimOwsChars_utf8,
        fromUtf8_utf8]

/-- The authority of the URI is parsed, if there is one. -/
theorem mapM_authority {text : Option Str} {onError : AuthorityError → ServiceError}
    {uri : Option Authority}
    (h : (text.mapM fun text => (Authority.parse text).mapError onError) = .ok uri) :
    (∀ found, text = some found → ∃ parsed, Authority.parse found = .ok parsed ∧
      uri = some parsed) ∧ (text = none → uri = none) := by
  cases text with
  | none =>
      obtain rfl := Except.ok.inj h
      exact ⟨fun _ hText => (nomatch hText), fun _ => rfl⟩
  | some found =>
      rw [Option.mapM_some, map_eq_pure_bind, bind_eq_ok] at h
      obtain ⟨parsed, hParsed, hUri⟩ := h
      obtain rfl := Except.ok.inj hUri
      refine ⟨fun other hText => ?_, fun hText => nomatch hText⟩
      obtain rfl := Option.some.inj hText
      exact ⟨parsed, mapError_eq_ok.mp hParsed, rfl⟩

/-- The `Host` loop and the comparison with the URI leave one authority. -/
theorem convertAuthority_eq_ok {authority : Option Authority}
    (h : Server.convertAuthority request = .ok authority) :
    (∀ value ∈ request.headers.getAll "host", ∃ host, parseHost value = .ok host ∧
      authority = some host) ∧
    (∀ text, request.uri.authority = some text → ∃ uri, Authority.parse text = .ok uri ∧
      authority = some uri) ∧
    (request.headers.getAll "host" = [] → request.uri.authority = none → authority = none) := by
  simp only [Server.convertAuthority, bind_eq_ok, failIf_eq_ok] at h
  obtain ⟨hosts, hHosts, uri, hUri, _, hSame, hAuthority⟩ := h
  have hFirst : ∀ host ∈ hosts, hosts.head? = some host := by
    cases hosts with
    | nil => exact fun host hMem => absurd hMem List.not_mem_nil
    | cons first rest =>
        refine List.forall_mem_cons.mpr ⟨rfl, fun host hMem => ?_⟩
        by_contra hOther
        exact hSame (List.any_eq_true.mpr ⟨host, hMem, decide_eq_true (Ne.symm hOther)⟩)
  have hUriParsed := mapM_authority hUri
  have hAll : (∀ host ∈ hosts, authority = some host) ∧ (∀ found, uri = some found →
      authority = some found) ∧ (hosts = [] → uri = none → authority = none) := by
    cases uri with
    | none =>
        obtain rfl : hosts.head? = authority := Except.ok.inj hAuthority
        exact ⟨hFirst, fun _ h => (nomatch h), fun hNone _ => by rw [hNone]; rfl⟩
    | some found =>
        cases hHead : hosts.head? with
        | none =>
            rw [hHead] at hAuthority
            obtain rfl : some found = authority := Except.ok.inj hAuthority
            refine ⟨fun host hMem => ?_, fun _ h => h, fun _ h => nomatch h⟩
            cases hHead.symm.trans (hFirst host hMem)
        | some host =>
            simp only [hHead] at hAuthority
            by_cases hEqual : found ≠ host
            · rw [if_pos hEqual] at hAuthority
              cases hAuthority
            · rw [if_neg hEqual] at hAuthority
              obtain rfl : some found = authority := Except.ok.inj hAuthority
              refine ⟨fun other hMem => ?_, fun _ h => h, fun _ h => nomatch h⟩
              rw [not_not.mp hEqual, ← hHead]
              exact hFirst other hMem
  refine ⟨fun value hValue => ?_, fun text hText => ?_, fun hNone hAbsent => ?_⟩
  · obtain ⟨host, hMem, hHost⟩ := mapM_mem hHosts value hValue
    exact ⟨host, hHost, hAll.1 host hMem⟩
  · obtain ⟨found, hParse, hFound⟩ := hUriParsed.1 text hText
    exact ⟨found, hParse, hAll.2.1 found hFound⟩
  · rw [hNone] at hHosts
    exact hAll.2.2 (Except.ok.inj hHosts).symm (hUriParsed.2 hAbsent)

theorem oneAuthority_of_convertAuthority {headers : HeaderBlock} {authority : Option Authority}
    (hHeaders : head.headers = headers) (hHead : head.authority = authority)
    (hConverts : List.Forall₂ Converts request.headers headers)
    (h : Server.convertAuthority request = .ok authority) : OneAuthority request head := by
  obtain ⟨hHosts, hUri, hAbsent⟩ := convertAuthority_eq_ok h
  rw [← hHead] at hHosts hUri hAbsent
  refine ⟨hHosts, hUri, hAbsent, ?_⟩
  rw [hHeaders]
  exact routed_of_hosts hConverts hHosts

theorem oneAuthority_http1 {limits : Server.HeadLimits}
    (h : Server.convertRequestHead request limits = .ok head) : OneAuthority request head := by
  simp only [Server.convertRequestHead, bind_eq_ok] at h
  obtain ⟨_, -, version, -, _, -, target, -, headers, hHeaders, authority, hAuthority, hHead⟩ := h
  obtain rfl := Except.ok.inj hHead
  exact oneAuthority_of_convertAuthority rfl rfl (convertHeaders_converts hHeaders) hAuthority

theorem oneAuthority_http2 {limits : Core.HeadLimits}
    (h : Core.convertRequestHead request limits = .ok head) : OneAuthority request head := by
  obtain ⟨version, target, headers, authority, -, hHeaders, hAuthority, rfl⟩ :=
    Core.convertRequestHead_eq_ok h
  exact oneAuthority_of_convertAuthority rfl rfl (convertHeaders_converts hHeaders) hAuthority

/-- Without a look at the `Host` fields, all depends on what they are. -/
theorem oneAuthority_http3_iff {limits : HeadLimits}
    (h : convertRequestHead request limits = .ok head) :
    OneAuthority request head ↔ HostsAgree request := by
  obtain ⟨target, bytes, headers, authority, hHeaders, hAuthority, rfl⟩ :=
    convertRequestHead_eq_ok h
  obtain ⟨added, hAdded, hConverts⟩ := foldlM_converts convertField_converts hHeaders
  obtain rfl : headers = added := hAdded
  obtain ⟨hUri, hAbsent⟩ := mapM_authority hAuthority
  constructor
  · intro hOne value hValue
    obtain ⟨host, hHost, hSame⟩ := hOne.hosts value hValue
    cases hText : request.uri.authority with
    | none => cases hSame.symm.trans (hAbsent hText)
    | some text =>
        obtain ⟨parsed, hParsed, hFound⟩ := hUri text hText
        obtain rfl := Option.some.inj (hSame.symm.trans hFound)
        exact ⟨text, host, rfl, hParsed, hHost⟩
  · intro hAgree
    have hHosts : ∀ value ∈ request.headers.getAll "host", ∃ host, parseHost value = .ok host ∧
        authority = some host := by
      intro value hValue
      obtain ⟨text, host, hText, hParse, hHost⟩ := hAgree value hValue
      obtain ⟨parsed, hParsed, hFound⟩ := hUri text hText
      obtain rfl := Except.ok.inj (hParse.symm.trans hParsed)
      exact ⟨host, hHost, hFound⟩
    exact ⟨hHosts, hUri, fun _ hNone => hAbsent hNone, routed_of_hosts hConverts hHosts⟩

end Authorities

/-- A request that is accepted over HTTP/1 or HTTP/2 has one authority; over
HTTP/3 it has, exactly when its `Host` fields name the authority of the URI. -/
theorem accepted_oneAuthority (request : HyperRequest) (head : RequestHead) :
    (∀ limits, Server.convertRequestHead request limits = .ok head →
      OneAuthority request head) ∧
    (∀ limits, Core.convertRequestHead request limits = .ok head →
      OneAuthority request head) ∧
    ∀ limits, convertRequestHead request limits = .ok head →
      (OneAuthority request head ↔ HostsAgree request) :=
  ⟨fun _ h => oneAuthority_http1 h, fun _ h => oneAuthority_http2 h,
    fun _ h => oneAuthority_http3_iff h⟩

/-- A request with the given `Host` fields. -/
def hostRequest (hosts : List String) : HyperRequest where
  method := "GET"
  version := .http3
  uri := ⟨some "https", some "a.example", some "/", "https://a.example/"⟩
  headers := hosts.map fun host => ⟨"host", utf8 host⟩

def wideLimits : HeadLimits := ⟨8192, 100, 16384⟩

theorem exists_head {request : HyperRequest} {limits : HeadLimits}
    (h : (convertRequestHead request limits).toOption.isSome = true) :
    ∃ head, convertRequestHead request limits = .ok head := by
  cases hHead : convertRequestHead request limits with
  | error e =>
      rw [hHead] at h
      cases h
  | ok head => exact ⟨head, rfl⟩

/-- One `Host` field that agrees. -/
theorem agreeing_host_oneAuthority :
    ∃ head, convertRequestHead (hostRequest ["a.example"]) wideLimits = .ok head ∧
      OneAuthority (hostRequest ["a.example"]) head := by
  obtain ⟨head, hHead⟩ := @exists_head (hostRequest ["a.example"]) wideLimits (by decide +kernel)
  refine ⟨head, hHead, ((accepted_oneAuthority _ _).2.2 _ hHead).mpr fun value hValue => ?_⟩
  obtain rfl := List.mem_singleton.mp hValue
  exact ⟨"a.example", ⟨"a.example", by decide +kernel⟩, rfl, by rfl, by rfl⟩

/-- A second `Host` field that names another host is let through. -/
theorem second_host_disagrees :
    ∃ head, convertRequestHead (hostRequest ["a.example", "b.example"]) wideLimits = .ok head ∧
      ¬OneAuthority (hostRequest ["a.example", "b.example"]) head := by
  obtain ⟨head, hHead⟩ :=
    @exists_head (hostRequest ["a.example", "b.example"]) wideLimits (by decide +kernel)
  refine ⟨head, hHead, fun hOne => ?_⟩
  obtain ⟨text, host, hText, hParse, hHost⟩ :=
    (oneAuthority_http3_iff hHead).mp hOne (utf8 "b.example") (List.mem_of_mem_tail
      List.mem_cons_self)
  obtain rfl := Option.some.inj hText
  have hDiffer : (Authority.parse "a.example").toOption ≠
      (parseHost (utf8 "b.example")).toOption := by decide +kernel
  exact hDiffer (by rw [hParse, hHost]; rfl)

end Eggserve.H3
