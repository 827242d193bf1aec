import Eggserve.Primitives.Interim
import Eggserve.Primitives.Tunnel

/-! Fields that concern one connection only. Four paths filter them out of what
an application supplies, each by its own list: final responses, interim
responses, tunnel handshakes and presented rejections. -/
namespace Eggserve.Server
open Rust Eggserve.Primitives

/-! The filter of a presented rejection. -/

/-- The names that the loop of `present_runtime_rejection` passes over. -/
def presentationIgnores (name : Str) : Bool :=
  ["content-length", "transfer-encoding", "connection", "keep-alive", "upgrade", "trailer", "date",
    "server"].any fun ignored : String => name.map Char.toLower = (ignored : Str)

def maxPresentedHeaders : Nat := 64

def maxPresentedBytes : Nat := 16 * 1024

/-- The loop over the presented fields; `none` falls back to the default
response. Every canonical name and value is one of the transport. -/
def appendPresented : List HeaderField → HeaderBlock → Nat → Option HeaderBlock
  | [], headers, _ => some headers
  | field :: rest, headers, bytes =>
      if presentationIgnores field.name.text then appendPresented rest headers bytes
      else
        let bytes := saturatingAdd (saturatingAdd bytes (utf8 field.name.text).length)
          field.value.bytes.length
        if bytes > maxPresentedBytes ∨ headers.length ≥ maxPresentedHeaders then none
        else appendPresented rest (headers ++ [field]) bytes

/-- One field more than the limit is looked at, so that it can fail. -/
def presentedHeaders (headers : HeaderBlock) : Option HeaderBlock :=
  appendPresented (headers.take (maxPresentedHeaders + 1)) [] 0

/-- The fields of the presentation that reach the response if it fits. -/
def presentedFields (headers : HeaderBlock) : HeaderBlock :=
  (headers.take (maxPresentedHeaders + 1)).filter fun field =>
    !presentationIgnores field.name.text

def fieldBytes (headers : HeaderBlock) : Nat :=
  (headers.map fun field => (utf8 field.name.text).length + field.value.bytes.length).sum

/-- The presented fields are within the limits of the loop. -/
def presentationFits (headers : HeaderBlock) : Bool :=
  (presentedFields headers).length ≤ maxPresentedHeaders &&
    fieldBytes (presentedFields headers) ≤ maxPresentedBytes

@[simp] theorem fieldBytes_cons (field : HeaderField) (headers : HeaderBlock) :
    fieldBytes (field :: headers) =
      (utf8 field.name.text).length + field.value.bytes.length + fieldBytes headers := by
  simp [fieldBytes]

/-- Saturation does not show below the limit. -/
theorem saturatingAdd_le_iff {bytes name value : Nat} :
    (saturatingAdd (saturatingAdd bytes name) value ≤ maxPresentedBytes ↔
      bytes + (name + value) ≤ maxPresentedBytes) ∧
    (bytes + (name + value) ≤ maxPresentedBytes →
      saturatingAdd (saturatingAdd bytes name) value = bytes + (name + value)) := by
  unfold saturatingAdd maxPresentedBytes u64Max
  omega

theorem appendPresented_eq (rest headers : HeaderBlock) (bytes : Nat)
    (hCount : headers.length ≤ maxPresentedHeaders) (hBytes : bytes ≤ maxPresentedBytes) :
    appendPresented rest headers bytes =
      let kept := rest.filter fun field => !presentationIgnores field.name.text
      if headers.length + kept.length ≤ maxPresentedHeaders ∧
          bytes + fieldBytes kept ≤ maxPresentedBytes then some (headers ++ kept)
      else none := by
  induction rest generalizing headers bytes with
  | nil => simp [appendPresented, fieldBytes, hCount, hBytes]
  | cons field rest ih =>
      cases hIgnored : presentationIgnores field.name.text with
      | true => simp only [appendPresented, hIgnored, ↓reduceIte, ih headers bytes hCount hBytes,
          List.filter_cons, Bool.not_true, Bool.false_eq_true]
      | false =>
          obtain ⟨hLimit, hExact⟩ := @saturatingAdd_le_iff bytes (utf8 field.name.text).length
            field.value.bytes.length
          simp only [appendPresented, hIgnored, Bool.false_eq_true, ↓reduceIte, List.filter_cons,
            Bool.not_false, List.length_cons, fieldBytes_cons]
          by_cases hFits : bytes + ((utf8 field.name.text).length + field.value.bytes.length) ≤
              maxPresentedBytes ∧ headers.length < maxPresentedHeaders
          · rw [if_neg (by omega), hExact hFits.1,
              ih _ _ (by rw [List.length_append]; exact hFits.2) hFits.1]
            simp only [List.length_append, List.length_cons, List.length_nil, List.append_assoc,
              List.singleton_append, Nat.add_assoc, Nat.add_comm 1]
          · rw [if_pos (by omega), if_neg (by omega)]

theorem presentedHeaders_eq_some {headers kept : HeaderBlock} :
    presentedHeaders headers = some kept ↔
      presentationFits headers = true ∧ kept = presentedFields headers := by
  rw [presentedHeaders, appendPresented_eq _ _ _ (Nat.zero_le _) (Nat.zero_le _)]
  simp only [List.length_nil, Nat.zero_add, List.nil_append, presentationFits, Bool.and_eq_true,
    decide_eq_true_eq]
  change (if (presentedFields headers).length ≤ maxPresentedHeaders ∧
    fieldBytes (presentedFields headers) ≤ maxPresentedBytes then some (presentedFields headers)
    else none) = some kept ↔ _
  split_ifs with hFits
  · simp only [Option.some.injEq, hFits, and_self, true_and, eq_comm]
  · simp only [hFits, false_and]

/-! The rule. -/

/-- A token of a `Connection` field of the block names the field. -/
def nominated (headers : HeaderBlock) (name : HeaderName) : Bool :=
  (connectionTokens headers).any name.is

/-- The field goes beyond this connection. -/
def endToEnd (headers : HeaderBlock) (field : HeaderField) : Bool :=
  !isHopByHopHeader field.name.text && !nominated headers field.name

def KeepsEndToEnd (headers kept : HeaderBlock) : Prop :=
  ∀ field ∈ kept, endToEnd headers field = true

def hasFraming (headers : HeaderBlock) : Bool :=
  headers.contains "content-length" || headers.contains "transfer-encoding"

/-- The limits of the handshake and of the presentation. -/
structure WithinLimits (headers : HeaderBlock) : Prop where
  presented_count : headers.length ≤ maxPresentedHeaders
  presented_bytes : fieldBytes (presentedFields headers) ≤ maxPresentedBytes
  handshake_count :
    (headers.filter fun field => !isHopByHopHeader field.name.text).length ≤ maxTunnelHeaderCount
  handshake_bytes :
    handshakeHeaderBytes (headers.filter fun field => !isHopByHopHeader field.name.text) ≤
      maxTunnelHeaderBytes

/-- What each path keeps of a block goes beyond the connection, and where no
path has another reason to drop a field, all four keep the same ones. -/
structure TreatedAlike (headers : HeaderBlock) : Prop where
  final : KeepsEndToEnd headers (stripHopByHop headers)
  interim : ∀ kept, normalizeInterimHeaders headers = .ok kept → KeepsEndToEnd headers kept
  handshake : ∀ kept, validateHandshakeHeaders headers = .ok kept → KeepsEndToEnd headers kept
  rejection : ∀ kept, presentedHeaders headers = some kept → KeepsEndToEnd headers kept
  same : hasFraming headers = false → headers.contains "date" = false →
    headers.contains "server" = false → WithinLimits headers →
    normalizeInterimHeaders headers = .ok (stripHopByHop headers) ∧
      validateHandshakeHeaders headers = .ok (stripHopByHop headers) ∧
      presentedHeaders headers = some (stripHopByHop headers)

/-- A field that is not hop-by-hop by its name is nominated. Interim responses
and handshakes keep it. -/
def hasStray (headers : HeaderBlock) : Bool :=
  headers.any fun field => !isHopByHopHeader field.name.text && nominated headers field.name

/-- The hop-by-hop names that a rejection does not pass over. -/
def presentationOverlooks (name : Str) : Bool :=
  ["proxy-authenticate", "proxy-authorization", "proxy-connection", "te"].any
    fun overlooked : String => eqIgnoreAsciiCase name overlooked

/-- One of the fields that a rejection looks at is hop-by-hop by a name that it
overlooks, or nominated and not passed over. -/
def presentsHopByHop (headers : HeaderBlock) : Bool :=
  (headers.take (maxPresentedHeaders + 1)).any fun field =>
    presentationOverlooks field.name.text ||
      !presentationIgnores field.name.text && nominated headers field.name

theorem stripHopByHop_eq (headers : HeaderBlock) :
    stripHopByHop headers = headers.filter (endToEnd headers) := rfl

theorem keepsEndToEnd_strip (headers : HeaderBlock) :
    KeepsEndToEnd headers (stripHopByHop headers) := by
  intro field hField
  rw [stripHopByHop_eq] at hField
  exact (List.mem_filter.mp hField).2

/-- Filtering by name alone is enough exactly when no other field is nominated. -/
theorem keepsEndToEnd_filter_iff (headers : HeaderBlock) :
    KeepsEndToEnd headers (headers.filter fun field => !isHopByHopHeader field.name.text) ↔
      hasStray headers = false := by
  simp only [KeepsEndToEnd, hasStray, List.any_eq_false, List.mem_filter, endToEnd,
    Bool.and_eq_true, Bool.not_eq_true', not_and, Bool.not_eq_true, and_imp]
  constructor
  · intro hKeeps field hField hName
    exact (hKeeps field hField hName).2
  · intro hNone field hField hName
    exact ⟨hName, hNone field hField hName⟩

/-- What a rejection passes over is hop-by-hop, framing or a field of the server. -/
theorem presentationIgnores_cases {name : Str} (hIgnored : presentationIgnores name = true) :
    isHopByHopHeader name = true ∨ eqIgnoreAsciiCase name ("content-length" : String) = true ∨
      eqIgnoreAsciiCase name ("date" : String) = true ∨
      eqIgnoreAsciiCase name ("server" : String) = true := by
  obtain ⟨ignored, hMem, hName⟩ := List.any_eq_true.mp hIgnored
  have hLowers : ∀ ignored ∈ ["content-length", "transfer-encoding", "connection", "keep-alive",
      "upgrade", "trailer", "date", "server"],
      (ignored : Str).map Char.toLower = (ignored : Str) := by decide
  have hIs : eqIgnoreAsciiCase name ignored = true := by
    rw [eqIgnoreAsciiCase, hLowers ignored hMem]
    exact hName
  have hHops : ∀ ignored ∈ ["content-length", "transfer-encoding", "connection", "keep-alive",
      "upgrade", "trailer", "date", "server"],
      ignored ∈ ["connection", "keep-alive", "proxy-authenticate", "proxy-authorization",
        "proxy-connection", "te", "trailer", "transfer-encoding", "upgrade"] ∨
      ignored = "content-length" ∨ ignored = "date" ∨ ignored = "server" := by decide
  rcases hHops ignored hMem with hHop | rfl | rfl | rfl
  · exact .inl (List.any_eq_true.mpr ⟨ignored, hHop, hIs⟩)
  · exact .inr (.inl hIs)
  · exact .inr (.inr (.inl hIs))
  · exact .inr (.inr (.inr hIs))

/-- A hop-by-hop name is passed over or overlooked, and never both. -/
theorem presentationOverlooks_eq (name : Str) :
    presentationOverlooks name = (!presentationIgnores name && isHopByHopHeader name) := by
  cases hOverlooked : presentationOverlooks name with
  | true =>
      obtain ⟨overlooked, hMem, hName⟩ := List.any_eq_true.mp hOverlooked
      have hSeparate : ∀ overlooked ∈ ["proxy-authenticate", "proxy-authorization",
          "proxy-connection", "te"],
          ∀ ignored ∈ ["content-length", "transfer-encoding", "connection", "keep-alive",
            "upgrade", "trailer", "date", "server"],
          (overlooked : Str).map Char.toLower ≠ (ignored : Str) := by decide
      have hHops : ∀ overlooked ∈ ["proxy-authenticate", "proxy-authorization",
          "proxy-connection", "te"],
          overlooked ∈ ["connection", "keep-alive", "proxy-authenticate", "proxy-authorization",
            "proxy-connection", "te", "trailer", "transfer-encoding", "upgrade"] := by decide
      have hHop : isHopByHopHeader name = true :=
        List.any_eq_true.mpr ⟨overlooked, hHops overlooked hMem, hName⟩
      have hKept : presentationIgnores name = false := by
        refine List.any_eq_false.mpr fun ignored hIgnored hLower => ?_
        refine hSeparate overlooked hMem ignored hIgnored ?_
        exact (of_decide_eq_true hName).symm.trans (of_decide_eq_true hLower)
      rw [hHop, hKept]
      rfl
  | false =>
      cases hHop : isHopByHopHeader name with
      | false => rw [Bool.and_false]
      | true =>
          obtain ⟨hop, hMem, hName⟩ := List.any_eq_true.mp hHop
          have hLists : ∀ hop ∈ ["connection", "keep-alive", "proxy-authenticate",
              "proxy-authorization", "proxy-connection", "te", "trailer", "transfer-encoding",
              "upgrade"],
              hop ∈ ["proxy-authenticate", "proxy-authorization", "proxy-connection", "te"] ∨
                (hop : Str).map Char.toLower = (hop : Str) ∧
                  hop ∈ ["content-length", "transfer-encoding", "connection", "keep-alive",
                    "upgrade", "trailer", "date", "server"] := by decide
          rcases hLists hop hMem with hListed | ⟨hLower, hListed⟩
          · exact absurd hName (List.any_eq_false.mp hOverlooked hop hListed)
          · have hIgnored : presentationIgnores name = true :=
              List.any_eq_true.mpr ⟨hop, hListed, by rw [← hLower]; exact hName⟩
            rw [hIgnored]
            rfl

/-- The condition names the fields that the rejection keeps against the rule. -/
theorem presentsHopByHop_eq (headers : HeaderBlock) :
    presentsHopByHop headers =
      (presentedFields headers).any fun field => !endToEnd headers field := by
  rw [presentsHopByHop, presentedFields, List.any_filter]
  congr 1
  funext field
  rw [presentationOverlooks_eq, endToEnd, ← Bool.and_or_distrib_left, Bool.not_and, Bool.not_not,
    Bool.not_not]

theorem hasFraming_eq_false {headers : HeaderBlock} :
    hasFraming headers = false ↔
      headers.contains "content-length" = false ∧ headers.contains "transfer-encoding" = false :=
  Bool.or_eq_false_iff

/-- Within its limits a handshake takes the fields that are end-to-end by name. -/
theorem validateHandshakeHeaders_of_limits {headers : HeaderBlock}
    (hFraming : hasFraming headers = false) (hLimits : WithinLimits headers) :
    validateHandshakeHeaders headers =
      .ok (headers.filter fun field => !isHopByHopHeader field.name.text) := by
  obtain ⟨hLength, hCoding⟩ := hasFraming_eq_false.mp hFraming
  simp only [validateHandshakeHeaders, check_bind_eq_ok, forM_eq_ok, failIf_eq_ok,
    List.forall_mem_cons, List.not_mem_nil, Bool.not_eq_true]
  exact ⟨⟨hLength, hCoding, fun _ hMem => absurd hMem not_false⟩,
    Nat.not_lt.mpr hLimits.handshake_count, Nat.not_lt.mpr hLimits.handshake_bytes, rfl⟩

theorem presentationFits_of_limits {headers : HeaderBlock} (hLimits : WithinLimits headers) :
    presentationFits headers = true := by
  have hCount : (presentedFields headers).length ≤ maxPresentedHeaders :=
    (List.length_filter_le _ _).trans
      ((List.length_take_le' _ _).trans hLimits.presented_count)
  simp only [presentationFits, Bool.and_eq_true, decide_eq_true_eq]
  exact ⟨hCount, hLimits.presented_bytes⟩

theorem not_is_of_contains {headers : HeaderBlock} {name : Str}
    (hContains : headers.contains name = false) {field : HeaderField} (hField : field ∈ headers) :
    eqIgnoreAsciiCase field.name.text name = false := by
  have hNone := List.any_eq_false.mp hContains field hField
  simpa [HeaderName.is] using hNone

/-- Without framing and owned fields a rejection keeps the end-to-end fields,
if it keeps no other. -/
theorem presentedFields_eq_strip {headers : HeaderBlock} (hFraming : hasFraming headers = false)
    (hDate : headers.contains "date" = false) (hServer : headers.contains "server" = false)
    (hCount : headers.length ≤ maxPresentedHeaders) (hClean : presentsHopByHop headers = false) :
    presentedFields headers = stripHopByHop headers := by
  have hAll : headers.take (maxPresentedHeaders + 1) = headers :=
    List.take_of_length_le (Nat.le_succ_of_le hCount)
  rw [presentsHopByHop_eq, presentedFields, hAll] at hClean
  rw [presentedFields, hAll, stripHopByHop_eq]
  refine List.filter_congr fun field hField => ?_
  cases hIgnored : presentationIgnores field.name.text with
  | false =>
      have hKept := List.any_eq_false.mp hClean field
        (List.mem_filter.mpr ⟨hField, by rw [hIgnored]; rfl⟩)
      rw [Bool.not_eq_true, Bool.not_eq_false'] at hKept
      rw [hKept]
      rfl
  | true =>
      symm
      rcases presentationIgnores_cases hIgnored with hHop | hIs | hIs | hIs
      · simp [endToEnd, hHop]
      · rw [not_is_of_contains (hasFraming_eq_false.mp hFraming).1 hField] at hIs
        cases hIs
      · rw [not_is_of_contains hDate hField] at hIs
        cases hIs
      · rw [not_is_of_contains hServer hField] at hIs
        cases hIs

/-- The four paths treat a block alike exactly when no field is nominated that
is not hop-by-hop by its name, unless framing keeps the block from interim
responses and handshakes, and no field that a rejection keeps is hop-by-hop or
nominated, unless the rejection exceeds its limits. -/
theorem treatedAlike_iff (headers : HeaderBlock) :
    TreatedAlike headers ↔
      (hasFraming headers = true ∨ hasStray headers = false) ∧
        (presentationFits headers = false ∨ presentsHopByHop headers = false) := by
  constructor
  · intro hAlike
    constructor
    · cases hFraming : hasFraming headers with
      | true => exact .inl rfl
      | false =>
          obtain ⟨hLength, hCoding⟩ := hasFraming_eq_false.mp hFraming
          refine .inr ((keepsEndToEnd_filter_iff headers).mp ?_)
          exact hAlike.interim _ (normalizeInterimHeaders_eq_ok.mpr ⟨hLength, hCoding, rfl⟩)
    · cases hFits : presentationFits headers with
      | false => exact .inl rfl
      | true =>
          have hKeeps := hAlike.rejection _ (presentedHeaders_eq_some.mpr ⟨hFits, rfl⟩)
          refine .inr ((presentsHopByHop_eq headers).trans ?_)
          refine List.any_eq_false.mpr fun field hField => ?_
          simp [hKeeps field hField]
  · rintro ⟨hStray, hPresents⟩
    have hNames : hasFraming headers = false →
        KeepsEndToEnd headers (headers.filter fun field => !isHopByHopHeader field.name.text) := by
      intro hFraming
      refine (keepsEndToEnd_filter_iff headers).mpr (hStray.resolve_left ?_)
      simp [hFraming]
    refine ⟨keepsEndToEnd_strip headers, ?_, ?_, ?_, ?_⟩
    · intro kept hKept
      obtain ⟨hLength, hCoding, rfl⟩ := normalizeInterimHeaders_eq_ok.mp hKept
      exact hNames (hasFraming_eq_false.mpr ⟨hLength, hCoding⟩)
    · intro kept hKept
      obtain ⟨rfl, hLength, hCoding⟩ := validateHandshakeHeaders_eq_ok hKept
      exact hNames (hasFraming_eq_false.mpr ⟨hLength, hCoding⟩)
    · intro kept hKept
      obtain ⟨hFits, rfl⟩ := presentedHeaders_eq_some.mp hKept
      have hClean := hPresents.resolve_left (by simp [hFits])
      rw [presentsHopByHop_eq] at hClean
      intro field hField
      simpa using List.any_eq_false.mp hClean field hField
    · intro hFraming hDate hServer hLimits
      have hFits := presentationFits_of_limits hLimits
      have hClean := hPresents.resolve_left (by simp [hFits])
      have hSame : (headers.filter fun field => !isHopByHopHeader field.name.text) =
          stripHopByHop headers := by
        rw [stripHopByHop_eq]
        refine List.filter_congr fun field hField => ?_
        cases hHop : isHopByHopHeader field.name.text with
        | true => simp [endToEnd, hHop]
        | false =>
            have hMem : field ∈ headers.filter fun field => !isHopByHopHeader field.name.text :=
              List.mem_filter.mpr ⟨hField, by simp [hHop]⟩
            exact (hNames hFraming field hMem).symm
      obtain ⟨hLength, hCoding⟩ := hasFraming_eq_false.mp hFraming
      refine ⟨?_, ?_, ?_⟩
      · rw [normalizeInterimHeaders_eq_ok.mpr ⟨hLength, hCoding, rfl⟩, hSame]
      · rw [validateHandshakeHeaders_of_limits hFraming hLimits, hSame]
      · rw [presentedHeaders_eq_some]
        exact ⟨hFits, (presentedFields_eq_strip hFraming hDate hServer hLimits.presented_count
          hClean).symm⟩

/-- The block of a service that names one of its fields in `Connection`. -/
theorem connection_isName : ("Connection" : Str) ≠ [] ∧ (utf8 "Connection").length ≤ 256 ∧
    isValidHeaderName "Connection" = true := by
  decide

theorem xHop_isName : ("X-Hop" : Str) ≠ [] ∧ (utf8 "X-Hop").length ≤ 256 ∧
    isValidHeaderName "X-Hop" = true := by
  decide

theorem te_isName : ("TE" : Str) ≠ [] ∧ (utf8 "TE").length ≤ 256 ∧
    isValidHeaderName "TE" = true := by
  decide

theorem one_isValue : (utf8 "1").all isValueByte = true := by decide

theorem one_trimmed : trimOws (utf8 "1") = utf8 "1" := by decide

theorem trailers_isValue : (utf8 "trailers").all isValueByte = true := by decide

theorem trailers_trimmed : trimOws (utf8 "trailers") = utf8 "trailers" := by decide

def nominatingHeaders : HeaderBlock :=
  [⟨⟨"Connection", connection_isName⟩, ⟨utf8 "X-Hop", by decide, by decide⟩⟩,
    ⟨⟨"X-Hop", xHop_isName⟩, ⟨utf8 "1", one_isValue, one_trimmed⟩⟩,
    ⟨⟨"TE", te_isName⟩, ⟨utf8 "trailers", trailers_isValue, trailers_trimmed⟩⟩,
    ⟨⟨"X-End", by decide⟩, ⟨utf8 "2", by decide, by decide⟩⟩]

/-- A final response keeps one field of the block. Interim responses and
handshakes keep the nominated field too, and a rejection also keeps `TE`. -/
theorem nominated_field_survives :
    ¬TreatedAlike nominatingHeaders ∧
      (stripHopByHop nominatingHeaders).map (·.name.text) = ["X-End".toList] ∧
      (normalizeInterimHeaders nominatingHeaders).toOption.map (·.map (·.name.text)) =
        some ["X-Hop".toList, "X-End".toList] ∧
      (validateHandshakeHeaders nominatingHeaders).toOption.map (·.map (·.name.text)) =
        some ["X-Hop".toList, "X-End".toList] ∧
      (presentedHeaders nominatingHeaders).map (·.map (·.name.text)) =
        some ["X-Hop".toList, "TE".toList, "X-End".toList] := by
  refine ⟨?_, by decide +kernel, by decide +kernel, by decide +kernel, by decide +kernel⟩
  intro hAlike
  have hStray : hasStray nominatingHeaders = true := by decide +kernel
  have hInterim := hAlike.interim _ (normalizeInterimHeaders_eq_ok.mpr
    ⟨by decide +kernel, by decide +kernel, rfl⟩)
  rw [keepsEndToEnd_filter_iff, hStray] at hInterim
  cases hInterim

end Eggserve.Server
