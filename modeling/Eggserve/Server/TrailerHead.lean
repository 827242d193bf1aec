import Eggserve.Primitives.TrailerDeclaration
import Eggserve.Server.ListFields
import Eggserve.Server.StreamAdapter

/-! Streams with trailers over HTTP/1: the `Trailer` field that the runtime writes into the head,
and the trailers that the adapter lets through behind the data. -/
namespace Eggserve.Server
open Rust Eggserve.Primitives

/-- What normalization sees of a stream. -/
def producerOf (stream : StreamParts) : ResponseStream where
  items := stream.items.filterMap fun poll =>
    match poll with
    | .chunk data => some (.ok data)
    | .error => some (.error [])
    | .pending | .panic => none
  knownLength := stream.knownLength

/-- A canonical response whose body is a stream. The flag is set by normalization alone, and
every access to the head clears it. -/
structure StreamingResponse where
  status : StatusCode
  headers : HeaderBlock
  stream : StreamParts
  normalized : Bool
  stripped : normalized = true → headers.contains "trailer" = false

namespace StreamingResponse

def canonical (response : StreamingResponse) : Response where
  status := response.status
  headers := response.headers
  body := some (.stream (producerOf response.stream))
  normalized := response.normalized

def hasResponseTrailers (response : StreamingResponse) : Bool := response.stream.trailers.isSome

/-- The producer of the trailers is dropped without a poll. -/
def stripResponseTrailers (response : StreamingResponse) : StreamingResponse where
  status := response.status
  headers := response.headers
  stream := { response.stream with trailers := none, trailerDeclaration := none }
  normalized := false
  stripped := nofun

end StreamingResponse

/-- What the HTTP/1 pipeline does with trailers before it converts a response, and whether it
asks for a `Trailer` field. -/
def h1TrailerPolicy (head : RequestHead) (isHead : Bool) (response : StreamingResponse) :
    StreamingResponse × Bool :=
  if response.hasResponseTrailers then
    if isHead || !response.status.permitsPayloadBody then (response.stripResponseTrailers, false)
    else if !h1TrailersAllowed head then (response.stripResponseTrailers, false)
    else if response.stream.trailerDeclaration.isNone then (response.stripResponseTrailers, false)
    else (response, true)
  else (response, false)

/-- The one field that announces the trailers. That it is valid is expected. -/
def synthesizeTrailer (declaration : TrailerDeclaration) (headers : HeaderBlock) :
    MayPanic HeaderBlock :=
  ((removeHeader (removeHeader headers "content-length") "trailer").pushStr "trailer"
    declaration.headerValue).toOption

inductive ConvertedStream where
  | service (status : StatusCode) (headers : HyperHeaders) (body : Option ResponseStreamAdapter)
  | runtime (response : HyperResponse)

/-- The stream of a normalized response, unless its body has been suppressed. -/
def streamLeft (response : StreamingResponse) (normalized : Response) : Option StreamParts :=
  match normalized.body with
  | some (.stream _) => some response.stream
  | _ => none

def synthesizeTrailerHead (synthesize : Bool) (stream : Option StreamParts)
    (headers : HeaderBlock) : MayPanic HeaderBlock :=
  if synthesize && stream.any (·.trailers.isSome) then
    match stream.bind (·.trailerDeclaration) with
    | some declaration => synthesizeTrailer declaration headers
    | none => some headers
  else some headers

def normalizeThenConvertWithH1TrailerHead (response : StreamingResponse)
    (isHead synthesize : Bool) (chunkSize : Nat) (policy : ErrorRepresentationPolicy) :
    MayPanic ConvertedStream :=
  match normalizeResponse response.canonical isHead with
  | .error _ => (internalErrorWithPolicy policy).map .runtime
  | .ok normalized => do
      let stream := streamLeft response normalized
      let headers ← synthesizeTrailerHead synthesize stream normalized.headers
      -- A stream is dropped under a status without payload.
      return .service normalized.status (hyperHeaders headers)
        (if normalized.status.permitsPayloadBody then
          stream.map (ResponseStreamAdapter.new · chunkSize)
        else none)

/-! What the adapter lets through. -/

/-- A value names a field as a member of a list. -/
def Names (value : List UInt8) (name : Str) : Prop :=
  ∃ text, fromUtf8 value = some text ∧
    ∃ member ∈ text.splitOn ',', eqIgnoreAsciiCase (trim member) name = true

/-- A poll keeps the declaration, and lets no field through that is not declared. -/
structure Declares (s : ResponseStreamAdapter) (result : Polled × ResponseStreamAdapter) :
    Prop where
  kept : result.2.trailerDeclaration = s.trailerDeclaration
  declared : ∀ block, result.1 = .trailers block → ∀ declaration,
    s.trailerDeclaration = some declaration →
      ∀ field ∈ block, declaration.contains field.name.text = true

namespace ResponseStreamAdapter

variable (s : ResponseStreamAdapter)

theorem declares_pollSplit (pending : List UInt8) : Declares s (s.pollSplit pending) := by
  unfold pollSplit
  dsimp only
  split <;> exact ⟨rfl, nofun⟩

theorem declares_pollChunk (data : List UInt8) (rest : List ProducerPoll) :
    Declares s (s.pollChunk data rest) := by
  unfold pollChunk
  dsimp only
  split <;> exact ⟨rfl, nofun⟩

theorem declares_pollTrailers : Declares s s.pollTrailers := by
  unfold pollTrailers
  split
  · exact ⟨rfl, nofun⟩
  · exact ⟨rfl, nofun⟩
  · exact ⟨rfl, nofun⟩
  · rename_i trailers _
    split
    · exact ⟨rfl, nofun⟩
    · rename_i hInside
      refine ⟨rfl, ?_⟩
      rintro block ⟨⟩ declaration hDeclaration field hField
      simp only [outsideDeclaration, hDeclaration, Option.any_some, List.any_eq_true,
        Bool.not_eq_true', not_exists, not_and, Bool.not_eq_false] at hInside
      exact hInside field hField
  · exact ⟨rfl, nofun⟩
  · exact ⟨rfl, nofun⟩

theorem declares_pollItems (items : List ProducerPoll) (emptyRuns : Nat) :
    Declares s (s.pollItems items emptyRuns) := by
  fun_induction pollItems s items emptyRuns with
  | case1 => exact ⟨rfl, nofun⟩
  | case2 =>
      have hTrailers := declares_pollTrailers { s with inner := none }
      exact ⟨hTrailers.kept, hTrailers.declared⟩
  | case3 => exact ⟨rfl, nofun⟩
  | case4 => exact ⟨rfl, nofun⟩
  | case5 rest emptyRuns hRuns ih => exact ih
  | case6 => exact declares_pollChunk s _ _
  | case7 => exact ⟨rfl, nofun⟩
  | case8 => exact ⟨rfl, nofun⟩

theorem declares_pollNext : Declares s s.pollNext := by
  unfold pollNext
  split
  · exact declares_pollSplit s _
  · split
    · exact ⟨rfl, nofun⟩
    · split
      · exact declares_pollItems s _ 0
      · exact declares_pollTrailers s

theorem trailerDeclaration_after (n : Nat) :
    (s.after n).trailerDeclaration = s.trailerDeclaration := by
  induction n with
  | zero => rfl
  | succ n ih => exact (declares_pollNext (s.after n)).kept.trans ih

/-- Over a run of polls, every trailer is declared. -/
theorem declared_of_mem_outputs {declaration : TrailerDeclaration}
    (hDeclaration : s.trailerDeclaration = some declaration) {n : Nat} {block : HeaderBlock}
    (h : .trailers block ∈ s.outputs n) :
    ∀ field ∈ block, declaration.contains field.name.text = true := by
  obtain ⟨m, -, hOutput⟩ := List.mem_map.mp h
  exact (declares_pollNext (s.after m)).declared block hOutput declaration
    ((trailerDeclaration_after s m).trans hDeclaration)

end ResponseStreamAdapter

/-! The `Trailer` field. -/

/-- Bytes that are a value, and begin and end with a token character. -/
structure TokenEnds (bytes : List UInt8) : Prop where
  nonempty : bytes ≠ []
  value : bytes.all isValueByte = true
  first : ∀ b ∈ bytes.head?, isTokenByte b = true
  last : ∀ b ∈ bytes.getLast?, isTokenByte b = true

theorem isValueByte_of_token {b : UInt8} (h : isTokenByte b = true) : isValueByte b = true := by
  have hAll : ∀ n < 128, isTokenByte (UInt8.ofNat n) = true →
      isValueByte (UInt8.ofNat n) = true := by decide
  have hValue := hAll b.toNat (toNat_lt_of_isTokenByte h)
  rw [UInt8.ofNat_toNat] at hValue
  exact hValue h

theorem tokenEnds_name (name : HeaderName) : TokenEnds (utf8 name.text) := by
  obtain ⟨hText, -, hValid⟩ := name.valid
  have hToken := List.all_eq_true.mp hValid
  refine ⟨fun hNil => ?_, ?_, fun b hb => ?_, fun b hb => ?_⟩
  · exact hText (utf8_injective (hNil.trans utf8_nil.symm))
  · exact List.all_eq_true.mpr fun b hb => isValueByte_of_token (hToken b hb)
  · exact hToken b (List.mem_of_mem_head? hb)
  · exact hToken b (List.mem_of_mem_getLast? hb)

theorem TokenEnds.join {left right : List UInt8} (hLeft : TokenEnds left)
    (hRight : TokenEnds right) : TokenEnds (left ++ utf8 (", " : Str) ++ right) := by
  have hSeparator : (utf8 (", " : Str)).all isValueByte = true := by decide
  refine ⟨?_, ?_, ?_, ?_⟩
  · exact List.append_ne_nil_of_right_ne_nil _ hRight.nonempty
  · rw [List.all_append, List.all_append, hLeft.value, hSeparator, hRight.value]
    rfl
  · obtain ⟨b, rest, rfl⟩ := List.exists_cons_of_ne_nil hLeft.nonempty
    exact hLeft.first
  · rw [List.getLast?_append_of_ne_nil _ hRight.nonempty]
    exact hRight.last

theorem tokenEnds_headerValue (declaration : TrailerDeclaration) :
    TokenEnds (utf8 declaration.headerValue) := by
  have hNonempty := declaration.nonempty
  rw [TrailerDeclaration.headerValue]
  generalize declaration.names = names at hNonempty
  induction names with
  | nil => exact absurd rfl hNonempty
  | cons name names ih =>
      cases names with
      | nil =>
          rw [List.map_singleton, List.intercalate_singleton]
          exact tokenEnds_name name
      | cons other names =>
          rw [List.map_cons, List.map_cons, List.intercalate_cons_cons, utf8_append, utf8_append]
          exact (tokenEnds_name name).join (ih (List.cons_ne_nil _ _))

theorem TokenEnds.trimOws_eq {bytes : List UInt8} (h : TokenEnds bytes) :
    trimOws bytes = bytes := by
  obtain ⟨hNonempty, -, hFirst, hLast⟩ := h
  have hFront : bytes.dropWhile isOwsByte = bytes := by
    cases bytes with
    | nil => rfl
    | cons b rest => exact List.dropWhile_cons_of_neg (by simp [not_isOwsByte_of_token (hFirst b rfl)])
  rw [trimOws, hFront, List.rdropWhile_eq_self_iff]
  intro _
  rw [not_isOwsByte_of_token (hLast _ (List.getLast?_eq_getLast_of_ne_nil hNonempty))]
  exact Bool.false_ne_true

def trailerName : HeaderName := ⟨"trailer", by decide, by decide, by decide⟩

/-- The field is always valid. -/
theorem synthesizeTrailer_eq (declaration : TrailerDeclaration) (headers : HeaderBlock) :
    ∃ value : HeaderValue, value.bytes = utf8 declaration.headerValue ∧
      synthesizeTrailer declaration headers =
        some (removeHeader (removeHeader headers "content-length") "trailer" ++
          [⟨trailerName, value⟩]) := by
  have hEnds := tokenEnds_headerValue declaration
  refine ⟨⟨utf8 declaration.headerValue, hEnds.value, hEnds.trimOws_eq⟩, rfl, ?_⟩
  have hName : HeaderName.new "trailer" = .ok trailerName := trailerName.new_text
  have hValue : HeaderValue.new declaration.headerValue =
      .ok ⟨utf8 declaration.headerValue, hEnds.value, hEnds.trimOws_eq⟩ := by
    rw [HeaderValue.new, HeaderValue.fromBytes, dif_pos hEnds.value]
    congr 1
    exact HeaderValue.ext hEnds.trimOws_eq
  rw [synthesizeTrailer, HeaderBlock.pushStr, hName, hValue]
  rfl

theorem names_headerValue {declaration : TrailerDeclaration} {name : Str}
    (h : declaration.contains name = true) : Names (utf8 declaration.headerValue) name := by
  obtain ⟨declared, hDeclared, hSame⟩ := List.any_eq_true.mp h
  have hMember : declared.text ∈ (declaration.headerValue.splitOn ',').map trim := by
    rw [TrailerDeclaration.splitOn_headerValue]
    exact List.mem_map_of_mem hDeclared
  obtain ⟨member, hPiece, hText⟩ := List.mem_map.mp hMember
  refine ⟨declaration.headerValue, fromUtf8_utf8 _, member, hPiece, ?_⟩
  rwa [hText]

/-! The head and the body together. -/

/-- What a head with this `Trailer` value promises of the body behind it. -/
structure Announces (headers : HyperHeaders) (body : Option ResponseStreamAdapter)
    (value : List UInt8) : Prop where
  single : headers.getAll "trailer" = [value]
  noLength : headers.getAll "content-length" = []
  named : ∀ adapter ∈ body, ∀ n block, .trailers block ∈ adapter.outputs n →
    ∀ field ∈ block, Names value field.name.text

theorem not_trailer_of_normalized {response : StreamingResponse} {isHead : Bool}
    {normalized : Response} (h : normalizeResponse response.canonical isHead = .ok normalized) :
    ∀ field ∈ normalized.headers, field.name.is "trailer" = false := by
  unfold normalizeResponse at h
  split_ifs at h with hFlag
  · obtain rfl := Except.ok.inj h
    have hStripped := response.stripped hFlag
    rw [HeaderBlock.contains, List.any_eq_false] at hStripped
    exact fun field hField => Bool.eq_false_iff.mpr (hStripped field hField)
  · obtain ⟨headers, hHeaders, hResult⟩ := bind_eq_ok.mp h
    obtain rfl := Except.ok.inj hResult
    obtain ⟨emitted, rfl, -⟩ := normalizeMetadata_eq_ok hHeaders
    intro field hField
    have hHop : isHopByHopHeader field.name.text = false := by
      rcases mem_kept_append hField with hKept | ⟨length, rfl⟩
      · exact (mem_kept hKept).1
      · exact contentLengthField_not_hop_by_hop length
    simpa [HeaderName.is] using List.any_eq_false.mp hHop "trailer" (by decide)

/-- Where the field is not asked for, the head stays as it is. -/
theorem synthesizeTrailerHead_cases {synthesize : Bool} {stream : Option StreamParts}
    {headers result : HeaderBlock}
    (h : synthesizeTrailerHead synthesize stream headers = some result) :
    result = headers ∨ ∃ declaration, stream.bind (·.trailerDeclaration) = some declaration ∧
      synthesizeTrailer declaration headers = some result := by
  unfold synthesizeTrailerHead at h
  split_ifs at h
  · split at h
    · rename_i declaration hDeclaration
      exact Or.inr ⟨declaration, hDeclaration, h⟩
    · exact Or.inl (Option.some.inj h).symm
  · exact Or.inl (Option.some.inj h).symm

theorem getAll_synthesizeTrailer {declaration : TrailerDeclaration} {headers result : HeaderBlock}
    (h : synthesizeTrailer declaration headers = some result) :
    (hyperHeaders result).getAll "trailer" = [utf8 declaration.headerValue] ∧
      (hyperHeaders result).getAll "content-length" = [] := by
  obtain ⟨value, hBytes, hPush⟩ := synthesizeTrailer_eq declaration headers
  obtain rfl := Option.some.inj (h.symm.trans hPush)
  constructor
  · have hRemoved : (hyperHeaders (removeHeader (removeHeader headers "content-length")
        "trailer")).getAll "trailer" = [] :=
      HyperHeaders.getAll_hyperHeaders_eq_nil fun field hField => by
        simpa using (List.mem_filter.mp hField).2
    have hAdded : (hyperHeaders [⟨trailerName, value⟩]).getAll "trailer" = [value.bytes] := rfl
    rw [hyperHeaders, List.map_append, HyperHeaders.getAll_append, ← hyperHeaders, hRemoved,
      ← hyperHeaders, hAdded, hBytes, List.nil_append]
  · refine HyperHeaders.getAll_hyperHeaders_eq_nil fun field hField => ?_
    rcases List.mem_append.mp hField with hKept | hAdded
    · simpa using (List.mem_filter.mp (List.mem_filter.mp hKept).1).2
    · rw [List.mem_singleton.mp hAdded]
      exact (by decide : trailerName.is "content-length" = false)

theorem announces_of_convert {response : StreamingResponse} {isHead synthesize : Bool}
    {chunkSize : Nat} {policy : ErrorRepresentationPolicy} {status : StatusCode}
    {headers : HyperHeaders} {body : Option ResponseStreamAdapter}
    (h : normalizeThenConvertWithH1TrailerHead response isHead synthesize chunkSize policy =
      some (.service status headers body)) {value : List UInt8}
    (hValue : value ∈ headers.getAll "trailer") : Announces headers body value := by
  unfold normalizeThenConvertWithH1TrailerHead at h
  split at h
  · obtain ⟨failure, -, hFailure⟩ := Option.map_eq_some_iff.mp h
    cases hFailure
  · rename_i normalized hNormalized
    have hAbsent := HyperHeaders.getAll_hyperHeaders_eq_nil (not_trailer_of_normalized hNormalized)
    obtain ⟨block, hBlock, hResult⟩ := Option.bind_eq_some_iff.mp h
    obtain ⟨-, rfl, rfl⟩ := ConvertedStream.service.inj (Option.some.inj hResult)
    rcases synthesizeTrailerHead_cases hBlock with rfl | ⟨declaration, hLeft, hSynthesized⟩
    · rw [hAbsent] at hValue
      cases hValue
    · obtain ⟨hTrailer, hLength⟩ := getAll_synthesizeTrailer hSynthesized
      rw [hTrailer, List.mem_singleton] at hValue
      subst hValue
      refine ⟨hTrailer, hLength, fun adapter hAdapter n block hOutput field hField => ?_⟩
      obtain ⟨parts, hParts, hDeclaration⟩ := Option.bind_eq_some_iff.mp hLeft
      split_ifs at hAdapter
      · rw [hParts] at hAdapter
        obtain rfl := Option.some.inj hAdapter
        exact names_headerValue
          (ResponseStreamAdapter.declared_of_mem_outputs _ hDeclaration hOutput field hField)
      · cases hAdapter

/-- The pipeline asks for the field only where the stream stays the body. -/
theorem h1TrailerPolicy_asks {head : RequestHead} {isHead : Bool} {response : StreamingResponse}
    (h : (h1TrailerPolicy head isHead response).2 = true) :
    (h1TrailerPolicy head isHead response).1 = response ∧ isHead = false ∧
      response.status.permitsPayloadBody = true ∧ response.stream.trailers.isSome = true ∧
        ∃ declaration, response.stream.trailerDeclaration = some declaration := by
  unfold h1TrailerPolicy at h ⊢
  split_ifs at h ⊢ with hTrailers hForbidden hAllowed hNone
  rw [Bool.or_eq_true, not_or, Bool.not_eq_true, Bool.not_eq_true', Bool.not_eq_false] at hForbidden
  rw [Option.isNone_iff_eq_none] at hNone
  exact ⟨rfl, hForbidden.1, hForbidden.2, hTrailers, Option.ne_none_iff_exists'.mp hNone⟩

theorem normalizeResponse_stream {response : StreamingResponse}
    (hPayload : response.status.permitsPayloadBody = true) :
    ∃ headers, normalizeResponse response.canonical false =
      .ok { response.canonical with headers, normalized := true } := by
  unfold normalizeResponse
  by_cases hFlag : response.canonical.normalized = true
  · rw [if_pos hFlag]
    exact ⟨response.headers, congrArg Except.ok (by rw [← hFlag]; rfl)⟩
  · have hAccepted : FramingAccepted response.status response.headers
        (framingLength response.status false response.canonical.body) := by
      constructor
      · intro hStatus
        rw [hStatus] at hPayload
        exact absurd hPayload (by decide)
      · intro hStatus
        rw [hStatus] at hPayload
        exact absurd hPayload (by decide)
    have hBody : suppressBody response.status false response.canonical.body =
        response.canonical.body := by
      rw [suppressBody, hPayload]
      rfl
    obtain ⟨headers, hHeaders⟩ : ∃ headers, normalizeMetadata response.status response.headers
        (framingLength response.status false response.canonical.body) = .ok headers :=
      ⟨_, normalizeMetadata_eq_ok_iff.mpr ⟨hAccepted, rfl⟩⟩
    refine ⟨headers, (if_neg hFlag).trans (bind_eq_ok.mpr ⟨headers, hHeaders, ?_⟩)⟩
    exact congrArg (fun body => Except.ok (Response.mk response.status headers body true)) hBody

/-- Where the pipeline asks for the field, the head gets it, with the stream behind it. -/
theorem convert_of_policy {head : RequestHead} {isHead : Bool} {response : StreamingResponse}
    (h : (h1TrailerPolicy head isHead response).2 = true) (chunkSize : Nat)
    (policy : ErrorRepresentationPolicy) :
    ∃ declaration headers, response.stream.trailerDeclaration = some declaration ∧
      normalizeThenConvertWithH1TrailerHead (h1TrailerPolicy head isHead response).1 isHead true
          chunkSize policy =
        some (.service response.status headers
          (some (ResponseStreamAdapter.new response.stream chunkSize))) ∧
        headers.getAll "trailer" = [utf8 declaration.headerValue] := by
  obtain ⟨hSame, rfl, hPayload, hTrailers, declaration, hDeclaration⟩ := h1TrailerPolicy_asks h
  obtain ⟨block, hNormalized⟩ := normalizeResponse_stream hPayload
  obtain ⟨value, -, hSynthesized⟩ := synthesizeTrailer_eq declaration block
  refine ⟨declaration, _, hDeclaration, ?_, (getAll_synthesizeTrailer hSynthesized).1⟩
  have hLeft : streamLeft response { response.canonical with headers := block, normalized := true } =
      some response.stream := rfl
  have hStatus : response.canonical.status = response.status := rfl
  have hHead : synthesizeTrailerHead true (some response.stream) block =
      synthesizeTrailer declaration block := by
    rw [synthesizeTrailerHead, Bool.true_and, Option.any_some, if_pos hTrailers, Option.bind_some,
      hDeclaration]
  rw [hSame, normalizeThenConvertWithH1TrailerHead, hNormalized]
  dsimp only
  rw [hLeft, hHead, hSynthesized, hStatus, if_pos hPayload]
  rfl

/-- A declaration is read back from its text and is within its bounds, the first spelling of each
name stays, and over HTTP/1 the `Trailer` field bounds the trailers behind the data. -/
theorem trailer_declarations_bound_what_is_sent :
    (∀ declaration, TrailerDeclaration.Built declaration →
      TrailerDeclaration.parseHeaderValue declaration.headerValue = .ok declaration ∧
        TrailerDeclaration.Bounded declaration) ∧
    (∀ names declaration, TrailerDeclaration.fromNames names = .ok declaration →
      declaration.names.map (·.text) = (names.map trim).eraseDupsBy eqIgnoreAsciiCase) ∧
    (∀ response isHead synthesize chunkSize policy status headers body,
      normalizeThenConvertWithH1TrailerHead response isHead synthesize chunkSize policy =
        some (.service status headers body) →
      ∀ value ∈ headers.getAll "trailer", Announces headers body value) ∧
    (∀ head isHead response chunkSize policy, (h1TrailerPolicy head isHead response).2 = true →
      ∃ declaration headers, response.stream.trailerDeclaration = some declaration ∧
        normalizeThenConvertWithH1TrailerHead (h1TrailerPolicy head isHead response).1 isHead true
            chunkSize policy =
          some (.service response.status headers
            (some (ResponseStreamAdapter.new response.stream chunkSize))) ∧
          headers.getAll "trailer" = [utf8 declaration.headerValue]) :=
  ⟨fun _ hBuilt => ⟨hBuilt.bounded.parse_headerValue, hBuilt.bounded⟩,
    fun _ _ hNames => TrailerDeclaration.names_of_fromNames hNames,
    fun _ _ _ _ _ _ _ _ hConverted _ hValue => announces_of_convert hConverted hValue,
    fun _ _ _ chunkSize policy hAsks => convert_of_policy hAsks chunkSize policy⟩

def etagDeclaration : TrailerDeclaration where
  names := [⟨"ETag", by decide, by decide, by decide⟩]
  nonempty := List.cons_ne_nil _ _
  allowed := by decide

theorem trailer_declarations_bound_what_is_sent_etag :
    TrailerDeclaration.fromNames ["ETag", " etag"] = .ok etagDeclaration ∧
      TrailerDeclaration.parseHeaderValue etagDeclaration.headerValue = .ok etagDeclaration ∧
        (["ETag", " etag"].map trim).eraseDupsBy eqIgnoreAsciiCase = [("ETag" : Str)] := by
  have hNames : TrailerDeclaration.fromNames ["ETag", " etag"] = .ok etagDeclaration := by
    decide +kernel
  obtain ⟨hBuilt, hFirst, -⟩ := trailer_declarations_bound_what_is_sent
  exact ⟨hNames, (hBuilt _ (.fromNames _ hNames)).1, (hFirst _ _ hNames).symm⟩

end Eggserve.Server
