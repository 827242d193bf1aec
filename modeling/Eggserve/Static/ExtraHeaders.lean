import Eggserve.Static.PlanResponse

/-! The operator's headers on the responses of the static service. Files and
listings take them into their plan, errors take them one by one, and redirects
do not take them. -/
namespace Eggserve.Static
open Rust Posix Eggserve.Primitives Eggserve.Server

/-- A configured header that can be sent and is neither framing nor for one hop. -/
structure ValidExtra (header : ResponseHeader) : Prop where
  parses : ∃ field, Parses header field
  end_to_end : isHopByHopHeader header.name = false
  not_length : eqIgnoreAsciiCase header.name "content-length" = false

theorem length_valuesOf {fields : List ResponseHeader} (hValid : ∀ header ∈ fields,
    ValidExtra header) (name : Str) :
    (valuesOf fields name).length =
      (fields.filter fun header => eqIgnoreAsciiCase header.name name).length := by
  have hSome : ∀ header ∈ fields.filter fun header => eqIgnoreAsciiCase header.name name,
      ((HeaderValue.new header.value).toOption).isSome := by
    intro header hHeader
    obtain ⟨field, hField⟩ := (hValid header (List.mem_filter.mp hHeader).1).parses
    rw [hField.value]
    rfl
  exact List.filterMap_length_eq_length.mpr hSome

theorem valuesOf_ne_nil {fields : List ResponseHeader}
    (hValid : ∀ header ∈ fields, ValidExtra header) {header : ResponseHeader}
    (hHeader : header ∈ fields) : valuesOf fields header.name ≠ [] := by
  intro hNil
  have hLength := length_valuesOf hValid header.name
  rw [hNil, List.length_nil, eq_comm, List.length_eq_zero_iff, List.filter_eq_nil_iff] at hLength
  exact hLength header hHeader (eqIgnoreAsciiCase_refl header.name)

theorem valuesOf_length {fields : List ResponseHeader}
    (hValid : ∀ header ∈ fields, ValidExtra header) : valuesOf fields "content-length" = [] := by
  rw [valuesOf, List.filter_eq_nil_iff.mpr]
  · rfl
  · intro header hHeader
    rw [(hValid header hHeader).not_length]
    exact Bool.false_ne_true

namespace StaticService

variable {ν : Type} (dates : HttpDate) (service : StaticService ν)

/-- The service without configured headers, which shows what a response sets
itself. -/
def bare : StaticService ν := { service with extraResponseHeaders := [] }

/-- Every response has, for each configured name that it does not set itself,
all the configured values in their order. -/
def ExtrasReach (request : RequestHead) : Prop :=
  ∀ response, service.respond dates request = some (.ok response) →
    ∃ own, service.bare.respond dates request = some (.ok own) ∧
      ∀ header ∈ service.extraHeaders, own.headers.contains header.name = false →
        response.headers.getAll header.name = valuesOf service.extraHeaders header.name

/-- The headers that an error sets itself. -/
def errorHeaders (methodNotAllowed : Bool) : List ResponseHeader :=
  (if decide (service.errorPolicy = .minimal) then
    [⟨"content-type", "text/plain; charset=utf-8"⟩] else []) ++
    if methodNotAllowed then [⟨"allow", "GET, HEAD"⟩] else []

/-- A redirect takes no configured header, and an error takes one value of each
name that it does not set itself. -/
def TakesAllOn : Route ν → Prop
  | .file _ | .listing _ | .failure => True
  | .redirect => ∀ header ∈ service.extraHeaders,
      eqIgnoreAsciiCase header.name "location" = true
  | .error _ _ methodNotAllowed => ∀ header ∈ service.extraHeaders,
      ((service.errorHeaders methodNotAllowed).any fun own =>
        eqIgnoreAsciiCase own.name header.name) = true ∨
      (service.extraHeaders.filter fun other =>
        eqIgnoreAsciiCase other.name header.name).length ≤ 1

instance : DecidablePred service.TakesAllOn
  | .file _ | .listing _ | .failure => inferInstanceAs (Decidable True)
  | .redirect => inferInstanceAs (Decidable (∀ header ∈ service.extraHeaders, _))
  | .error _ _ _ => inferInstanceAs (Decidable (∀ header ∈ service.extraHeaders, _))

/-- The route of the request takes all configured headers. -/
def TakesAll (request : RequestHead) : Prop :=
  service.TakesAllOn (route service.root request)

instance (request : RequestHead) : Decidable (service.TakesAll request) :=
  inferInstanceAs (Decidable (service.TakesAllOn _))

/-! Files and listings. -/

theorem bare_appendExtraHeaders (headers : HeaderMapPlan) :
    service.bare.appendExtraHeaders headers = headers := by
  rw [appendExtraHeaders_eq]
  change HeaderMapPlan.mk (headers.headers ++ []) = headers
  rw [List.append_nil]

variable {service}

/-- What a plan's headers leave of the configured ones has all values of a name
that they do not set. -/
theorem valuesOf_filter {fields extras : List ResponseHeader} {name : Str}
    (hName : (fields.any fun header => eqIgnoreAsciiCase header.name name) = false) :
    valuesOf (extras.filter fun extra =>
      !fields.any fun header => eqIgnoreAsciiCase header.name extra.name) name =
      valuesOf extras name := by
  rw [valuesOf, valuesOf, List.filter_filter]
  congr 1
  refine List.filter_congr fun extra _ => ?_
  cases hIs : eqIgnoreAsciiCase extra.name name with
  | false => rfl
  | true =>
      simp only [eqIgnoreAsciiCase_congr_right hIs, hName]
      rfl

/-- Blocks with the same lengths are framed alike. -/
theorem framingAccepted_of_getAll {status : StatusCode} {headers others : HeaderBlock}
    {bodyLength : BodyLength} (hHeaders : EndToEnd headers) (hOthers : EndToEnd others)
    (hLength : headers.getAll "content-length" = others.getAll "content-length")
    (h : FramingAccepted status headers bodyLength) : FramingAccepted status others bodyLength := by
  unfold FramingAccepted at h ⊢
  rw [stripHopByHop_of_endToEnd hHeaders, contains_eq_not_isEmpty_getAll, hLength] at h
  rw [stripHopByHop_of_endToEnd hOthers, contains_eq_not_isEmpty_getAll]
  exact h

/-- Appended headers without a length do not change the body of a plan. -/
theorem planBody_append {plan : StaticResponsePlan} {extras : List ResponseHeader}
    (hExtras : ∀ header ∈ extras, eqIgnoreAsciiCase header.name "content-length" = false)
    (source : BodySource) (status : StatusCode) (isHead : Bool) :
    planBody { plan with headers := ⟨plan.headers.headers ++ extras⟩ } source status isHead =
      planBody plan source status isHead := by
  have hNone : extras.find? (fun header => eqIgnoreAsciiCase header.name "content-length") =
      none := by
    refine List.find?_eq_none.mpr fun header hHeader => ?_
    rw [hExtras header hHeader]
    exact Bool.false_ne_true
  simp only [planBody, HeaderMapPlan.get, List.find?_append, hNone, Option.or_none]

section

variable (hValid : ∀ header ∈ service.extraHeaders, ValidExtra header)
include hValid

/-- A plan with the configured headers reaches the response with all of them. -/
theorem extras_of_plan {plan : StaticResponsePlan} {source : BodySource} {isHead : Bool}
    {response : Response} (hPlan : EndToEndNames plan.headers.headers)
    (hResponse : responseFromPlan
      { plan with headers := service.appendExtraHeaders plan.headers } source isHead =
        .ok response) :
    ∃ own, responseFromPlan plan source isHead = .ok own ∧
      ∀ header ∈ service.extraHeaders, own.headers.contains header.name = false →
        response.headers.getAll header.name = valuesOf service.extraHeaders header.name := by
  rw [appendExtraHeaders_eq] at hResponse
  generalize hKept : (service.extraHeaders.filter fun extra =>
    !plan.headers.headers.any fun header => eqIgnoreAsciiCase header.name extra.name) = extras
    at hResponse
  have hExtras : ∀ header ∈ extras, ValidExtra header := by
    intro header hHeader
    rw [← hKept] at hHeader
    exact hValid header (List.mem_filter.mp hHeader).1
  have hExtraNames : EndToEndNames extras := fun header hHeader =>
    (hExtras header hHeader).end_to_end
  obtain ⟨status, headers, hStatus, hParses, hNormalize⟩ := responseFromPlan_eq_ok.mp hResponse
  rw [planBody_append fun header hHeader => (hExtras header hHeader).not_length] at hNormalize
  obtain ⟨ownHeaders, extraFields, hOwn, hAdded, rfl⟩ := parses_append hParses
  have hOwnHops := endToEnd_of_parses hOwn hPlan
  have hAllHops := endToEnd_of_parses hParses (hPlan.append hExtraNames)
  have hLengths : HeaderBlock.getAll (ownHeaders ++ extraFields) "content-length" =
      HeaderBlock.getAll ownHeaders "content-length" := by
    rw [getAll_of_parses hParses, getAll_of_parses hOwn, valuesOf_append,
      valuesOf_length hExtras, List.append_nil]
  obtain ⟨hAccepted, -⟩ := normalize_builderBody.mp hNormalize
  have hOwnNormalize := normalize_builderBody.mpr
    ⟨framingAccepted_of_getAll hAllHops hOwnHops hLengths hAccepted, rfl⟩
  refine ⟨_, responseFromPlan_eq_ok.mpr ⟨status, ownHeaders, hStatus, hOwn, hOwnNormalize⟩, ?_⟩
  intro header hHeader hAbsent
  have hName := (hValid header hHeader).not_length
  rw [contains_eq_not_isEmpty_getAll, getAll_normalized hOwnNormalize hOwnHops hName,
    ← contains_eq_not_isEmpty_getAll, contains_of_parses hOwn] at hAbsent
  have hNone : valuesOf plan.headers.headers header.name = [] := by
    rw [valuesOf, List.filter_eq_nil_iff.mpr (List.any_eq_false.mp hAbsent)]
    rfl
  rw [getAll_normalized hNormalize hAllHops hName, getAll_of_parses hParses, valuesOf_append,
    hNone, ← hKept, valuesOf_filter hAbsent, List.nil_append]

theorem extras_of_file {file : OpenedFile ν} {method : ReadOnlyMethod} {request : RequestHead}
    {response : Response}
    (hResponse : service.fileResponse dates file method request = some (.ok response)) :
    ∃ own, service.bare.fileResponse dates file method request = some (.ok own) ∧
      ∀ header ∈ service.extraHeaders, own.headers.contains header.name = false →
        response.headers.getAll header.name = valuesOf service.extraHeaders header.name := by
  unfold fileResponse at hResponse ⊢
  simp only [Option.bind_eq_bind, Option.bind_eq_some_iff, bare_appendExtraHeaders] at hResponse ⊢
  obtain ⟨plan, hPlan, hResponse⟩ := hResponse
  obtain ⟨source, hSource, hBuilt⟩ := bind_eq_ok.mp (Option.some.inj hResponse)
  obtain ⟨own, hOwn, hAll⟩ := extras_of_plan hValid (endToEndNames_plan hPlan) hBuilt
  exact ⟨own, ⟨plan, hPlan, congrArg some (bind_eq_ok.mpr ⟨source, hSource, hOwn⟩)⟩, hAll⟩

theorem extras_of_listing {directory : ResolvedDirectory ν} {isHead : Bool} {response : Response}
    (hEnabled : service.root.policy.directoryListing = .enabled)
    (hResponse : service.directoryResponse directory (readOnlyMethod isHead) = .ok response) :
    ∃ own, service.bare.directoryResponse directory (readOnlyMethod isHead) = .ok own ∧
      ∀ header ∈ service.extraHeaders, own.headers.contains header.name = false →
        response.headers.getAll header.name = valuesOf service.extraHeaders header.name := by
  rw [directoryResponse_of_enabled service hEnabled] at hResponse
  rw [directoryResponse_of_enabled service.bare hEnabled]
  obtain ⟨body, hBody, hBuilt⟩ := bind_eq_ok.mp hResponse
  have hNames : EndToEndNames (listingPlan body isHead).headers.headers := by
    unfold listingPlan
    exact endToEndNames_planDirectoryListing body.length isHead
  obtain ⟨own, hOwn, hAll⟩ := extras_of_plan hValid hNames hBuilt
  refine ⟨own, bind_eq_ok.mpr ⟨body, hBody, ?_⟩, hAll⟩
  rw [bare_appendExtraHeaders]
  exact hOwn

end

/-! Errors. -/

section

variable {headers : HeaderBlock}

theorem pushExtraHeader_of_valid {extra : Str × Str} {field : HeaderField}
    (hField : Parses ⟨extra.1, extra.2⟩ field) :
    pushExtraHeader headers extra =
      if headers.contains extra.1 then headers else headers ++ [field] := by
  rw [pushExtraHeader, pushStr_eq_ok.mpr ⟨field, hField, rfl⟩]
  rfl

theorem getAll_append_field (headers : HeaderBlock) (field : HeaderField) (name : Str) :
    HeaderBlock.getAll (headers ++ [field]) name =
      headers.getAll name ++ if field.name.is name then [field.value] else [] := by
  rw [HeaderBlock.getAll, List.filter_append, List.map_append, List.filter_singleton]
  cases field.name.is name <;> rfl

/-- The loop adds the first value of each name that is not there. -/
theorem getAll_foldl_pushExtraHeader {extras : List (Str × Str)}
    (hValid : ∀ extra ∈ extras, ValidExtra ⟨extra.1, extra.2⟩) (name : Str) :
    (extras.foldl pushExtraHeader headers).getAll name =
      if headers.contains name then headers.getAll name
      else (valuesOf (extras.map fun extra => ⟨extra.1, extra.2⟩) name).take 1 := by
  induction extras generalizing headers with
  | nil =>
      rw [List.foldl_nil, contains_eq_not_isEmpty_getAll]
      cases headers.getAll name <;> rfl
  | cons extra extras ih =>
      obtain ⟨hExtra, hRest⟩ := List.forall_mem_cons.mp hValid
      obtain ⟨field, hField⟩ := hExtra.parses
      rw [List.foldl_cons, pushExtraHeader_of_valid hField, ih hRest, List.map_cons,
        valuesOf_cons hField]
      cases hIs : field.name.is name with
      | false =>
          have hSame : HeaderBlock.getAll
              (if headers.contains extra.1 then headers else headers ++ [field]) name =
              headers.getAll name := by
            split_ifs
            · rfl
            · rw [getAll_append_field, hIs]
              exact List.append_nil _
          rw [contains_eq_not_isEmpty_getAll, hSame, ← contains_eq_not_isEmpty_getAll]
          rfl
      | true =>
          have hContains : headers.contains extra.1 = headers.contains name := by
            rw [hField.name_is name] at hIs
            simp only [HeaderBlock.contains, HeaderName.is, eqIgnoreAsciiCase_congr_right hIs]
          rw [hContains]
          by_cases hThere : headers.contains name = true
          · rw [if_pos hThere, if_pos hThere, if_pos hThere]
          · have hNone : headers.getAll name = [] := by
              rw [contains_eq_not_isEmpty_getAll, Bool.not_eq_true, Bool.not_eq_false',
                List.isEmpty_iff] at hThere
              exact hThere
            have hAdded : HeaderBlock.getAll (headers ++ [field]) name = [field.value] := by
              rw [getAll_append_field, hNone, hIs]
              rfl
            rw [if_neg hThere, if_neg hThere, contains_eq_not_isEmpty_getAll, hAdded]
            rfl

theorem endToEnd_foldl_pushExtraHeader {extras : List (Str × Str)}
    (hValid : ∀ extra ∈ extras, ValidExtra ⟨extra.1, extra.2⟩) (hHeaders : EndToEnd headers) :
    EndToEnd (extras.foldl pushExtraHeader headers) := by
  induction extras generalizing headers with
  | nil => exact hHeaders
  | cons extra extras ih =>
      obtain ⟨hExtra, hRest⟩ := List.forall_mem_cons.mp hValid
      obtain ⟨field, hField⟩ := hExtra.parses
      refine ih hRest ?_
      rw [pushExtraHeader_of_valid hField]
      split_ifs
      · exact hHeaders
      · intro other hOther
        rcases List.mem_append.mp hOther with hMem | hMem
        · exact hHeaders other hMem
        · rw [List.mem_singleton.mp hMem, hField.text_eq]
          exact hExtra.end_to_end

theorem headerIf_eq_ok {condition : Bool} {result : HeaderBlock} {name value : Str} :
    headerIf condition headers name value = .ok result ↔
      ∃ added, List.Forall₂ Parses (if condition then [⟨name, value⟩] else []) added ∧
        headers ++ added = result := by
  unfold headerIf
  cases condition with
  | false =>
      simp only [Bool.false_eq_true, ↓reduceIte, List.forall₂_nil_left_iff, exists_eq_left,
        List.append_nil, Except.ok.injEq]
  | true =>
      rw [if_pos rfl, if_pos rfl, constructed_eq_ok, builderHeader_eq_ok]
      constructor
      · rintro ⟨field, hField, rfl⟩
        exact ⟨[field], .cons hField .nil, rfl⟩
      · rintro ⟨added, hAdded, rfl⟩
        cases hAdded with
        | cons hField hNil =>
            cases hNil
            exact ⟨_, hField, rfl⟩

end

theorem errorResponse_eq_ok {status : StatusCode} {text : String}
    {isHead methodNotAllowed : Bool} {response : Response} :
    service.errorResponse status text isHead methodNotAllowed = .ok response ↔
      ∃ base, List.Forall₂ Parses (service.errorHeaders methodNotAllowed) base ∧
        normalizeResponse (builderBody status
          (service.extraResponseHeaders.foldl pushExtraHeader base)
          (service.errorBody text isHead)) isHead = .ok response := by
  rw [errorResponse, bind_eq_ok]
  constructor
  · rintro ⟨first, hFirst, h⟩
    obtain ⟨second, hSecond, hResponse⟩ := bind_eq_ok.mp h
    obtain ⟨types, hTypes, rfl⟩ := headerIf_eq_ok.mp hFirst
    obtain ⟨allows, hAllows, rfl⟩ := headerIf_eq_ok.mp hSecond
    exact ⟨_, List.rel_append hTypes hAllows, constructed_eq_ok.mp hResponse⟩
  · rintro ⟨base, hBase, hResponse⟩
    obtain ⟨types, allows, hTypes, hAllows, rfl⟩ := parses_append hBase
    exact ⟨_, headerIf_eq_ok.mpr ⟨types, hTypes, rfl⟩, bind_eq_ok.mpr
      ⟨_, headerIf_eq_ok.mpr ⟨allows, hAllows, rfl⟩, constructed_eq_ok.mpr hResponse⟩⟩

/-- The headers of errors are valid and for every hop. -/
theorem errorHeaders_parse (service : StaticService ν) (methodNotAllowed : Bool) :
    ∃ base, List.Forall₂ Parses (service.errorHeaders methodNotAllowed) base := by
  have hType : Parses ⟨"content-type", "text/plain; charset=utf-8"⟩
      ⟨⟨"content-type", by decide, by decide, by decide⟩,
        ⟨utf8 "text/plain; charset=utf-8", by decide, by decide⟩⟩ :=
    ⟨by decide, by decide⟩
  have hAllow : Parses ⟨"allow", "GET, HEAD"⟩
      ⟨⟨"allow", by decide, by decide, by decide⟩,
        ⟨utf8 "GET, HEAD", by decide, by decide⟩⟩ :=
    ⟨by decide, by decide⟩
  unfold errorHeaders
  cases decide (service.errorPolicy = .minimal) <;> cases methodNotAllowed
  · exact ⟨[], .nil⟩
  · exact ⟨[_], .cons hAllow .nil⟩
  · exact ⟨[_], .cons hType .nil⟩
  · exact ⟨[_, _], .cons hType (.cons hAllow .nil)⟩

theorem endToEndNames_errorHeaders (service : StaticService ν) (methodNotAllowed : Bool) :
    EndToEndNames (service.errorHeaders methodNotAllowed) := by
  unfold errorHeaders EndToEndNames
  cases decide (service.errorPolicy = .minimal) <;> cases methodNotAllowed <;> decide

/-- An error sets its own headers and one value of each other configured name. -/
theorem errorResponse_headers (hValid : ∀ header ∈ service.extraHeaders, ValidExtra header)
    {status : StatusCode} (hPayload : status.permitsPayloadBody = true) (text : String)
    (isHead methodNotAllowed : Bool) :
    ∃ response own, service.errorResponse status text isHead methodNotAllowed = .ok response ∧
      service.bare.errorResponse status text isHead methodNotAllowed = .ok own ∧
      ∀ header ∈ service.extraHeaders,
        own.headers.contains header.name =
          ((service.errorHeaders methodNotAllowed).any fun set =>
            eqIgnoreAsciiCase set.name header.name) ∧
        (own.headers.contains header.name = false →
          response.headers.getAll header.name =
            (valuesOf service.extraHeaders header.name).take 1) := by
  obtain ⟨base, hBase⟩ := service.errorHeaders_parse methodNotAllowed
  have hExtras : ∀ extra ∈ service.extraResponseHeaders, ValidExtra ⟨extra.1, extra.2⟩ :=
    fun extra hExtra => hValid _ (List.mem_map_of_mem hExtra)
  have hHops := endToEnd_of_parses hBase (service.endToEndNames_errorHeaders methodNotAllowed)
  have hAllHops := endToEnd_foldl_pushExtraHeader hExtras hHops
  have hResponse := @normalize_builderBody status
    (service.extraResponseHeaders.foldl pushExtraHeader base) (service.errorBody text isHead)
    isHead _ |>.mpr ⟨framingAccepted_of_payload _ _ hPayload, rfl⟩
  have hOwn := @normalize_builderBody status base (service.errorBody text isHead) isHead _ |>.mpr
    ⟨framingAccepted_of_payload _ _ hPayload, rfl⟩
  refine ⟨_, _, errorResponse_eq_ok.mpr ⟨base, hBase, hResponse⟩,
    errorResponse_eq_ok.mpr ⟨base, hBase, hOwn⟩, fun header hHeader => ?_⟩
  have hName := (hValid header hHeader).not_length
  rw [contains_eq_not_isEmpty_getAll, getAll_normalized hOwn hHops hName,
    ← contains_eq_not_isEmpty_getAll]
  refine ⟨contains_of_parses hBase header.name, fun hAbsent => ?_⟩
  rw [getAll_normalized hResponse hAllHops hName, getAll_foldl_pushExtraHeader hExtras,
    if_neg (by rw [hAbsent]; exact Bool.false_ne_true)]
  rfl

/-! Redirects. -/

theorem mem_redirectLocation {raw : Str} {c : Char}
    (h : c ∈ redirectLocation (RequestTarget.parseOriginForm raw)) :
    c ∈ raw ∨ c = '/' ∨ c = '?' := by
  have hPath : ∀ c ∈ (RequestTarget.parseOriginForm raw).path, c ∈ raw := by
    intro c hc
    rw [RequestTarget.path_parseOriginForm] at hc
    exact (List.takeWhile_sublist _).subset hc
  have hQuery : ∀ query, (RequestTarget.parseOriginForm raw).query = some query →
      ∀ c ∈ query, c ∈ raw := by
    intro query hQuery c hc
    rw [RequestTarget.query_parseOriginForm] at hQuery
    split at hQuery
    · cases hQuery
    · rename_i first rest hRest
      obtain rfl := Option.some.inj hQuery
      rw [← hRest] at hc
      exact (List.dropWhile_sublist _).subset ((List.tail_sublist _).subset hc)
  unfold redirectLocation at h
  cases hSome : (RequestTarget.parseOriginForm raw).query with
  | none =>
      rw [hSome] at h
      rcases List.mem_append.mp h with hMem | hMem
      · exact .inl (hPath c hMem)
      · exact .inr (.inl (List.mem_singleton.mp hMem))
  | some query =>
      rw [hSome] at h
      simp only [List.mem_append, List.mem_cons, List.not_mem_nil, or_false] at h
      rcases h with (hMem | rfl) | rfl | hMem
      · exact .inl (hPath c hMem)
      · exact .inr (.inl rfl)
      · exact .inr (.inr rfl)
      · exact .inl (hQuery query hSome c hMem)

theorem isValueByte_of_not_control {byte : UInt8} (h : ¬asciiControl byte.toNat = true) :
    isValueByte byte = true := by
  simp only [asciiControl, isValueByte, Bool.or_eq_true, Bool.and_eq_true, decide_eq_true_eq,
    UInt8.le_iff_toNat_le, ne_eq, ← UInt8.toNat_inj] at h ⊢
  change (32 ≤ byte.toNat ∧ ¬byte.toNat = 127) ∨ byte.toNat = 9
  omega

/-- A parsed target has no octet that a header value must not have. -/
theorem redirectLocation_valid {raw : Str} {target : RequestTarget}
    (hTarget : RequestTarget.parse raw = .ok target) :
    ∃ value, HeaderValue.new (redirectLocation target) = .ok value := by
  obtain ⟨hClean, -, -, rfl⟩ := RequestTarget.parse_eq_ok.mp hTarget
  have hControl : (redirectLocation (RequestTarget.parseOriginForm raw)).any
      (fun c => asciiControl c.toNat) = false := by
    rw [List.any_eq_false]
    intro c hc
    rcases mem_redirectLocation hc with hRaw | rfl | rfl
    · rw [(hClean c hRaw).1]
      exact Bool.false_ne_true
    · decide
    · decide
  rw [← any_utf8_ascii lt_of_asciiControl, List.any_eq_false] at hControl
  have hBytes : (utf8 (redirectLocation (RequestTarget.parseOriginForm raw))).all isValueByte =
      true := List.all_eq_true.mpr fun byte hMem => isValueByte_of_not_control (hControl byte hMem)
  exact ⟨_, by rw [HeaderValue.new, HeaderValue.fromBytes, dif_pos hBytes]⟩

def locationName : HeaderName := ⟨"location", by decide, by decide, by decide⟩

/-- A redirect is the response that has its location alone. -/
theorem redirectResponse_eq_ok {raw : Str} {target : RequestTarget}
    (hTarget : RequestTarget.parse raw = .ok target) (isHead : Bool) :
    ∃ value response, HeaderValue.new (redirectLocation target) = .ok value ∧
      redirectResponse target isHead = .ok response ∧
      normalizeResponse (builderBody .movedPermanently [⟨locationName, value⟩] .empty) isHead =
        .ok response ∧ EndToEnd [⟨locationName, value⟩] := by
  obtain ⟨value, hValue⟩ := redirectLocation_valid hTarget
  have hName : HeaderName.new "location" = .ok locationName := by decide
  have hField : Parses ⟨"location", redirectLocation target⟩ ⟨locationName, value⟩ :=
    ⟨hName, hValue⟩
  have hHop : isHopByHopHeader "location" = false := by decide
  have hHops := endToEnd_of_parses (.cons hField .nil) (List.forall_mem_singleton.mpr hHop)
  have hResponse := @normalize_builderBody .movedPermanently [⟨locationName, value⟩] .empty isHead _
    |>.mpr ⟨framingAccepted_of_payload _ _ (by decide), rfl⟩
  exact ⟨value, _, hValue, bind_eq_ok.mpr ⟨_, constructed_eq_ok.mpr (builderHeader_eq_ok.mpr
    ⟨_, hField, rfl⟩), constructed_eq_ok.mpr hResponse⟩, hResponse, hHops⟩

/-- A redirect sets its location, and nothing else that could be configured. -/
theorem redirectResponse_headers {raw : Str} {target : RequestTarget}
    (hTarget : RequestTarget.parse raw = .ok target) (isHead : Bool) :
    ∃ response, redirectResponse target isHead = .ok response ∧
      ∀ name, eqIgnoreAsciiCase name "content-length" = false →
        response.headers.contains name = eqIgnoreAsciiCase "location" name ∧
        (response.headers.contains name = false → response.headers.getAll name = []) := by
  obtain ⟨value, response, -, hRedirect, hResponse, hHops⟩ := redirectResponse_eq_ok hTarget isHead
  refine ⟨response, hRedirect, fun name hName => ?_⟩
  have hAll := getAll_normalized hResponse hHops hName
  rw [contains_eq_not_isEmpty_getAll, hAll]
  constructor
  · rw [← contains_eq_not_isEmpty_getAll]
    exact Bool.or_false _
  · intro hAbsent
    rw [Bool.not_eq_false', List.isEmpty_iff] at hAbsent
    exact hAbsent

end StaticService

/-- A redirect answers a target in origin form. -/
theorem route_redirect_origin {ν : Type} {root : SecureRoot ν} {request : RequestHead}
    (h : route root request = .redirect) : request.target.form = .origin := by
  cases hForm : request.target.form with
  | origin => rfl
  | absolute =>
      rw [route, if_pos hForm] at h
      cases h

namespace StaticService

variable {ν : Type}

/-- On a service with valid configured headers, a request gets all of them
exactly when it is not redirected, unless they are locations, and not refused
with an error while a name occurs twice that the error does not set itself. -/
theorem extrasReach_iff (dates : HttpDate) (service : StaticService ν) (request : RequestHead)
    (hValid : ∀ header ∈ service.extraHeaders, ValidExtra header)
    (hTarget : request.target.form = .origin →
      ∃ raw, RequestTarget.parse raw = .ok request.target) :
    service.ExtrasReach dates request ↔ service.TakesAll request := by
  unfold ExtrasReach TakesAll
  simp only [respond_eq]
  change (∀ response, service.answer dates request (route service.root request) =
    some (.ok response) → ∃ own, service.bare.answer dates request (route service.root request) =
      some (.ok own) ∧ _) ↔ _
  cases hRoute : route service.root request with
  | file file =>
      refine iff_of_true (fun response hResponse => ?_) trivial
      exact extras_of_file dates hValid hResponse
  | listing directory =>
      refine iff_of_true (fun response hResponse => ?_) trivial
      obtain ⟨own, hOwn, hAll⟩ := extras_of_listing hValid (route_listing hRoute)
        (Option.some.inj hResponse)
      exact ⟨own, congrArg some hOwn, hAll⟩
  | failure => exact iff_of_true (fun response hResponse => by cases hResponse) trivial
  | redirect =>
      obtain ⟨raw, hRaw⟩ := hTarget (route_redirect_origin hRoute)
      obtain ⟨response, hResponse, hHeaders⟩ := redirectResponse_headers hRaw request.isHead
      have hAnswer : redirectResponse request.target request.isHead = .ok response := hResponse
      constructor
      · intro hReach header hHeader
        by_contra hOther
        rw [Bool.not_eq_true] at hOther
        obtain ⟨own, hOwn, hAll⟩ := hReach response (congrArg some hAnswer)
        obtain rfl : response = own :=
          Except.ok.inj (hAnswer.symm.trans (Option.some.inj hOwn))
        obtain ⟨hContains, hNone⟩ := hHeaders header.name (hValid header hHeader).not_length
        rw [eqIgnoreAsciiCase_comm, hOther] at hContains
        have hValues := (hAll header hHeader hContains).symm.trans (hNone hContains)
        exact valuesOf_ne_nil hValid hHeader hValues
      · intro hLocations other hOther
        obtain rfl : response = other :=
          Except.ok.inj (hAnswer.symm.trans (Option.some.inj hOther))
        refine ⟨response, congrArg some hAnswer, fun header hHeader hAbsent => ?_⟩
        obtain ⟨hContains, -⟩ := hHeaders header.name (hValid header hHeader).not_length
        rw [hAbsent, eqIgnoreAsciiCase_comm, hLocations header hHeader] at hContains
        cases hContains
  | error status text methodNotAllowed =>
      obtain ⟨response, own, hResponse, hOwn, hHeaders⟩ := errorResponse_headers hValid
        (route_error_payload hRoute) text request.isHead methodNotAllowed
      constructor
      · intro hReach header hHeader
        obtain ⟨hContains, hFirst⟩ := hHeaders header hHeader
        obtain ⟨other, hOther, hAll⟩ := hReach response (congrArg some hResponse)
        obtain rfl : own = other := Except.ok.inj (hOwn.symm.trans (Option.some.inj hOther))
        cases hSet : own.headers.contains header.name with
        | true => exact .inl (hContains.symm.trans hSet)
        | false =>
            right
            have hSame := (hFirst hSet).symm.trans (hAll header hHeader hSet)
            have hLength := congrArg List.length hSame
            rw [List.length_take, length_valuesOf hValid] at hLength
            omega
      · intro hOnce other hOther
        obtain rfl : response = other :=
          Except.ok.inj (hResponse.symm.trans (Option.some.inj hOther))
        refine ⟨own, congrArg some hOwn, fun header hHeader hAbsent => ?_⟩
        obtain ⟨hContains, hFirst⟩ := hHeaders header hHeader
        rw [hFirst hAbsent]
        rcases hOnce header hHeader with hSet | hCount
        · rw [← hContains, hAbsent] at hSet
          cases hSet
        · refine List.take_of_length_le ?_
          rw [length_valuesOf hValid]
          exact hCount

end StaticService

/-- A file gets the configured header. -/
theorem extrasReach_iff_docs :
    (docsService [("X-Frame-Options", "DENY")]).ExtrasReach noDates (docsRequest "/docs/a") := by
  refine (StaticService.extrasReach_iff noDates _ _ ?_ ?_).mpr (by decide +kernel)
  · refine List.forall_mem_singleton.mpr ⟨⟨⟨⟨"X-Frame-Options", by decide +kernel⟩,
      ⟨utf8 "DENY", by decide +kernel, by decide +kernel⟩⟩, ⟨?_, ?_⟩⟩, ?_, ?_⟩
    · decide +kernel
    · decide +kernel
    · decide +kernel
    · decide +kernel
  · exact fun _ => ⟨"/docs/a", RequestTarget.parse_eq_ok.mpr
      ⟨by decide +kernel, by decide +kernel, by decide +kernel, rfl⟩⟩

/-- A response with other values than the configured ones. -/
theorem not_extrasReach {ν : Type} {dates : HttpDate} {service : StaticService ν}
    {request : RequestHead} {header : ResponseHeader} {values : List HeaderValue}
    (hHeader : header ∈ service.extraHeaders)
    (hResponse : ((service.respond dates request).bind Except.toOption).map
      (·.headers.getAll header.name) = some values)
    (hOwn : ((service.bare.respond dates request).bind Except.toOption).map
      (·.headers.contains header.name) = some false)
    (hValues : values ≠ valuesOf service.extraHeaders header.name) :
    ¬service.ExtrasReach dates request := by
  intro hReach
  obtain ⟨response, hSome, rfl⟩ := Option.map_eq_some_iff.mp hResponse
  obtain ⟨result, hRespond, hOk⟩ := Option.bind_eq_some_iff.mp hSome
  cases result with
  | error error => cases hOk
  | ok result =>
      obtain rfl : result = response := Option.some.inj hOk
      obtain ⟨own, hBare, hAll⟩ := hReach result hRespond
      rw [hBare] at hOwn
      exact hValues (hAll header hHeader (Option.some.inj hOwn))

/-- A header configured for every response is missing from a redirect, and of
two configured values an error has one. -/
theorem redirect_drops_extras :
    ¬(docsService [("X-Frame-Options", "DENY")]).ExtrasReach noDates (docsRequest "/docs") ∧
      ¬(docsService [("Vary", "Origin"), ("Vary", "Cookie")]).ExtrasReach noDates
        (docsRequest "/missing") := by
  constructor
  · exact @not_extrasReach _ _ _ _ ⟨"X-Frame-Options", "DENY"⟩ [] List.mem_cons_self
      (by decide +kernel) (by decide +kernel) (by decide +kernel)
  · exact @not_extrasReach _ _ _ _ ⟨"Vary", "Origin"⟩
      [⟨utf8 "Origin", by decide +kernel, by decide +kernel⟩] List.mem_cons_self
      (by decide +kernel) (by decide +kernel) (by decide +kernel)

end Eggserve.Static
