import Eggserve.Primitives.Canonical.Renormalize
import Eggserve.Static.Service

/-! Plans and their responses: which headers of a plan are valid, which fields
they become and what normalization leaves of them. -/
namespace Eggserve.Static
open Rust Posix Eggserve.Primitives Eggserve.Server

/-- A header of a plan and the field it becomes. -/
structure Parses (header : ResponseHeader) (field : HeaderField) : Prop where
  name : HeaderName.new header.name = .ok field.name
  value : HeaderValue.new header.value = .ok field.value

namespace Parses

variable {header : ResponseHeader} {field other : HeaderField}

theorem text_eq (h : Parses header field) : field.name.text = header.name :=
  HeaderName.text_of_new h.name

theorem name_is (h : Parses header field) (name : Str) :
    field.name.is name = eqIgnoreAsciiCase header.name name := by
  rw [HeaderName.is, h.text_eq]

theorem unique (h : Parses header field) (hOther : Parses header other) : field = other := by
  have hName : field.name = other.name := Except.ok.inj (h.name.symm.trans hOther.name)
  have hValue : field.value = other.value := Except.ok.inj (h.value.symm.trans hOther.value)
  obtain ⟨name, value⟩ := field
  obtain ⟨_, _⟩ := other
  obtain rfl : name = _ := hName
  obtain rfl : value = _ := hValue
  rfl

end Parses

theorem pushStr_eq_ok {headers result : HeaderBlock} {name value : Str} :
    headers.pushStr name value = .ok result ↔
      ∃ field, Parses ⟨name, value⟩ field ∧ headers ++ [field] = result := by
  unfold HeaderBlock.pushStr
  rw [bind_eq_ok]
  constructor
  · rintro ⟨parsedName, hName, h⟩
    obtain ⟨parsedValue, hValue, h⟩ := bind_eq_ok.mp h
    exact ⟨⟨parsedName, parsedValue⟩, ⟨hName, hValue⟩, Except.ok.inj h⟩
  · rintro ⟨field, hField, rfl⟩
    exact ⟨field.name, hField.name, bind_eq_ok.mpr ⟨field.value, hField.value, rfl⟩⟩

theorem builderHeader_eq_ok {headers result : HeaderBlock} {name value : Str} :
    builderHeader headers name value = .ok result ↔
      ∃ field, Parses ⟨name, value⟩ field ∧ headers ++ [field] = result := by
  rw [builderHeader, mapError_eq_ok, pushStr_eq_ok]

/-- The builder takes a plan's headers if all are valid, one field for each. -/
theorem builderHeaders_eq_ok {fields : List ResponseHeader} {headers result : HeaderBlock} :
    builderHeaders headers fields = .ok result ↔
      ∃ added, List.Forall₂ Parses fields added ∧ headers ++ added = result := by
  induction fields generalizing headers with
  | nil =>
      rw [builderHeaders, List.foldlM_nil]
      constructor
      · intro h
        exact ⟨[], .nil, (List.append_nil _).trans (Except.ok.inj h)⟩
      · rintro ⟨added, hAdded, rfl⟩
        cases hAdded
        rw [List.append_nil]
        rfl
  | cons header fields ih =>
      have hCons : builderHeaders headers (header :: fields) =
          builderHeader headers header.name header.value >>= (builderHeaders · fields) := rfl
      rw [hCons, bind_eq_ok]
      constructor
      · rintro ⟨next, hNext, h⟩
        obtain ⟨field, hField, rfl⟩ := builderHeader_eq_ok.mp hNext
        obtain ⟨added, hAdded, rfl⟩ := ih.mp h
        exact ⟨field :: added, .cons hField hAdded, by simp⟩
      · rintro ⟨added, hAdded, rfl⟩
        cases hAdded with
        | cons hField hRest =>
            rename_i field rest
            refine ⟨headers ++ [field], builderHeader_eq_ok.mpr ⟨field, hField, rfl⟩, ?_⟩
            exact ih.mpr ⟨rest, hRest, by simp⟩

theorem parses_append {fields others : List ResponseHeader} {result : HeaderBlock}
    (h : List.Forall₂ Parses (fields ++ others) result) :
    ∃ added rest, List.Forall₂ Parses fields added ∧ List.Forall₂ Parses others rest ∧
      added ++ rest = result := by
  induction fields generalizing result with
  | nil => exact ⟨[], result, .nil, h, rfl⟩
  | cons header fields ih =>
      cases h with
      | cons hField hRest =>
          obtain ⟨added, rest, hAdded, hOthers, rfl⟩ := ih hRest
          exact ⟨_ :: added, rest, .cons hField hAdded, hOthers, rfl⟩

theorem constructed_eq_ok {α : Type} {result : Except ResponseConstructionError α} {value : α} :
    constructed result = .ok value ↔ result = .ok value := mapError_eq_ok

/-- The values that a list of headers gives to a name. -/
def valuesOf (fields : List ResponseHeader) (name : Str) : List HeaderValue :=
  (fields.filter fun header => eqIgnoreAsciiCase header.name name).filterMap
    fun header => (HeaderValue.new header.value).toOption

theorem valuesOf_append (fields others : List ResponseHeader) (name : Str) :
    valuesOf (fields ++ others) name = valuesOf fields name ++ valuesOf others name := by
  rw [valuesOf, List.filter_append, List.filterMap_append]
  rfl

theorem valuesOf_cons {header : ResponseHeader} {field : HeaderField} (h : Parses header field)
    (fields : List ResponseHeader) (name : Str) :
    valuesOf (header :: fields) name =
      (if field.name.is name then [field.value] else []) ++ valuesOf fields name := by
  rw [valuesOf, List.filter_cons, ← h.name_is name]
  cases field.name.is name with
  | false => rfl
  | true =>
      simp only [↓reduceIte, List.filterMap_cons, h.value]
      rfl

theorem getAll_of_parses {fields : List ResponseHeader} {added : HeaderBlock}
    (h : List.Forall₂ Parses fields added) (name : Str) :
    HeaderBlock.getAll added name = valuesOf fields name := by
  induction h with
  | nil => rfl
  | @cons header field fields added hField _ ih =>
      rw [valuesOf_cons hField, ← ih, HeaderBlock.getAll, List.filter_cons]
      cases field.name.is name <;> rfl

theorem contains_of_parses {fields : List ResponseHeader} {added : HeaderBlock}
    (h : List.Forall₂ Parses fields added) (name : Str) :
    HeaderBlock.contains added name =
      fields.any fun header => eqIgnoreAsciiCase header.name name := by
  induction h with
  | nil => rfl
  | cons hField _ ih =>
      rw [HeaderBlock.contains, List.any_cons, List.any_cons, hField.name_is name]
      exact congrArg _ ih

/-! Names that never concern one hop. -/

/-- Nothing in the list is for one hop only. -/
def EndToEndNames (fields : List ResponseHeader) : Prop :=
  ∀ header ∈ fields, isHopByHopHeader header.name = false

theorem endToEnd_of_parses {fields : List ResponseHeader} {added : HeaderBlock}
    (h : List.Forall₂ Parses fields added) (hNames : EndToEndNames fields) : EndToEnd added := by
  induction h with
  | nil => exact fun _ hMem => absurd hMem List.not_mem_nil
  | cons hField _ ih =>
      obtain ⟨hFirst, hRest⟩ := List.forall_mem_cons.mp hNames
      refine List.forall_mem_cons.mpr ⟨?_, ih hRest⟩
      rw [hField.text_eq]
      exact hFirst

theorem EndToEndNames.append {fields others : List ResponseHeader} (h : EndToEndNames fields)
    (hOthers : EndToEndNames others) : EndToEndNames (fields ++ others) := by
  intro header hHeader
  rcases List.mem_append.mp hHeader with hMem | hMem
  · exact h header hMem
  · exact hOthers header hMem

theorem EndToEndNames.push {plan : HeaderMapPlan} {name : Str} (h : EndToEndNames plan.headers)
    (hName : isHopByHopHeader name = false) (value : Str) :
    EndToEndNames (plan.push name value).headers :=
  h.append (List.forall_mem_singleton.mpr hName)

theorem EndToEndNames.pushSome {plan : HeaderMapPlan} {name : Str}
    (h : EndToEndNames plan.headers) (hName : isHopByHopHeader name = false)
    (value : Option Str) : EndToEndNames (plan.pushSome name value).headers := by
  cases value with
  | none => exact h
  | some value => exact h.push hName value

theorem endToEndNames_new : EndToEndNames HeaderMapPlan.new.headers :=
  fun _ hMem => absurd hMem List.not_mem_nil

/-- No plan for a file names a field for one hop. -/
theorem endToEndNames_plan {dates : HttpDate} {method : ReadOnlyMethod} {metadata : Metadata}
    {contentType : Str} {request : RequestConditions} {policy : StaticMetadataPolicy}
    {plan : StaticResponsePlan}
    (h : planFileResponseWithPreconditionsAndMetadata dates method metadata contentType request
      policy = some plan) : EndToEndNames plan.headers.headers := by
  rcases plan_cases h with rfl | ⟨etag, lastModified, rfl⟩ | rfl | ⟨etag, lastModified, rfl |
    ⟨header, range, hRange, rfl⟩⟩
  · exact endToEndNames_new.push (by decide) _
  · exact (endToEndNames_new.pushSome (by decide) etag).pushSome (by decide) lastModified
  · exact ((endToEndNames_new.push (by decide) _).push (by decide) _).push (by decide) _
  · exact (((((endToEndNames_new.push (by decide) _).push (by decide) _).push (by decide) _).push
      (by decide) _).pushSome (by decide) lastModified).pushSome (by decide) etag
  · exact ((((((endToEndNames_new.push (by decide) _).push (by decide) _).push
      (by decide) _).push (by decide) _).push (by decide) _).pushSome
      (by decide) lastModified).pushSome (by decide) etag

theorem endToEndNames_planDirectoryListing (contentLength : Nat) (isHead : Bool) :
    EndToEndNames (planDirectoryListing contentLength isHead).headers.headers :=
  ((((endToEndNames_new.push (by decide) _).pushSome (by decide) _).push (by decide) _).push
    (by decide) _).push (by decide) _

/-! Listings as plans. -/

theorem routeIndex_listing {ν : Type} {root : SecureRoot ν} {directory found : ResolvedDirectory ν}
    {names : List Str} (h : routeIndex root directory names = .listing found) :
    root.policy.directoryListing = .enabled := by
  induction names with
  | nil =>
      unfold routeIndex at h
      split_ifs at h with hEnabled
      exact hEnabled
  | cons indexName rest ih =>
      unfold routeIndex at h
      cases hChild : root.resolveChild directory indexName with
      | notFound =>
          rw [hChild] at h
          exact ih h
      | file | ioError | directory | denied => simp [hChild] at h

/-- Only where listings are enabled is a directory listed. -/
theorem route_listing {ν : Type} {root : SecureRoot ν} {request : RequestHead}
    {directory : ResolvedDirectory ν} (h : route root request = .listing directory) :
    root.policy.directoryListing = .enabled := by
  unfold route at h
  by_cases hForm : request.target.form = .absolute
  · rw [if_pos hForm] at h
    cases h
  rw [if_neg hForm] at h
  by_cases hMethod : (!request.permitsStaticResolution) = true
  · rw [if_pos hMethod] at h
    cases h
  rw [if_neg hMethod] at h
  split at h
  · cases h
  · cases h
  · split_ifs at h
    exact routeIndex_listing h
  · cases h
  · cases h
  · cases h

theorem routeIndex_error_payload {ν : Type} {root : SecureRoot ν}
    {directory : ResolvedDirectory ν} {names : List Str} {status : StatusCode} {text : String}
    {methodNotAllowed : Bool}
    (h : routeIndex root directory names = .error status text methodNotAllowed) :
    status.permitsPayloadBody = true := by
  induction names with
  | nil =>
      unfold routeIndex at h
      split_ifs at h
      obtain ⟨rfl, -, -⟩ := Route.error.inj h
      decide
  | cons indexName rest ih =>
      unfold routeIndex at h
      cases hChild : root.resolveChild directory indexName with
      | file file => simp [hChild] at h
      | ioError error => simp [hChild] at h
      | notFound =>
          rw [hChild] at h
          exact ih h
      | directory child =>
          rw [hChild] at h
          obtain ⟨rfl, -, -⟩ := Route.error.inj h
          decide
      | denied rejection =>
          rw [hChild] at h
          obtain ⟨rfl, -, -⟩ := Route.error.inj h
          decide

/-- Every error has a body. -/
theorem route_error_payload {ν : Type} {root : SecureRoot ν} {request : RequestHead}
    {status : StatusCode} {text : String} {methodNotAllowed : Bool}
    (h : route root request = .error status text methodNotAllowed) :
    status.permitsPayloadBody = true := by
  unfold route at h
  by_cases hForm : request.target.form = .absolute
  · rw [if_pos hForm] at h
    obtain ⟨rfl, -, -⟩ := Route.error.inj h
    decide
  rw [if_neg hForm] at h
  by_cases hMethod : (!request.permitsStaticResolution) = true
  · rw [if_pos hMethod] at h
    obtain ⟨rfl, -, -⟩ := Route.error.inj h
    decide
  rw [if_neg hMethod] at h
  split at h
  · rename_i rejection _
    obtain ⟨rfl, -, -⟩ := Route.error.inj h
    cases rejection <;> decide
  · cases h
  · split_ifs at h
    exact routeIndex_error_payload h
  · obtain ⟨rfl, -, -⟩ := Route.error.inj h
    decide
  · obtain ⟨rfl, -, -⟩ := Route.error.inj h
    decide
  · cases h

namespace StaticService

variable {ν : Type} (service : StaticService ν)

/-- The configured headers. -/
def extraHeaders : List ResponseHeader :=
  service.extraResponseHeaders.map fun extra => ⟨extra.1, extra.2⟩

theorem appendExtraHeaders_eq (headers : HeaderMapPlan) :
    service.appendExtraHeaders headers =
      ⟨headers.headers ++ service.extraHeaders.filter fun extra =>
        !headers.headers.any fun header => eqIgnoreAsciiCase header.name extra.name⟩ := by
  simp only [appendExtraHeaders, extraHeaders, List.filter_map, List.any_map, Function.comp_def,
    eqIgnoreAsciiCase_lower]

/-- The document of a listing. -/
def listingBytes (directory : ResolvedDirectory ν) : Except ServiceError (List UInt8) := do
  let entries ← (service.root.list directory service.maxListingEntries).mapError
    fun _ => internal "directory listing failed"
  renderDirectoryListing entries service.maxListingResponseBytes

/-- The plan of a listing with its document. -/
def listingPlan (body : List UInt8) (isHead : Bool) : StaticResponsePlan :=
  { planDirectoryListing body.length isHead with
    body := if isHead then .empty else .fullBytes body }

theorem directoryResponse_of_enabled (hEnabled : service.root.policy.directoryListing = .enabled)
    (directory : ResolvedDirectory ν) (isHead : Bool) :
    service.directoryResponse directory (readOnlyMethod isHead) =
      (service.listingBytes directory >>= fun body =>
        responseFromPlan { listingPlan body isHead with
          headers := service.appendExtraHeaders (listingPlan body isHead).headers } .empty
          isHead) := by
  rw [directoryResponse, if_neg (not_not.mpr hEnabled), readOnlyMethod_eq_head, listingBytes,
    bind_assoc]
  cases isHead <;> rfl

end StaticService

/-! Normalized responses. -/

theorem normalize_builderBody {status : StatusCode} {headers : HeaderBlock} {body : ResponseBody}
    {isHead : Bool} {response : Response} :
    normalizeResponse (builderBody status headers body) isHead = .ok response ↔
      FramingAccepted status headers (framingLength status isHead (some body)) ∧
        response = {
          status := status
          headers := kept headers ++ ((emittedLength status headers
            (framingLength status isHead (some body))).map contentLengthField).toList
          body := suppressBody status isHead (some body)
          normalized := true } := normalizeResponse_eq_ok_iff rfl

theorem framingAccepted_of_payload {status : StatusCode} (headers : HeaderBlock)
    (bodyLength : BodyLength) (hPayload : status.permitsPayloadBody = true) :
    FramingAccepted status headers bodyLength := by
  constructor
  · rintro rfl
    exact absurd hPayload (by decide)
  · rintro rfl
    exact absurd hPayload (by decide)

theorem responseFromPlan_eq_ok {plan : StaticResponsePlan} {source : BodySource} {isHead : Bool}
    {response : Response} :
    responseFromPlan plan source isHead = .ok response ↔
      ∃ status headers, StatusCode.new plan.status.code = some status ∧
        List.Forall₂ Parses plan.headers.headers headers ∧
        normalizeResponse (builderBody status headers (planBody plan source status isHead))
          isHead = .ok response := by
  unfold responseFromPlan
  cases StatusCode.new plan.status.code with
  | none => simp
  | some status =>
      simp only [bind_eq_ok, constructed_eq_ok, builderHeaders_eq_ok, List.nil_append,
        Option.some.injEq]
      constructor
      · rintro ⟨headers, ⟨_, hParses, rfl⟩, hResponse⟩
        exact ⟨status, _, rfl, hParses, hResponse⟩
      · rintro ⟨_, headers, rfl, hParses, hResponse⟩
        exact ⟨headers, ⟨headers, hParses, rfl⟩, hResponse⟩

/-- A normalized response keeps the values of every name that is neither framing
nor for one hop. -/
theorem getAll_normalized {status : StatusCode} {headers : HeaderBlock} {body : ResponseBody}
    {isHead : Bool} {response : Response} {name : Str}
    (hResponse : normalizeResponse (builderBody status headers body) isHead = .ok response)
    (hHeaders : EndToEnd headers)
    (hName : eqIgnoreAsciiCase name "content-length" = false) :
    response.headers.getAll name = headers.getAll name := by
  obtain ⟨-, rfl⟩ := normalize_builderBody.mp hResponse
  have hOther : ∀ field : HeaderField, field.name.is name = true →
      field.name.is "content-length" = false := by
    intro field hField
    rw [HeaderName.is, eqIgnoreAsciiCase_congr_left hField]
    exact hName
  rw [kept_of_endToEnd hHeaders]
  have hLength : ∀ emitted : Option Nat,
      ((emitted.map contentLengthField).toList).filter (·.name.is name) = [] := by
    intro emitted
    refine List.filter_eq_nil_iff.mpr fun field hField hIs => ?_
    obtain ⟨length, -, rfl⟩ : ∃ length, emitted = some length ∧
        contentLengthField length = field := by simpa using hField
    have hNot := hOther _ hIs
    rw [contentLengthField_is] at hNot
    cases hNot
  simp only [HeaderBlock.getAll, List.filter_append, hLength, List.append_nil, removeHeader,
    List.filter_filter]
  congr 1
  refine List.filter_congr fun field _ => ?_
  cases hIs : field.name.is name with
  | false => rfl
  | true =>
      rw [hOther field hIs]
      rfl

/-- A root over the file `docs/a`, with configured headers. -/
theorem defaultListingBytes_le : 1024 * 1024 ≤ u64Max := by decide

def docsService (extras : List (Str × Str)) : StaticService Nat where
  root := .onTree docsTree docsRoot {}
  maxListingResponseBytes_le := defaultListingBytes_le
  extraResponseHeaders := extras

def docsRequest (raw : Str) : RequestHead where
  method := "GET"
  target := .parseOriginForm raw
  version := .http11
  headers := []
  authority := none

/-- No date is formatted: the files have no modification time. -/
def noDates : HttpDate := ⟨fun _ => none, fun _ => none⟩

end Eggserve.Static
