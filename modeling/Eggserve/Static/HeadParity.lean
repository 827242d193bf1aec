import Eggserve.Server.DateSafety
import Eggserve.Server.FileBody
import Eggserve.Static.PlanResponse

/-! The answer to `HEAD` against the answer to `GET`. The two differ in their
plans and bodies, and the length has to come out the same. -/
namespace Eggserve.Static
open Rust Posix Eggserve.Primitives Eggserve.Server

/-- The two responses differ in their bodies alone, and what `GET` sends has the
length that it announces. -/
structure Mirrors (chunkSize : Nat) (get head : Response) : Prop where
  status_eq : head.status = get.status
  headers_eq : head.headers = get.headers
  no_bytes : wireBytes chunkSize head.body = []
  announced : get.status.permitsPayloadBody = true →
    get.headers.contains "content-length" = true
  exact_length : ∀ value ∈ get.headers.getAll "content-length",
    value.toStr = some (decimal (wireBytes chunkSize get.body).length)

/-- Both requests are answered or both fail with an error. A panic is neither. -/
def AnsweredAlike (chunkSize : Nat) :
    MayPanic (Except ServiceError Response) → MayPanic (Except ServiceError Response) → Prop
  | some (.ok get), some (.ok head) => Mirrors chunkSize get head
  | some (.error _), some (.error _) => True
  | _, _ => False

namespace StaticService

variable {ν : Type} (dates : HttpDate) (service : StaticService ν)

/-- `HEAD` is answered like `GET`, whatever the size of the chunks. -/
def MirrorsGet (request : RequestHead) : Prop :=
  ∀ chunkSize > 0, AnsweredAlike chunkSize
    (service.respond dates { request with method := "GET" })
    (service.respond dates { request with method := "HEAD" })

end StaticService

/-! Alike at one step. -/

variable {chunkSize : Nat}

theorem AnsweredAlike.bind {α : Type} (result : Except ServiceError α)
    {get head : α → Except ServiceError Response}
    (h : ∀ value, AnsweredAlike chunkSize (some (get value)) (some (head value))) :
    AnsweredAlike chunkSize (some (result >>= get)) (some (result >>= head)) := by
  cases result with
  | error error => trivial
  | ok value => exact h value

theorem suppressBody_get_of_payload {status : StatusCode} {body : ResponseBody}
    (hPayload : status.permitsPayloadBody = true)
    (hCollapsed : ∀ length, body ≠ .emptyWithLength length) :
    suppressBody status false (some body) = some body := by
  rw [suppressBody, hPayload]
  cases body with
  | emptyWithLength length => exact absurd rfl (hCollapsed length)
  | empty | bytes | file | stream => rfl

/-- What a normalized answer to `GET` announces is what it sends. -/
theorem exact_length_of_normalize {status : StatusCode} {headers : HeaderBlock}
    {body : ResponseBody} {response : Response}
    (hResponse : normalizeResponse (builderBody status headers body) false = .ok response)
    (hPromise : status.permitsPayloadBody = true → KeepsPromise chunkSize (some body))
    (hCollapsed : ∀ length, body ≠ .emptyWithLength length)
    (hEmpty : status.permitsPayloadBody = false → body = .empty)
    {value : HeaderValue} (hValue : value ∈ response.headers.getAll "content-length") :
    value.toStr = some (decimal (wireBytes chunkSize response.body).length) := by
  have hExact := normalizeResponse_exact rfl hResponse
  cases hPayload : status.permitsPayloadBody with
  | true =>
      refine hExact.framed_bytes rfl hPayload chunkSize ?_ value hValue
      obtain ⟨-, rfl⟩ := normalize_builderBody.mp hResponse
      have hBody := suppressBody_get_of_payload hPayload hCollapsed
      change KeepsPromise chunkSize (suppressBody status false (some body))
      rw [hBody]
      exact hPromise hPayload
  | false =>
      obtain rfl := hEmpty hPayload
      by_cases hStatus : status = .notModified
      · obtain ⟨-, -, length, -, -, -, hLength, hText⟩ :=
          hExact.retained_length hStatus value hValue
        have hZero : length = 0 := (BodyLength.known.inj hLength).symm
        rw [hText, hZero, hExact.no_bytes (.inr hPayload) chunkSize]
        rfl
      · rw [hExact.suppressed_length hPayload hStatus] at hValue
        cases hValue

/-- Bodies of one length are framed alike. -/
theorem answeredAlike_of_length {status : StatusCode} {headers : HeaderBlock}
    {get head : ResponseBody} {length : Nat}
    (hLength : preLength false (some get) = .known length)
    (hSame : preLength true (some head) = .known length)
    (hPromise : status.permitsPayloadBody = true → KeepsPromise chunkSize (some get))
    (hCollapsed : ∀ length, get ≠ .emptyWithLength length)
    (hEmpty : status.permitsPayloadBody = false → get = .empty) :
    AnsweredAlike chunkSize
      (some (constructed (normalizeResponse (builderBody status headers get) false)))
      (some (constructed (normalizeResponse (builderBody status headers head) true))) := by
  have hFraming : framingLength status true (some head) = framingLength status false (some get) := by
    rw [framingLength, framingLength, hLength, hSame]
  cases hGet : normalizeResponse (builderBody status headers get) false with
  | error error =>
      cases hHead : normalizeResponse (builderBody status headers head) true with
      | error error => trivial
      | ok response =>
          obtain ⟨hAccepted, -⟩ := normalize_builderBody.mp hHead
          rw [hFraming] at hAccepted
          rw [normalize_builderBody.mpr ⟨hAccepted, rfl⟩] at hGet
          cases hGet
  | ok response =>
      have hExact := fun value => @exact_length_of_normalize chunkSize status headers get response
        hGet hPromise hCollapsed hEmpty value
      obtain ⟨hAccepted, rfl⟩ := normalize_builderBody.mp hGet
      rw [normalize_builderBody.mpr ⟨hFraming ▸ hAccepted, rfl⟩]
      refine ⟨rfl, ?_, suppressBody_wire _ chunkSize (.inl rfl), fun hPayload => ?_, hExact⟩
      · rw [hFraming]
      · have hEmitted : emittedLength status headers (framingLength status false (some get)) =
            some length := by
          rw [emittedLength, if_pos hPayload, framingLength_of_payload false _ hPayload, hLength]
          rfl
        rw [contains_eq_not_isEmpty_getAll, getAll_kept_append, hEmitted]
        rfl

/-! Errors and redirects. -/

theorem answeredAlike_error {ν : Type} (service : StaticService ν) (status : StatusCode)
    (text : String) (methodNotAllowed : Bool) (hPayload : status.permitsPayloadBody = true) :
    AnsweredAlike chunkSize (some (service.errorResponse status text false methodNotAllowed))
      (some (service.errorResponse status text true methodNotAllowed)) := by
  refine AnsweredAlike.bind _ fun headers => AnsweredAlike.bind _ fun headers => ?_
  unfold StaticService.errorBody
  have hNot : ¬status.permitsPayloadBody = false := by simp [hPayload]
  cases service.errorPolicy with
  | minimal =>
      exact @answeredAlike_of_length _ _ _ _ _ (utf8 text).length rfl rfl (fun _ => trivial)
        (fun _ => nofun) fun h => absurd h hNot
  | empty =>
      exact @answeredAlike_of_length _ _ _ _ _ 0 rfl rfl (fun _ => trivial) (fun _ => nofun)
        fun _ => rfl

theorem answeredAlike_redirect (target : RequestTarget) :
    AnsweredAlike chunkSize (some (StaticService.redirectResponse target false))
      (some (StaticService.redirectResponse target true)) := by
  refine AnsweredAlike.bind _ fun headers => ?_
  exact @answeredAlike_of_length _ _ _ _ _ 0 rfl rfl (fun _ => trivial) (fun _ => nofun)
    fun _ => rfl

/-! Files. -/

/-- A plan without its body. -/
def withoutBody (plan : StaticResponsePlan) : StaticResponsePlan := { plan with body := .empty }

/-- The plan for `HEAD` is the plan for `GET` without its body. -/
theorem plan_head (dates : HttpDate) (metadata : Metadata) (contentType : Str)
    (request : RequestConditions) (policy : StaticMetadataPolicy) :
    planFileResponseWithPreconditionsAndMetadata dates .head metadata contentType request policy =
      (planFileResponseWithPreconditionsAndMetadata dates .get metadata contentType request
        policy).map withoutBody := by
  have hRange : ∀ etag lastModified,
      planRange dates .head metadata contentType etag lastModified request =
        (planRange dates .get metadata contentType etag lastModified request).map
          withoutBody := by
    intro etag lastModified
    unfold planRange
    dsimp only
    cases request.rangeHeader with
    | none => rfl
    | some range =>
        dsimp only
        cases evaluateRangeHeader range metadata.len with
        | none => rfl
        | some outcome =>
            simp only [Option.map_some]
            cases outcome with
            | satisfiable fileRange =>
                dsimp only
                split_ifs <;> rfl
            | notSatisfiable =>
                dsimp only
                split_ifs <;> rfl
            | malformedOrUnsupported | multipleRanges => rfl
  have hValidators : ∀ etag lastModified,
      planWithValidators dates .head metadata contentType etag lastModified request =
        (planWithValidators dates .get metadata contentType etag lastModified request).map
          withoutBody := by
    intro etag lastModified
    unfold planWithValidators
    split_ifs
    · rfl
    · cases evaluateCacheValidation dates etag lastModified request.ifNoneMatch
          request.ifModifiedSince with
      | some headers => rfl
      | none => exact hRange etag lastModified
  simp only [planFileResponseWithPreconditionsAndMetadata, Option.bind_eq_bind, hValidators]
  cases lastModifiedStr dates metadata policy <;> rfl

/-- What a plan for `GET` announces and what its source holds. -/
structure PlanSends (resolved : ResolvedFile) (plan : StaticResponsePlan) (source : BodySource)
    (status : StatusCode) (length : Nat) : Prop where
  status_eq : StatusCode.new plan.status.code = some status
  source_eq : resolved.intoBody plan = .ok source
  length_le : length ≤ u64Max
  announced : status.permitsPayloadBody = true →
    plan.headers.get "content-length" = some (decimal length)
  body_length : (planBody plan source status false).bodyLength = .known length
  promise : ∀ chunkSize > 0, KeepsPromise chunkSize (some (planBody plan source status false))
  empty : status.permitsPayloadBody = false → planBody plan source status false = .empty

theorem planSends {dates : HttpDate} {resolved : ResolvedFile} {contentType : Str}
    {request : RequestConditions} {policy : StaticMetadataPolicy} {plan : StaticResponsePlan}
    (hPlan : planFileResponseWithPreconditionsAndMetadata dates .get resolved.metadata contentType
      request policy = some plan)
    (hContent : resolved.file.content.length = resolved.metadata.len) :
    ∃ source status length, PlanSends resolved plan source status length := by
  have hBound := resolved.metadata.len_le
  rcases plan_cases hPlan with rfl | ⟨etag, lastModified, rfl⟩ | rfl | ⟨etag, lastModified, rfl |
    ⟨header, range, hRange, rfl⟩⟩
  · exact ⟨.empty, ⟨412, by decide⟩, 0, rfl, rfl, Nat.zero_le _, fun _ => by decide, rfl,
      fun _ _ => trivial, fun _ => rfl⟩
  · exact ⟨.empty, .notModified, 0, rfl, rfl, Nat.zero_le _, fun h => absurd h (by decide), rfl,
      fun _ _ => trivial, fun _ => rfl⟩
  · exact ⟨.empty, ⟨416, by decide⟩, 0, rfl, rfl, Nat.zero_le _, fun _ => by rfl, rfl,
      fun _ _ => trivial, fun _ => rfl⟩
  · exact ⟨_, .ok, resolved.metadata.len, rfl, rfl, hBound,
      fun _ => buildFullResponse_contentLength .get _ contentType etag lastModified, rfl,
      fun _ hChunk => ⟨hChunk, hContent.ge⟩, fun h => absurd h (by decide)⟩
  · obtain ⟨hOrder, hEnd⟩ := evaluateRangeHeader_within hRange
    have hLen : range.len = range.endInclusive - range.start + 1 := by
      simp [FileRange.len, checkedLen_of_le hOrder (by omega : range.endInclusive < u64Max)]
    exact ⟨_, ⟨206, by decide⟩, range.len, rfl, ResolvedFile.intoRangeBody_of_lt hOrder hEnd,
      by omega, fun _ => (buildRangeResponse_headers .get range resolved.metadata.len contentType
        etag lastModified).1, rfl, fun _ hChunk => ⟨hChunk, by omega⟩,
      fun h => absurd h (by decide)⟩

theorem get_append_headers {plan : HeaderMapPlan} {name found : Str}
    (extras : List ResponseHeader) (h : plan.get name = some found) :
    (HeaderMapPlan.mk (plan.headers ++ extras)).get name = some found := by
  unfold HeaderMapPlan.get at h ⊢
  obtain ⟨header, hHeader, rfl⟩ := Option.map_eq_some_iff.mp h
  rw [List.find?_append, hHeader]
  rfl

/-- The body for `GET` does not depend on the headers and is never a bare length. -/
theorem planBody_get (plan : StaticResponsePlan) (headers : HeaderMapPlan) (source : BodySource)
    (status : StatusCode) :
    planBody { plan with headers := headers } source status false =
        planBody plan source status false ∧
      ∀ length, planBody plan source status false ≠ .emptyWithLength length := by
  unfold planBody
  cases plan.body with
  | empty | fullBytes | fileFull | fileRange => exact ⟨rfl, fun _ => nofun⟩

theorem preLength_get {body : ResponseBody} (hBody : ∀ length, body ≠ .emptyWithLength length) :
    preLength false (some body) = body.bodyLength := by
  cases body with
  | emptyWithLength length => exact absurd rfl (hBody length)
  | empty | bytes | file | stream => rfl

/-- The body for `HEAD` has the length that the headers state. -/
theorem preLength_planBody_head {plan : StaticResponsePlan} {headers : HeaderMapPlan}
    {status : StatusCode} {length : Nat} (hLength : length ≤ u64Max)
    (hAnnounced : status.permitsPayloadBody = true →
      headers.get "content-length" = some (decimal length))
    (hEmpty : status.permitsPayloadBody = false → length = 0) :
    preLength true (some (planBody { withoutBody plan with headers := headers } .empty status
      true)) = .known length := by
  have hBody : planBody { withoutBody plan with headers := headers } .empty status true =
      if status.permitsPayloadBody then
        (((headers.get "content-length").bind parseU64).map .emptyWithLength).getD .empty
      else .empty := by
    unfold planBody
    rfl
  rw [hBody]
  cases hPayload : status.permitsPayloadBody with
  | true =>
      rw [if_pos rfl, hAnnounced hPayload, Option.bind_some, parseU64_decimal hLength]
      rfl
  | false =>
      rw [hEmpty hPayload]
      rfl

/-- A plan with further headers is answered alike for `GET` and `HEAD`. -/
theorem answeredAlike_plan {resolved : ResolvedFile} {plan : StaticResponsePlan}
    {source : BodySource} {status : StatusCode} {length : Nat}
    (hSends : PlanSends resolved plan source status length) {headers : HeaderMapPlan}
    (hHeaders : ∀ text, plan.headers.get "content-length" = some text →
      headers.get "content-length" = some text) (hChunk : 0 < chunkSize) :
    AnsweredAlike chunkSize
      (some (responseFromPlan { plan with headers := headers } source false))
      (some (responseFromPlan { withoutBody plan with headers := headers } .empty true)) := by
  have hNew : StatusCode.new (withoutBody plan).status.code = some status := hSends.status_eq
  unfold responseFromPlan
  rw [hNew, hSends.status_eq]
  refine AnsweredAlike.bind _ fun block => ?_
  obtain ⟨hGet, hBare⟩ := planBody_get plan headers source status
  rw [hGet]
  refine answeredAlike_of_length ((preLength_get hBare).trans hSends.body_length)
    (preLength_planBody_head hSends.length_le
      (fun hPayload => hHeaders _ (hSends.announced hPayload)) fun hPayload => ?_)
    (fun _ => hSends.promise chunkSize hChunk) hBare hSends.empty
  have hZero := hSends.body_length
  rw [hSends.empty hPayload] at hZero
  exact (BodyLength.known.inj hZero).symm

theorem answeredAlike_file {ν : Type} {dates : HttpDate} (hDates : WireDates dates)
    (service : StaticService ν) {file : OpenedFile ν} (request : RequestHead)
    (hContent : file.file.content.length = file.metadata.len) (hChunk : 0 < chunkSize) :
    AnsweredAlike chunkSize
        (service.fileResponse dates file .get { request with method := "GET" })
        (service.fileResponse dates file .head { request with method := "HEAD" }) ↔
      MtimePrintable file.metadata service.root.policy.staticMetadata := by
  unfold StaticService.fileResponse
  dsimp only
  rw [plan_head]
  generalize hPlan : planFileResponseWithPreconditionsAndMetadata dates .get file.metadata _ _ _ =
    plan
  rw [← plan_isSome hDates, hPlan]
  cases plan with
  | none => exact iff_of_false not_false nofun
  | some plan =>
      refine iff_of_true ?_ rfl
      obtain ⟨source, status, length, hSends⟩ := planSends hPlan hContent
      have hSource : file.toResolvedFile.intoBody
          { plan with headers := service.appendExtraHeaders plan.headers } = .ok source :=
        hSends.source_eq
      simp only [Option.map_some, Option.bind_eq_bind, Option.bind_some, hSource]
      refine answeredAlike_plan hSends (fun text hText => ?_) hChunk
      exact get_append_headers _ hText

/-! Listings. -/

/-- The header can be sent. -/
def sendable (header : ResponseHeader) : Bool :=
  (HeaderBlock.pushStr [] header.name header.value).isOk

theorem sendable_iff {header : ResponseHeader} :
    sendable header = true ↔ ∃ field, Parses header field := by
  rw [sendable]
  cases hPush : HeaderBlock.pushStr [] header.name header.value with
  | error error =>
      refine iff_of_false Bool.false_ne_true ?_
      rintro ⟨field, hField⟩
      rw [pushStr_eq_ok.mpr ⟨field, hField, rfl⟩] at hPush
      cases hPush
  | ok result =>
      obtain ⟨field, hField, -⟩ := pushStr_eq_ok.mp hPush
      exact iff_of_true rfl ⟨field, hField⟩

theorem all_sendable_iff {fields : List ResponseHeader} :
    fields.all sendable = true ↔ ∃ added, List.Forall₂ Parses fields added := by
  induction fields with
  | nil => exact iff_of_true rfl ⟨[], .nil⟩
  | cons header fields ih =>
      rw [List.all_cons, Bool.and_eq_true, ih, sendable_iff]
      constructor
      · rintro ⟨⟨field, hField⟩, added, hAdded⟩
        exact ⟨field :: added, .cons hField hAdded⟩
      · rintro ⟨added, hAdded⟩
        cases hAdded with
        | cons hField hRest => exact ⟨⟨_, hField⟩, _, hRest⟩

theorem parses_unique {fields : List ResponseHeader} {added others : HeaderBlock}
    (h : List.Forall₂ Parses fields added) (hOthers : List.Forall₂ Parses fields others) :
    added = others := by
  induction h generalizing others with
  | nil =>
      cases hOthers
      rfl
  | cons hField _ ih =>
      cases hOthers with
      | cons hOther hRest => rw [hField.unique hOther, ih hRest]

/-- Dropping a name before parsing is dropping it afterwards. -/
theorem parses_removeHeader {fields : List ResponseHeader} {added : HeaderBlock}
    (h : List.Forall₂ Parses fields added) (name : Str) :
    List.Forall₂ Parses (fields.filter fun header => !eqIgnoreAsciiCase header.name name)
      (removeHeader added name) := by
  induction h with
  | nil => exact .nil
  | @cons header field fields added hField _ ih =>
      rw [removeHeader, List.filter_cons, List.filter_cons, hField.name_is name]
      cases eqIgnoreAsciiCase header.name name with
      | true => exact ih
      | false => exact .cons hField ih

/-- What is kept of a block does not depend on its lengths. -/
theorem kept_removeHeader (headers : HeaderBlock) :
    kept (removeHeader headers "content-length") = kept headers := by
  have hTokens : connectionTokens (removeHeader headers "content-length") =
      connectionTokens headers := by
    have hFilter : (removeHeader headers "content-length").filter (·.name.is "connection") =
        headers.filter (·.name.is "connection") := by
      rw [removeHeader, List.filter_filter]
      refine List.filter_congr fun field _ => ?_
      cases hIs : field.name.is "connection" with
      | false => rfl
      | true =>
          have hOther : field.name.is "content-length" = false := by
            rw [HeaderName.is, eqIgnoreAsciiCase_congr_left hIs]
            decide
          rw [hOther]
          rfl
    rw [connectionTokens, hFilter, connectionTokens]
  rw [kept, hTokens, removeHeader, List.filter_filter, kept]
  refine List.filter_congr fun field _ => ?_
  cases field.name.is "content-length" with
  | true => simp
  | false => simp

theorem normalize_congr_kept {status : StatusCode} {headers others : HeaderBlock}
    (hPayload : status.permitsPayloadBody = true) (hKept : kept headers = kept others)
    (body : ResponseBody) (isHead : Bool) :
    normalizeResponse (builderBody status headers body) isHead =
      normalizeResponse (builderBody status others body) isHead := by
  rw [normalize_builderBody.mpr ⟨framingAccepted_of_payload headers _ hPayload, rfl⟩,
    normalize_builderBody.mpr ⟨framingAccepted_of_payload others _ hPayload, rfl⟩, hKept,
    emittedLength, emittedLength, if_pos hPayload, if_pos hPayload]

/-- The headers that a listing sets itself, apart from its length. -/
def listingOwn : List ResponseHeader :=
  [⟨"content-type", "text/html; charset=utf-8"⟩, ⟨"x-content-type-options", "nosniff"⟩,
    ⟨"content-security-policy", "default-src 'none'; base-uri 'none'; form-action 'none'"⟩,
    ⟨"referrer-policy", "no-referrer"⟩]

def listingSets (name : Str) : Bool :=
  listingOwn.any fun own => eqIgnoreAsciiCase own.name name

def namesLength (header : ResponseHeader) : Bool := eqIgnoreAsciiCase header.name "content-length"

namespace StaticService

variable {ν : Type} (service : StaticService ν)

/-- The document can be sent, all headers but a configured length are valid and
the configured length is not. -/
def lengthBlocksListing (directory : ResolvedDirectory ν) : Bool :=
  (service.listingBytes directory).isOk &&
    service.extraHeaders.all (fun header =>
      listingSets header.name || namesLength header || sendable header) &&
    service.extraHeaders.any fun header => namesLength header && !sendable header

/-- The headers of a listing. The plan for `HEAD` has a length of its own. -/
theorem listing_headers_get (body : List UInt8) :
    (service.appendExtraHeaders (listingPlan body false).headers).headers =
      listingOwn ++ service.extraHeaders.filter fun header => !listingSets header.name := by
  rw [appendExtraHeaders_eq]
  rfl

theorem listing_headers_head (body : List UInt8) :
    (service.appendExtraHeaders (listingPlan body true).headers).headers =
      listingOwn.take 1 ++ ⟨"content-length", decimal body.length⟩ :: listingOwn.drop 1 ++
        service.extraHeaders.filter fun header =>
          !(listingSets header.name || namesLength header) := by
  have hOwn : (listingPlan body true).headers.headers =
      listingOwn.take 1 ++ ⟨"content-length", decimal body.length⟩ :: listingOwn.drop 1 := rfl
  rw [appendExtraHeaders_eq, hOwn]
  dsimp only
  congr 1
  refine List.filter_congr fun header _ => ?_
  simp only [List.any_append, List.any_cons, listingSets, namesLength,
    eqIgnoreAsciiCase_comm header.name]
  rw [← Bool.or_assoc, Bool.or_comm (List.any _ _), Bool.or_assoc, Bool.or_comm, ← List.any_append,
    List.take_append_drop]

theorem listingOwn_sendable : ∀ header ∈ listingOwn, sendable header = true := by decide +kernel

theorem all_sendable_listing_get (body : List UInt8) :
    (service.appendExtraHeaders (listingPlan body false).headers).headers.all sendable =
      service.extraHeaders.all fun header => listingSets header.name || sendable header := by
  have hOwn : listingOwn.all sendable = true := List.all_eq_true.mpr listingOwn_sendable
  rw [listing_headers_get, List.all_append, hOwn, Bool.true_and, List.all_filter]
  simp only [Bool.not_not]

theorem sendable_length (length : Nat) : sendable ⟨"content-length", decimal length⟩ = true := by
  have hPush := mapError_eq_ok.mp (pushContentLength_eq [] length)
  rw [sendable, hPush]
  rfl

theorem all_sendable_listing_head (body : List UInt8) :
    (service.appendExtraHeaders (listingPlan body true).headers).headers.all sendable =
      service.extraHeaders.all fun header =>
        listingSets header.name || namesLength header || sendable header := by
  have hFirst : (listingOwn.take 1).all sendable = true := List.all_eq_true.mpr
    fun header hHeader => listingOwn_sendable header (List.mem_of_mem_take hHeader)
  have hRest : (listingOwn.drop 1).all sendable = true := List.all_eq_true.mpr
    fun header hHeader => listingOwn_sendable header (List.mem_of_mem_drop hHeader)
  rw [listing_headers_head, List.all_append, List.all_append, List.all_cons, hFirst, hRest,
    sendable_length, Bool.true_and, Bool.true_and, Bool.true_and, List.all_filter]
  simp only [Bool.not_not]

/-- Without their lengths the headers for `GET` and `HEAD` are the same. -/
theorem listing_headers_filter (body : List UInt8) :
    ((service.appendExtraHeaders (listingPlan body true).headers).headers.filter
        fun header => !eqIgnoreAsciiCase header.name "content-length") =
      (service.appendExtraHeaders (listingPlan body false).headers).headers.filter
        fun header => !eqIgnoreAsciiCase header.name "content-length" := by
  have hOwn : (listingOwn.take 1 ++ ⟨"content-length", decimal body.length⟩ ::
      listingOwn.drop 1).filter (fun header => !eqIgnoreAsciiCase header.name "content-length") =
      listingOwn.filter fun header => !eqIgnoreAsciiCase header.name "content-length" := rfl
  rw [listing_headers_get, listing_headers_head, List.filter_append listingOwn,
    List.filter_append (listingOwn.take 1 ++ ⟨"content-length", decimal body.length⟩ ::
      listingOwn.drop 1), hOwn, List.filter_filter, List.filter_filter]
  congr 1
  refine List.filter_congr fun header _ => ?_
  rw [namesLength]
  cases eqIgnoreAsciiCase header.name "content-length" with
  | true => rfl
  | false => rw [Bool.or_false]

theorem length_renderLinks {maxBytes : Nat} {entries : List ListingEntry} {html result : Str}
    (hStart : (utf8 html).length + (utf8 listingSuffix).length ≤ maxBytes)
    (h : renderLinks maxBytes entries html = .ok result) :
    (utf8 result).length + (utf8 listingSuffix).length ≤ maxBytes := by
  induction entries generalizing html with
  | nil =>
      obtain rfl := Except.ok.inj h
      exact hStart
  | cons entry entries ih =>
      rw [renderLinks] at h
      split_ifs at h with hOver
      refine ih ?_ h
      rw [utf8_append, List.length_append]
      omega

/-- No listing exceeds its bound. -/
theorem length_renderDirectoryListing {maxBytes : Nat} {entries : List ListingEntry}
    {body : List UInt8} (h : renderDirectoryListing entries maxBytes = .ok body) :
    body.length ≤ maxBytes := by
  rw [renderDirectoryListing] at h
  split_ifs at h with hOver
  obtain ⟨html, hLinks, h⟩ := bind_eq_ok.mp h
  obtain rfl := Except.ok.inj h
  rw [utf8_append, List.length_append]
  exact length_renderLinks (Nat.not_lt.mp hOver) hLinks

/-- A listing that parses for both methods is answered alike. -/
theorem answeredAlike_listing_parsed {body : List UInt8} {get head : HeaderBlock}
    (hLength : body.length ≤ u64Max)
    (hGet : List.Forall₂ Parses
      (service.appendExtraHeaders (listingPlan body false).headers).headers get)
    (hHead : List.Forall₂ Parses
      (service.appendExtraHeaders (listingPlan body true).headers).headers head) :
    AnsweredAlike chunkSize
      (some (constructed (normalizeResponse (builderBody .ok get (.bytes body)) false)))
      (some (constructed (normalizeResponse (builderBody .ok head
        (planBody { listingPlan body true with
          headers := service.appendExtraHeaders (listingPlan body true).headers } .empty .ok true))
        true))) := by
  have hKept : kept head = kept get := by
    have hGetRest := parses_removeHeader hGet "content-length"
    have hHeadRest := parses_removeHeader hHead "content-length"
    rw [listing_headers_filter] at hHeadRest
    rw [← kept_removeHeader head, ← kept_removeHeader get, parses_unique hHeadRest hGetRest]
  rw [normalize_congr_kept (by decide) hKept]
  refine answeredAlike_of_length rfl ?_ (fun _ => trivial) (fun _ => nofun) fun h =>
    absurd h (by decide)
  refine @preLength_planBody_head (listingPlan body true) _ _ _ hLength (fun _ => ?_) fun h =>
    absurd h (by decide)
  rw [appendExtraHeaders_eq]
  exact get_append_headers _ rfl

theorem length_listingBytes {directory : ResolvedDirectory ν} {body : List UInt8}
    (h : service.listingBytes directory = .ok body) : body.length ≤ u64Max := by
  obtain ⟨entries, -, hRender⟩ := bind_eq_ok.mp h
  exact (length_renderDirectoryListing hRender).trans service.maxListingResponseBytes_le

/-- A list with a header that is not valid is refused. -/
theorem builderHeaders_error {fields : List ResponseHeader} (h : fields.all sendable = false) :
    ∃ error, builderHeaders [] fields = .error error := by
  cases hBuilt : builderHeaders [] fields with
  | error error => exact ⟨error, rfl⟩
  | ok result =>
      obtain ⟨added, hAdded, -⟩ := builderHeaders_eq_ok.mp hBuilt
      rw [all_sendable_iff.mpr ⟨added, hAdded⟩] at h
      cases h

/-- The headers for `GET` are all valid exactly when those for `HEAD` are and
every configured length is. -/
theorem all_sendable_get_eq (body : List UInt8) :
    (service.appendExtraHeaders (listingPlan body false).headers).headers.all sendable =
      ((service.appendExtraHeaders (listingPlan body true).headers).headers.all sendable &&
        !service.extraHeaders.any fun header => namesLength header && !sendable header) := by
  have hNot : ∀ header : ResponseHeader, namesLength header = true →
      listingSets header.name = false := by
    intro header hName
    have hNone : listingSets "content-length" = false := by decide
    simp only [listingSets, eqIgnoreAsciiCase_congr_right hName] at hNone ⊢
    exact hNone
  rw [all_sendable_listing_get, all_sendable_listing_head]
  induction service.extraHeaders with
  | nil => rfl
  | cons header extras ih =>
      rw [List.all_cons, List.all_cons, List.any_cons, ih]
      cases hName : namesLength header with
      | false => simp [Bool.and_assoc]
      | true =>
          rw [hNot header hName]
          cases sendable header with
          | false => simp
          | true => simp

/-- The plan of a listing with the configured headers. -/
def sentListing (body : List UInt8) (isHead : Bool) : StaticResponsePlan :=
  { listingPlan body isHead with
    headers := service.appendExtraHeaders (listingPlan body isHead).headers }

theorem directoryResponse_sent (hEnabled : service.root.policy.directoryListing = .enabled)
    {directory : ResolvedDirectory ν} {body : List UInt8}
    (hBytes : service.listingBytes directory = .ok body) (isHead : Bool) :
    service.directoryResponse directory (readOnlyMethod isHead) =
      (constructed (builderHeaders [] (service.sentListing body isHead).headers.headers) >>=
        fun headers => constructed (normalizeResponse (builderBody .ok headers
          (planBody (service.sentListing body isHead) .empty .ok isHead)) isHead)) := by
  rw [directoryResponse_of_enabled service hEnabled, hBytes]
  rfl

/-- A listing is answered alike unless only `GET` fails on a configured length. -/
theorem answeredAlike_listing (hEnabled : service.root.policy.directoryListing = .enabled)
    (directory : ResolvedDirectory ν) :
    AnsweredAlike chunkSize (some (service.directoryResponse directory (readOnlyMethod false)))
        (some (service.directoryResponse directory (readOnlyMethod true))) ↔
      service.lengthBlocksListing directory = false := by
  rw [lengthBlocksListing]
  cases hBytes : service.listingBytes directory with
  | error error =>
      rw [directoryResponse_of_enabled service hEnabled,
        directoryResponse_of_enabled service hEnabled, hBytes]
      exact iff_of_true trivial rfl
  | ok body =>
      have hAll := service.all_sendable_get_eq body
      rw [← service.all_sendable_listing_head body, directoryResponse_sent service hEnabled hBytes,
        directoryResponse_sent service hEnabled hBytes]
      change (service.sentListing body false).headers.headers.all sendable =
        ((service.sentListing body true).headers.headers.all sendable && _) at hAll
      change _ ↔ (true && (service.sentListing body true).headers.headers.all sendable && _) = _
      cases hSome : (service.sentListing body true).headers.headers.all sendable with
      | false =>
          rw [hSome, Bool.false_and] at hAll
          obtain ⟨error, hError⟩ := builderHeaders_error hAll
          obtain ⟨other, hOther⟩ := builderHeaders_error hSome
          rw [hError, hOther]
          exact iff_of_true trivial rfl
      | true =>
          obtain ⟨head, hHeads⟩ := all_sendable_iff.mp hSome
          have hBuilt := builderHeaders_eq_ok.mpr ⟨head, hHeads, List.nil_append head⟩
          rw [hSome, Bool.true_and] at hAll
          rw [hBuilt]
          cases hLength : service.extraHeaders.any
              fun header => namesLength header && !sendable header with
          | true =>
              rw [hLength] at hAll
              obtain ⟨error, hError⟩ := builderHeaders_error hAll
              rw [hError]
              refine iff_of_false (fun hAlike => ?_) (by decide)
              obtain ⟨_, hNormalized⟩ : ∃ response, normalizeResponse (builderBody .ok head
                  (planBody (service.sentListing body true) .empty .ok true)) true =
                    .ok response :=
                ⟨_, normalize_builderBody.mpr
                  ⟨framingAccepted_of_payload head _ (by decide), rfl⟩⟩
              change AnsweredAlike chunkSize (some (.error _)) (some (constructed _)) at hAlike
              rw [hNormalized] at hAlike
              exact hAlike
          | false =>
              rw [hLength] at hAll
              obtain ⟨get, hGets⟩ := all_sendable_iff.mp hAll
              have hBuiltGet := builderHeaders_eq_ok.mpr ⟨get, hGets, List.nil_append get⟩
              rw [hBuiltGet]
              refine iff_of_true ?_ rfl
              exact service.answeredAlike_listing_parsed (service.length_listingBytes hBytes)
                hGets hHeads

/-- A file has to be of a time that can be printed, and no configured length may
block a listing. -/
def MirrorsOn : Route ν → Prop
  | .file file => MtimePrintable file.metadata service.root.policy.staticMetadata
  | .listing directory => service.lengthBlocksListing directory = false
  | .redirect | .error _ _ _ | .failure => True

/-- What the two methods share is the route. -/
theorem route_head (request : RequestHead) :
    route service.root { request with method := "HEAD" } =
      route service.root { request with method := "GET" } := rfl

theorem answeredAlike_iff {dates : HttpDate} (hDates : WireDates dates) (request : RequestHead)
    (hSized : ∀ file, route service.root { request with method := "GET" } = .file file →
      file.file.content.length = file.metadata.len) (hChunk : 0 < chunkSize) :
    AnsweredAlike chunkSize (service.respond dates { request with method := "GET" })
        (service.respond dates { request with method := "HEAD" }) ↔
      service.MirrorsOn (route service.root { request with method := "GET" }) := by
  rw [respond_eq, respond_eq, route_head]
  cases hRoute : route service.root { request with method := "GET" } with
  | file file => exact answeredAlike_file hDates service request (hSized file hRoute) hChunk
  | listing directory => exact service.answeredAlike_listing (route_listing hRoute) directory
  | redirect => exact iff_of_true (answeredAlike_redirect request.target) trivial
  | error status text methodNotAllowed =>
      exact iff_of_true (answeredAlike_error service status text methodNotAllowed
        (route_error_payload hRoute)) trivial
  | failure => exact iff_of_true trivial trivial

/-- `HEAD` is answered like `GET` exactly when the file that answers, if it is a
file, is of a time that can be printed, and the listing that answers, if it is a
listing, is not blocked by a configured length. -/
theorem mirrorsGet_iff (dates : HttpDate) (hDates : WireDates dates) (service : StaticService ν)
    (request : RequestHead)
    (hSized : ∀ file, route service.root { request with method := "GET" } = .file file →
      file.file.content.length = file.metadata.len) :
    service.MirrorsGet dates request ↔
      service.MirrorsOn (route service.root { request with method := "GET" }) := by
  constructor
  · intro hMirrors
    exact (service.answeredAlike_iff hDates request hSized Nat.one_pos).mp (hMirrors 1 Nat.one_pos)
  · intro hOn chunkSize hChunk
    exact (service.answeredAlike_iff hDates request hSized hChunk).mpr hOn

end StaticService

/-- The same root with listings. -/
def listingService (extras : List (Str × Str)) : StaticService Nat where
  root := .onTree docsTree docsRoot { directoryListing := .enabled }
  extraResponseHeaders := extras
  maxListingResponseBytes_le := defaultListingBytes_le

theorem route_listingService (extras : List (Str × Str)) :
    route (listingService extras).root (docsRequest "/docs/") =
      .listing { dirFd := 1, canonicalPath := "/srv/docs", components := ["docs"]
                 rejectBackslash := true } := by
  rfl

/-- A listing with a configured length that can be sent. -/
theorem mirrorsGet_iff_listing :
    (listingService [("Content-Length", "7")]).MirrorsGet sampleDates (docsRequest "/docs/") := by
  have hRoute := route_listingService [("Content-Length", "7")]
  refine (StaticService.mirrorsGet_iff sampleDates sampleDates_wire _ _ fun file hFile => ?_).mpr ?_
  · cases hRoute.symm.trans hFile
  · change StaticService.MirrorsOn _ (route _ (docsRequest "/docs/"))
    rw [hRoute]
    change StaticService.lengthBlocksListing _ _ = false
    decide +kernel

/-- `GET` fails alone. -/
theorem not_mirrorsGet {ν : Type} {dates : HttpDate} {service : StaticService ν}
    {request : RequestHead}
    (hGet : (service.respond dates { request with method := "GET" }).map Except.isOk = some false)
    (hHead : (service.respond dates { request with method := "HEAD" }).map Except.isOk =
      some true) : ¬service.MirrorsGet dates request := by
  intro hMirrors
  have hAlike := hMirrors 1 Nat.one_pos
  obtain ⟨get, hGetSome, hGet⟩ := Option.map_eq_some_iff.mp hGet
  obtain ⟨head, hHeadSome, hHead⟩ := Option.map_eq_some_iff.mp hHead
  rw [hGetSome, hHeadSome] at hAlike
  cases get with
  | ok get => cases hGet
  | error error =>
      cases head with
      | error error => cases hHead
      | ok head => exact hAlike

/-- With a configured length that is not valid, `GET` fails on a listing and
`HEAD` is answered. -/
theorem invalid_length_fails_get :
    ¬(listingService [("Content-Length", "\n")]).MirrorsGet sampleDates (docsRequest "/docs/") :=
  not_mirrorsGet (by decide +kernel) (by decide +kernel)

end Eggserve.Static
