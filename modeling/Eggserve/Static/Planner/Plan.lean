import Eggserve.Static.Planner.Range
import Eggserve.Static.Planner.Validators

/-! The response planner for static files: a pure function from metadata and
request headers to a plan. -/
namespace Eggserve.Static
open Rust Eggserve.Primitives

/-- The request headers the planner reads. -/
structure RequestConditions where
  ifMatch : Option Str := none
  ifUnmodifiedSince : Option Str := none
  ifNoneMatch : Option Str := none
  ifModifiedSince : Option Str := none
  rangeHeader : Option Str := none
  ifRange : Option Str := none

def buildPreconditionFailed : StaticResponsePlan where
  status := .preconditionFailed
  headers := HeaderMapPlan.new.push "content-length" "0"
  body := .empty

def buildNotModified (headers : HeaderMapPlan) : StaticResponsePlan where
  status := .notModified
  headers := headers
  body := .empty

def buildFullResponse (method : ReadOnlyMethod) (len : Nat) (contentType : Str)
    (etag lastModified : Option Str) : StaticResponsePlan where
  status := .ok
  headers := (((((HeaderMapPlan.new.push "content-length" (decimal len)).push
    "content-type" contentType).push
    "accept-ranges" "bytes").push
    "x-content-type-options" "nosniff").pushSome
    "last-modified" lastModified).pushSome
    "etag" etag
  body := if method = .head then .empty else .fileFull

/-- `format!("bytes {}-{}/{}", start, end, size)`. -/
def contentRange (start endInclusive size : Nat) : Str :=
  "bytes ".toList ++ decimal start ++ '-' :: decimal endInclusive ++ '/' :: decimal size

def buildRangeResponse (method : ReadOnlyMethod) (range : FileRange) (fileSize : Nat)
    (contentType : Str) (etag lastModified : Option Str) : StaticResponsePlan where
  status := .partialContent
  headers := ((((((HeaderMapPlan.new.push "content-length" (decimal range.len)).push
    "content-type" contentType).push
    "accept-ranges" "bytes").push
    "content-range" (contentRange range.start range.endInclusive fileSize)).push
    "x-content-type-options" "nosniff").pushSome
    "last-modified" lastModified).pushSome
    "etag" etag
  body := if method = .head then .empty else .fileRange range.start range.endInclusive

def buildNotRangeSatisfiable (fileSize : Nat) : StaticResponsePlan where
  status := .notRangeSatisfiable
  headers := ((HeaderMapPlan.new.push "content-length" "0").push "accept-ranges" "bytes").push
    "content-range" ("bytes */".toList ++ decimal fileSize)
  body := .empty

section Planner
variable (dates : HttpDate)

/-- The lost-update preconditions. `If-Unmodified-Since` counts only without
`If-Match`. -/
def lostUpdateFails (etag lastModified : Option Str) (request : RequestConditions) : Bool :=
  match request.ifMatch with
  | some ifm =>
      if trim ifm = "*" then false
      else !match etag with
        | some current => evaluateIfMatch ifm (some current)
        | none => false
  | none =>
      match request.ifUnmodifiedSince with
      | some ius => datesCompare dates (· > ·) lastModified ius
      | none => false

/-- A range stands unless `If-Range` is there and withdraws it. -/
def rangeAllowed (etag lastModified : Option Str) (request : RequestConditions) : Bool :=
  match request.ifRange with
  | some ifRange => ifRangeAllowsRange dates ifRange etag lastModified
  | none => true

/-- The last step: the range outcome, unless `If-Range` withdraws the range. -/
def planRange (method : ReadOnlyMethod) (metadata : Metadata) (contentType : Str)
    (etag lastModified : Option Str) (request : RequestConditions) :
    MayPanic StaticResponsePlan :=
  let full := buildFullResponse method metadata.len contentType etag lastModified
  let allowed := rangeAllowed dates etag lastModified request
  match request.rangeHeader with
  | none => some full
  | some range =>
      (evaluateRangeHeader range metadata.len).map fun outcome =>
        match outcome with
        | .satisfiable fileRange =>
            if allowed then
              buildRangeResponse method fileRange metadata.len contentType etag lastModified
            else full
        | .notSatisfiable => if allowed then buildNotRangeSatisfiable metadata.len else full
        | _ => full

/-- The whole decision procedure over already derived validators. -/
def planWithValidators (method : ReadOnlyMethod) (metadata : Metadata) (contentType : Str)
    (etag lastModified : Option Str) (request : RequestConditions) :
    MayPanic StaticResponsePlan :=
  if lostUpdateFails dates etag lastModified request then some buildPreconditionFailed
  else
    match evaluateCacheValidation dates etag lastModified request.ifNoneMatch
        request.ifModifiedSince with
    | some headers => some (buildNotModified headers)
    | none => planRange dates method metadata contentType etag lastModified request

def planFileResponseWithPreconditionsAndMetadata (method : ReadOnlyMethod) (metadata : Metadata)
    (contentType : Str) (request : RequestConditions) (policy : StaticMetadataPolicy) :
    MayPanic StaticResponsePlan := do
  let etag := if policy.emitEtag then generateEtag metadata else none
  let lastModified ← lastModifiedStr dates metadata policy
  planWithValidators dates method metadata contentType etag lastModified request

/-- A 304 carries the validators and nothing else. -/
theorem evaluateCacheValidation_eq_some {dates : HttpDate}
    {etag lastModified ifNoneMatch ifModifiedSince : Option Str} {headers : HeaderMapPlan}
    (h : evaluateCacheValidation dates etag lastModified ifNoneMatch ifModifiedSince =
      some headers) :
    headers = (HeaderMapPlan.new.pushSome "etag" etag).pushSome "last-modified" lastModified := by
  unfold evaluateCacheValidation at h
  cases etag with
  | none =>
      cases ifNoneMatch with
      | some inm =>
          dsimp only at h
          split_ifs at h
          exact (Option.some.inj h).symm
      | none =>
          cases ifModifiedSince with
          | none => cases h
          | some ims =>
              dsimp only at h
              split_ifs at h
              exact (Option.some.inj h).symm
  | some current =>
      unfold evaluateConditionalHeaders at h
      cases ifNoneMatch with
      | some inm =>
          dsimp only at h
          cases hMatch : evaluateIfNoneMatch inm current with
          | true =>
              rw [hMatch] at h
              exact (Option.some.inj h).symm
          | false =>
              rw [hMatch] at h
              cases h
      | none =>
          cases ifModifiedSince with
          | none => cases h
          | some ims =>
              dsimp only at h
              cases hDate : dates.parseHttpDate ims with
              | none => simp [hDate] at h
              | some time =>
                  rw [hDate] at h
                  cases hNewer : datesCompare dates (· ≤ ·) lastModified ims with
                  | true =>
                      simp only [hNewer] at h
                      exact (Option.some.inj h).symm
                  | false => simp [hNewer] at h

/-- Everything a plan can be. A partial response comes from a satisfiable
range; a full one is the fallback. -/
theorem plan_cases {dates : HttpDate} {method : ReadOnlyMethod} {metadata : Metadata}
    {contentType : Str} {request : RequestConditions} {policy : StaticMetadataPolicy}
    {plan : StaticResponsePlan}
    (h : planFileResponseWithPreconditionsAndMetadata dates method metadata contentType request
      policy = some plan) :
    plan = buildPreconditionFailed ∨
      (∃ etag lastModified, plan = buildNotModified
        ((HeaderMapPlan.new.pushSome "etag" etag).pushSome "last-modified" lastModified)) ∨
      plan = buildNotRangeSatisfiable metadata.len ∨
      ∃ etag lastModified,
        plan = buildFullResponse method metadata.len contentType etag lastModified ∨
        ∃ header range, evaluateRangeHeader header metadata.len = some (.satisfiable range) ∧
          plan = buildRangeResponse method range metadata.len contentType etag lastModified := by
  simp only [planFileResponseWithPreconditionsAndMetadata, Option.bind_eq_bind,
    Option.bind_eq_some_iff] at h
  obtain ⟨lastModified, _, h⟩ := h
  generalize (if policy.emitEtag then generateEtag metadata else none) = etag at h
  rw [planWithValidators] at h
  split at h
  · exact .inl (Option.some.inj h).symm
  split at h
  · rename_i headers hHeaders
    refine .inr (.inl ⟨etag, lastModified, ?_⟩)
    rw [← evaluateCacheValidation_eq_some hHeaders]
    exact (Option.some.inj h).symm
  right; right
  simp only [planRange] at h
  split at h
  · exact .inr ⟨etag, lastModified, .inl (Option.some.inj h).symm⟩
  · obtain ⟨outcome, hOutcome, h⟩ := Option.map_eq_some_iff.mp h
    split at h
    · split at h
      · exact .inr ⟨etag, lastModified, .inr ⟨_, _, hOutcome, h.symm⟩⟩
      · exact .inr ⟨etag, lastModified, .inl h.symm⟩
    · split at h
      · exact .inl h.symm
      · exact .inr ⟨etag, lastModified, .inl h.symm⟩
    · exact .inr ⟨etag, lastModified, .inl h.symm⟩

end Planner

theorem buildRangeResponse_headers (method : ReadOnlyMethod) (range : FileRange) (fileSize : Nat)
    (contentType : Str) (etag lastModified : Option Str) :
    let plan := buildRangeResponse method range fileSize contentType etag lastModified
    plan.headers.get "content-length" = some (decimal range.len) ∧
      plan.headers.get "content-range" =
        some (contentRange range.start range.endInclusive fileSize) := by
  constructor <;> refine HeaderMapPlan.get_pushSome _ _ (HeaderMapPlan.get_pushSome _ _ ?_)
  · simp only [HeaderMapPlan.get_push]
    rfl
  · simp only [HeaderMapPlan.get_push]
    rfl

theorem buildFullResponse_contentLength (method : ReadOnlyMethod) (len : Nat) (contentType : Str)
    (etag lastModified : Option Str) :
    (buildFullResponse method len contentType etag lastModified).headers.get "content-length" =
      some (decimal len) := by
  refine HeaderMapPlan.get_pushSome _ _ (HeaderMapPlan.get_pushSome _ _ ?_)
  simp only [HeaderMapPlan.get_push]
  rfl

end Eggserve.Static
