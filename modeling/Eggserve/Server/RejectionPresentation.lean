import Eggserve.Primitives.Canonical.Renormalize
import Eggserve.Server.FinalizeCanonical
import Eggserve.Server.HopByHop

/-! Rejections that the application presents. The runtime selects the status and owns the
framing; the application supplies headers and a body within limits, and what does not
fit is replaced by the fixed representation of the error. -/
namespace Eggserve.Server
open Rust Eggserve.Primitives Eggserve.Static

inductive RuntimeRejectionKind where
  | requestTargetTooLong
  | requestHeadersTooLarge
  | requestBodyRejected
  | requestBodyTooLarge
  | requestBodyTimeout
  | serviceAdmissionSaturated
  | tunnelAdmissionSaturated
  | handlerTimeout
  | servicePanic
  | serviceRejected
  | internal
  deriving DecidableEq, Repr

structure RuntimeRejection where
  kind : RuntimeRejectionKind
  status : StatusCode
  deriving DecidableEq

structure RuntimeErrorPresentation where
  headers : HeaderBlock
  body : List UInt8

/-- A presenter may panic, and it may leave the rejection to the runtime. -/
abbrev RuntimeRejectionPresenter := RuntimeRejection → MayPanic (Option RuntimeErrorPresentation)

def maxRuntimeRejectionBodyBytes : Nat := 64 * 1024

/-- A response whose body is in memory, as the transport takes it. -/
structure MemoryResponse where
  status : StatusCode
  headers : HyperHeaders
  body : List UInt8
  deriving DecidableEq

/-- The octets of a body that is in memory. -/
def memoryBytes : Option ResponseBody → List UInt8
  | some (.bytes bytes) => bytes
  | _ => []

/-- `runtime_error_with_policy` of the server: the canonical error, normalized and
converted, both of which are expected to succeed. -/
def hyperRuntimeErrorWithPolicy (status : StatusCode) (isHead : Bool)
    (policy : ErrorRepresentationPolicy) : MayPanic MemoryResponse := do
  let normalized ←
    (normalizeResponse (runtimeErrorWithPolicy status isHead policy) isHead).toOption
  let response ← (toHyperResponse normalized true).toOption
  return ⟨response.status, response.headers, memoryBytes response.body⟩

/-- The answer with the headers that were taken over, framed for the status. -/
def frameRejection (status : StatusCode) (isHead : Bool) (headers : HeaderBlock)
    (body : List UInt8) : MemoryResponse :=
  let bodyAllowed := !isHead && status.permitsPayloadBody
  let representationLen := body.length
  let headers := (hyperHeaders headers).remove "content-length"
  { status
    headers :=
      if status.code ≠ 204 && status.code ≠ 205 &&
          (status.code ≠ 304 || 0 < representationLen) then
        let length := if isHead || bodyAllowed then representationLen else 0
        match hyperFromStr (decimal length) with
        | some value => headers.insert "content-length" value
        | none => headers
      else headers
    body := if bodyAllowed then body else [] }

def presentRuntimeRejection (status : StatusCode) (kind : RuntimeRejectionKind) (isHead : Bool)
    (presenter : Option RuntimeRejectionPresenter) (policy : ErrorRepresentationPolicy) :
    MayPanic MemoryResponse :=
  let fallback := hyperRuntimeErrorWithPolicy status isHead policy
  match presenter with
  | none => fallback
  | some present =>
      match present ⟨kind, status⟩ with
      | some (some presentation) =>
          if presentation.body.length > maxRuntimeRejectionBodyBytes then fallback
          else
            match presentedHeaders presentation.headers with
            | some headers => some (frameRejection status isHead headers presentation.body)
            | none => fallback
      | _ => fallback

/-! The rule. -/

/-- The responses have the same status and body, and the same values under every name. -/
structure MemoryResponse.Same (response other : MemoryResponse) : Prop where
  status : response.status = other.status
  headers : ∀ name, response.headers.getAll name = other.headers.getAll name
  body : response.body = other.body

/-- The presented fields that the runtime does not own. -/
def applicationFields (headers : HeaderBlock) : HeaderBlock :=
  headers.filter fun field => !presentationIgnores field.name.text

/-- The response carries the whole presentation, within the limits. Its length is that of
the body that `GET` is sent; it is announced whenever there is one, and never under a
status that has none. -/
structure CarriesPresentation (status : StatusCode) (presentation : RuntimeErrorPresentation)
    (response get : MemoryResponse) : Prop where
  selected : response.status = status
  values : ∀ name, presentationIgnores name = false →
    response.headers.getAll name = (hyperHeaders presentation.headers).getAll name
  count : (applicationFields presentation.headers).length ≤ 64
  bytes : fieldBytes (applicationFields presentation.headers) ≤ 16 * 1024
  single : (response.headers.getAll "content-length").length ≤ 1
  length : ∀ value ∈ response.headers.getAll "content-length",
    value = utf8 (decimal get.body.length)
  announced : get.body ≠ [] → response.headers.getAll "content-length" ≠ []
  absent : status.code = 204 ∨ status.code = 205 →
    response.headers.getAll "content-length" = []

/-- What the presenter offers for the rejection. -/
def Presents (presenter : Option RuntimeRejectionPresenter) (rejection : RuntimeRejection)
    (presentation : RuntimeErrorPresentation) : Prop :=
  ∃ present, presenter = some present ∧ present rejection = some (some presentation)

/-- The answer is the fallback, or carries all that was presented. -/
def AllOrFallback (status : StatusCode) (kind : RuntimeRejectionKind) (isHead : Bool)
    (presenter : Option RuntimeRejectionPresenter) (policy : ErrorRepresentationPolicy) : Prop :=
  ∃ response, presentRuntimeRejection status kind isHead presenter policy = some response ∧
    ((∃ fallback, hyperRuntimeErrorWithPolicy status isHead policy = some fallback ∧
        response.Same fallback) ∨
      ∃ presentation get, Presents presenter ⟨kind, status⟩ presentation ∧
        presentRuntimeRejection status kind false presenter policy = some get ∧
        CarriesPresentation status presentation response get)

/-- The presentation is within the limits, as far as it is looked at. -/
def Accepted (presentation : RuntimeErrorPresentation) : Prop :=
  presentation.body.length ≤ maxRuntimeRejectionBodyBytes ∧
    presentationFits presentation.headers = true

/-- No field behind those that the loop looks at is one of the application. -/
def NothingBehind (headers : HeaderBlock) : Prop :=
  ∀ field ∈ headers.drop 65, presentationIgnores field.name.text = true

/-- `HEAD` announces a length that `GET` is not sent. -/
def LengthUnsent (status : StatusCode) (isHead : Bool) (body : List UInt8) : Prop :=
  isHead = true ∧ status.permitsPayloadBody = false ∧ status.code ≠ 204 ∧ status.code ≠ 205 ∧
    body ≠ []

/-- What is taken over of the presentation spells out the fallback. -/
structure SpellsFallback (status : StatusCode) (isHead : Bool) (policy : ErrorRepresentationPolicy)
    (presentation : RuntimeErrorPresentation) : Prop where
  final : status.isInformational = false
  values : ∀ name, (hyperHeaders (presentedFields presentation.headers)).getAll name =
    (hyperHeaders (runtimeErrorWithPolicy status isHead policy).headers).getAll name
  body : status.code ≠ 204 → status.code ≠ 205 →
    presentation.body = memoryBytes (runtimeErrorWithPolicy status isHead policy).body

/-! The fields of a framed answer. -/

theorem presentationIgnores_congr {a b : Str} (h : eqIgnoreAsciiCase a b = true) :
    presentationIgnores a = presentationIgnores b := by
  have hLower : a.map Char.toLower = b.map Char.toLower := by
    simpa [eqIgnoreAsciiCase] using h
  simp only [presentationIgnores, hLower]

/-- Under a name that the runtime does not own, nothing is filtered out. -/
theorem getAll_filter_kept (headers : HeaderBlock) {name : Str}
    (hName : presentationIgnores name = false) :
    (hyperHeaders (headers.filter fun field => !presentationIgnores field.name.text)).getAll name =
      (hyperHeaders headers).getAll name := by
  rw [hyperHeaders_filter headers fun name => !presentationIgnores name, HyperHeaders.getAll,
    List.filter_filter, HyperHeaders.getAll]
  congr 1
  refine List.filter_congr fun field _ => ?_
  cases hField : eqIgnoreAsciiCase field.name name with
  | false => rfl
  | true =>
      rw [presentationIgnores_congr hField, hName]
      rfl

theorem getAll_filter_ignored (headers : HeaderBlock) {name : Str}
    (hName : presentationIgnores name = true) :
    (hyperHeaders (headers.filter fun field => !presentationIgnores field.name.text)).getAll name =
      [] := by
  refine HyperHeaders.getAll_hyperHeaders_eq_nil fun field hField => ?_
  have hKept := (List.mem_filter.mp hField).2
  cases hIs : field.name.is name with
  | false => rfl
  | true =>
      rw [presentationIgnores_congr hIs, hName] at hKept
      cases hKept

/-- The length that the answer announces. -/
def rejectionLength (status : StatusCode) (isHead : Bool) (body : List UInt8) : Option Nat :=
  if status.code ≠ 204 && status.code ≠ 205 && (status.code ≠ 304 || 0 < body.length) then
    some (if isHead || status.permitsPayloadBody then body.length else 0)
  else none

theorem hyperFromStr_decimal (n : Nat) : hyperFromStr (decimal n) = some (utf8 (decimal n)) := by
  refine if_pos (List.all_eq_true.mpr fun b hb => ?_)
  have hDigit := mem_utf8_decimal hb
  have hLow : 32 ≤ b := UInt8.le_iff_toNat_le.mpr (by simpa using (by omega : 32 ≤ b.toNat))
  have hHigh : b < 127 := UInt8.lt_iff_toNat_lt.mpr (by simpa using (by omega : b.toNat < 127))
  simp [isVisibleAscii, hLow, hHigh]

theorem HyperHeaders.remove_remove (headers : HyperHeaders) (name : Str) :
    (headers.remove name).remove name = headers.remove name := by
  simp [HyperHeaders.remove]

/-- Nothing is left under a name that was removed. -/
theorem HyperHeaders.getAll_remove_same (headers : HyperHeaders) {name other : Str}
    (h : eqIgnoreAsciiCase other name = true) : (headers.remove other).getAll name = [] := by
  rw [HyperHeaders.getAll, HyperHeaders.remove, List.map_eq_nil_iff, List.filter_eq_nil_iff]
  intro field hField hName
  have hRemoved := (List.mem_filter.mp hField).2
  rw [eqIgnoreAsciiCase_congr_left hName, eqIgnoreAsciiCase_comm, h] at hRemoved
  cases hRemoved

/-- The field that announces a length. -/
def lengthField (length : Option Nat) : HyperHeaders :=
  ((length.map fun length => utf8 (decimal length)).map (HyperField.mk "content-length")).toList

/-- Fields without a length, and a length behind them. -/
theorem getAll_append_lengthField {headers : HyperHeaders}
    (hNone : ∀ name, eqIgnoreAsciiCase ("content-length" : String) name = true →
      headers.getAll name = []) (length : Option Nat) (name : Str) :
    HyperHeaders.getAll (headers ++ lengthField length) name =
      if eqIgnoreAsciiCase ("content-length" : String) name then
        (length.map fun length => utf8 (decimal length)).toList
      else headers.getAll name := by
  rw [HyperHeaders.getAll_append, lengthField, getAll_optional]
  cases hName : eqIgnoreAsciiCase ("content-length" : String) name with
  | true =>
      rw [hNone name hName]
      rfl
  | false => exact List.append_nil _

theorem frameRejection_headers (status : StatusCode) (isHead : Bool) (headers : HeaderBlock)
    (body : List UInt8) :
    (frameRejection status isHead headers body).headers =
      (hyperHeaders headers).remove "content-length" ++
        lengthField (rejectionLength status isHead body) := by
  have hAllowed : (isHead || !isHead && status.permitsPayloadBody) =
      (isHead || status.permitsPayloadBody) := by
    cases isHead <;> rfl
  unfold frameRejection rejectionLength
  simp only [hyperFromStr_decimal, hAllowed]
  by_cases hAnnounced : (status.code ≠ 204 && status.code ≠ 205 &&
      (status.code ≠ 304 || 0 < body.length)) = true
  · rw [if_pos hAnnounced, if_pos hAnnounced, HyperHeaders.insert, HyperHeaders.remove_remove]
    rfl
  · rw [if_neg hAnnounced, if_neg hAnnounced]
    exact (List.append_nil _).symm

theorem getAll_frameRejection (status : StatusCode) (isHead : Bool) (headers : HeaderBlock)
    (body : List UInt8) (name : Str) :
    (frameRejection status isHead headers body).headers.getAll name =
      if eqIgnoreAsciiCase ("content-length" : String) name then
        ((rejectionLength status isHead body).map fun length => utf8 (decimal length)).toList
      else (hyperHeaders headers).getAll name := by
  rw [frameRejection_headers, getAll_append_lengthField fun name hName =>
    HyperHeaders.getAll_remove_same _ hName]
  cases hName : eqIgnoreAsciiCase ("content-length" : String) name with
  | true => rfl
  | false => exact HyperHeaders.getAll_remove hName

/-! The fallback. -/

/-- The error has no field that is for one hop only, and none that is framing. -/
theorem kept_runtimeError (status : StatusCode) (isHead : Bool)
    (policy : ErrorRepresentationPolicy) :
    kept (runtimeErrorWithPolicy status isHead policy).headers =
        (runtimeErrorWithPolicy status isHead policy).headers ∧
      (stripHopByHop (runtimeErrorWithPolicy status isHead policy).headers).getAll
        "content-length" = [] := by
  cases policy with
  | minimal =>
      by_cases hAllow : status.code = 405
      · simp only [runtimeErrorWithPolicy, hAllow, ↓reduceIte]
        decide +kernel
      · simp only [runtimeErrorWithPolicy, hAllow, ↓reduceIte]
        decide +kernel
  | empty =>
      by_cases hAllow : status.code = 405
      · simp only [runtimeErrorWithPolicy, hAllow, ↓reduceIte]
        decide +kernel
      · simp only [runtimeErrorWithPolicy, hAllow, ↓reduceIte]
        decide +kernel

/-- The body of the error is empty or in memory, and empty where none is allowed. -/
theorem body_runtimeError (status : StatusCode) (isHead : Bool)
    (policy : ErrorRepresentationPolicy) :
    (runtimeErrorWithPolicy status isHead policy).body = some .empty ∨
      isHead = false ∧ status.permitsPayloadBody = true ∧
        ∃ bytes, (runtimeErrorWithPolicy status isHead policy).body = some (.bytes bytes) := by
  unfold runtimeErrorWithPolicy
  dsimp only
  split_ifs with hEmpty
  · exact .inl rfl
  · simp only [not_or] at hEmpty
    exact .inr ⟨by simpa using hEmpty.2.1, by simpa using hEmpty.2.2.1, _, rfl⟩

/-- A body that is in memory passes through suppression as far as it is sent. -/
theorem suppressBody_runtimeError {status : StatusCode} {isHead : Bool} {body : Option ResponseBody}
    (hBody : body = some .empty ∨
      isHead = false ∧ status.permitsPayloadBody = true ∧ ∃ bytes, body = some (.bytes bytes)) :
    memoryBytes (suppressBody status isHead body) = memoryBytes body ∧
      (∀ source, suppressBody status isHead body ≠ some (.file source)) ∧
      (∀ producer, suppressBody status isHead body ≠ some (.stream producer)) ∧
      (framingLength status isHead body).known? = some (memoryBytes body).length := by
  rcases hBody with rfl | ⟨rfl, hPayload, bytes, rfl⟩
  · cases hPayload : status.permitsPayloadBody <;> cases isHead <;>
      simp [suppressBody, framingLength, preLength, collapseEmptyWithLength, memoryBytes, hPayload,
        ResponseBody.bodyLength, BodyLength.known?]
  · simp [suppressBody, framingLength, preLength, collapseEmptyWithLength, memoryBytes, hPayload,
      ResponseBody.bodyLength, BodyLength.known?]

/-- The fallback: the fields of the error, a length where the status has one, and its
body. It never panics. -/
theorem hyperRuntimeErrorWithPolicy_eq (status : StatusCode) (isHead : Bool)
    (policy : ErrorRepresentationPolicy) :
    hyperRuntimeErrorWithPolicy status isHead policy = some
      { status
        headers := hyperHeaders (runtimeErrorWithPolicy status isHead policy).headers ++
          lengthField (if status.permitsPayloadBody then
            some (memoryBytes (runtimeErrorWithPolicy status isHead policy).body).length else none)
        body := memoryBytes (runtimeErrorWithPolicy status isHead policy).body } := by
  obtain ⟨hKept, hStripped⟩ := kept_runtimeError status isHead policy
  obtain ⟨hBytes, hFile, hStream, hKnown⟩ :=
    suppressBody_runtimeError (body_runtimeError status isHead policy)
  unfold hyperRuntimeErrorWithPolicy
  generalize hError : runtimeErrorWithPolicy status isHead policy = error at *
  have hStatus : error.status = status := by rw [← hError]; rfl
  have hFresh : error.normalized = false := by rw [← hError]; rfl
  have hAccepted : FramingAccepted status error.headers
      (framingLength status isHead error.body) := by
    refine ⟨fun _ => ?_, fun _ _ => by rw [hStripped]; exact Nat.zero_le 1⟩
    rw [HeaderBlock.getAll, List.map_eq_nil_iff, List.filter_eq_nil_iff] at hStripped
    exact List.any_eq_false.mpr hStripped
  have hEmitted : emittedLength status error.headers (framingLength status isHead error.body) =
      if status.permitsPayloadBody then some (memoryBytes error.body).length else none := by
    unfold emittedLength
    rw [hKnown, suppliedLength, hStripped]
    split_ifs <;> rfl
  subst hStatus
  have hNormalized :=
    (@normalizeResponse_eq_ok_iff error _ isHead hFresh).mpr ⟨hAccepted, rfl⟩
  rw [hKept, hEmitted] at hNormalized
  rw [hNormalized]
  have hConverted : ∀ headers : HeaderBlock, toHyperResponse
      ⟨error.status, headers, suppressBody error.status isHead error.body, true⟩ true =
        .ok ⟨error.status, hyperHeaders headers, suppressBody error.status isHead error.body⟩ := by
    intro headers
    unfold toHyperResponse
    dsimp only
    split
    · rename_i source hSome
      exact absurd hSome (hFile source)
    · rename_i producer hSome
      exact absurd hSome (hStream producer)
    · rfl
  simp only [Except.toOption, Option.bind_eq_bind, Option.bind_some, hConverted, hBytes]
  rw [hyperHeaders, List.map_append]
  split_ifs <;> rfl

/-- The error itself has no length. -/
theorem getAll_runtimeError_length (status : StatusCode) (isHead : Bool)
    (policy : ErrorRepresentationPolicy) {name : Str}
    (hName : eqIgnoreAsciiCase ("content-length" : String) name = true) :
    (hyperHeaders (runtimeErrorWithPolicy status isHead policy).headers).getAll name = [] := by
  refine HyperHeaders.getAll_hyperHeaders_eq_nil fun field hField => ?_
  rw [← (kept_runtimeError status isHead policy).1] at hField
  have hOther := (mem_kept hField).2.2
  rw [HeaderName.is] at hOther ⊢
  rwa [← eqIgnoreAsciiCase_congr_right hName]

/-- The values of the fallback under each name. -/
theorem getAll_fallback {status : StatusCode} {isHead : Bool} {policy : ErrorRepresentationPolicy}
    {fallback : MemoryResponse}
    (h : hyperRuntimeErrorWithPolicy status isHead policy = some fallback) (name : Str) :
    fallback.headers.getAll name =
      if eqIgnoreAsciiCase ("content-length" : String) name then
        if status.permitsPayloadBody then [utf8 (decimal fallback.body.length)] else []
      else (hyperHeaders (runtimeErrorWithPolicy status isHead policy).headers).getAll name := by
  obtain rfl := Option.some.inj ((hyperRuntimeErrorWithPolicy_eq status isHead policy).symm.trans h)
  dsimp only
  rw [getAll_append_lengthField fun name hName =>
    getAll_runtimeError_length status isHead policy hName]
  cases eqIgnoreAsciiCase ("content-length" : String) name with
  | true => cases status.permitsPayloadBody <;> rfl
  | false => rfl

/-! Presentations that are taken over, and others. -/

section Presenting

variable {status : StatusCode} {kind : RuntimeRejectionKind} {isHead : Bool}
  {presenter : Option RuntimeRejectionPresenter} {policy : ErrorRepresentationPolicy}
  {presentation : RuntimeErrorPresentation}

theorem present_of_accepted (hPresents : Presents presenter ⟨kind, status⟩ presentation)
    (hAccepted : Accepted presentation) (isHead : Bool) :
    presentRuntimeRejection status kind isHead presenter policy =
      some (frameRejection status isHead (presentedFields presentation.headers)
        presentation.body) := by
  obtain ⟨present, rfl, hPresent⟩ := hPresents
  have hHeaders := presentedHeaders_eq_some.mpr ⟨hAccepted.2, rfl⟩
  simp [presentRuntimeRejection, hPresent, hHeaders, Nat.not_lt.mpr hAccepted.1]

theorem present_of_refused
    (hRefused : ∀ presentation, Presents presenter ⟨kind, status⟩ presentation →
      ¬Accepted presentation) :
    presentRuntimeRejection status kind isHead presenter policy =
      hyperRuntimeErrorWithPolicy status isHead policy := by
  unfold presentRuntimeRejection
  cases presenter with
  | none => rfl
  | some present =>
      dsimp only
      split
      · rename_i presentation hPresent
        have hNot := hRefused presentation ⟨present, rfl, hPresent⟩
        split_ifs with hLong
        · rfl
        · cases hHeaders : presentedHeaders presentation.headers with
          | none => rfl
          | some headers =>
              exact absurd ⟨Nat.not_lt.mp hLong, (presentedHeaders_eq_some.mp hHeaders).1⟩ hNot
      · rfl

theorem Presents.unique {other : RuntimeErrorPresentation}
    (h : Presents presenter ⟨kind, status⟩ presentation)
    (hOther : Presents presenter ⟨kind, status⟩ other) : other = presentation := by
  obtain ⟨present, rfl, hPresent⟩ := h
  obtain ⟨present', hSame, hOther⟩ := hOther
  obtain rfl := Option.some.inj hSame
  exact Option.some.inj (Option.some.inj (hOther.symm.trans hPresent))

/-- The fields of the application are those that the loop takes over and the ones behind
those that it looks at. -/
theorem applicationFields_eq (headers : HeaderBlock) :
    applicationFields headers = presentedFields headers ++
      (headers.drop 65).filter fun field => !presentationIgnores field.name.text := by
  rw [applicationFields, presentedFields, ← List.filter_append]
  exact congrArg _ (List.take_append_drop 65 headers).symm

theorem NothingBehind.presentedFields_eq {headers : HeaderBlock} (h : NothingBehind headers) :
    presentedFields headers = applicationFields headers := by
  have hNone :
      (headers.drop 65).filter (fun field => !presentationIgnores field.name.text) = [] := by
    rw [List.filter_eq_nil_iff]
    intro field hField
    simp [h field hField]
  rw [applicationFields_eq, hNone, List.append_nil]

/-- No value is missing exactly when there is nothing behind. -/
theorem getAll_presentedFields_iff {headers : HeaderBlock} :
    (∀ name, presentationIgnores name = false →
      (hyperHeaders (presentedFields headers)).getAll name = (hyperHeaders headers).getAll name) ↔
      NothingBehind headers := by
  constructor
  · intro hValues field hField
    by_contra hKept
    rw [Bool.not_eq_true] at hKept
    have hSame := hValues field.name.text hKept
    rw [← getAll_filter_kept headers hKept] at hSame
    change _ = (hyperHeaders (applicationFields headers)).getAll _ at hSame
    rw [applicationFields_eq, hyperHeaders, hyperHeaders, List.map_append] at hSame
    rw [HyperHeaders.getAll_append, List.self_eq_append_right, HyperHeaders.getAll,
      List.map_eq_nil_iff, List.filter_eq_nil_iff] at hSame
    refine hSame _ (List.mem_map_of_mem (List.mem_filter.mpr ⟨hField, ?_⟩))
      (eqIgnoreAsciiCase_refl field.name.text)
    rw [hKept]
    rfl
  · intro hNothing name hName
    rw [hNothing.presentedFields_eq]
    exact getAll_filter_kept headers hName

theorem rejectionLength_eq_some {body : List UInt8} {length : Nat} :
    rejectionLength status isHead body = some length ↔
      (status.code ≠ 204 ∧ status.code ≠ 205 ∧ (status.code ≠ 304 ∨ body ≠ [])) ∧
        length = if isHead || status.permitsPayloadBody then body.length else 0 := by
  unfold rejectionLength
  simp only [Option.ite_none_right_eq_some, Option.some.injEq, Bool.and_eq_true, Bool.or_eq_true,
    decide_eq_true_eq, List.length_pos_iff_ne_nil, and_assoc, eq_comm (a := length)]

theorem permitsPayloadBody_iff :
    status.permitsPayloadBody = true ↔ status.isInformational = false ∧ status.code ≠ 204 ∧
      status.code ≠ 205 ∧ status.code ≠ 304 := by
  simp [StatusCode.permitsPayloadBody, and_assoc]

/-- The body that `GET` is sent. -/
def sentBody (status : StatusCode) (body : List UInt8) : List UInt8 :=
  if status.permitsPayloadBody then body else []

/-- The length that is announced is the one that is sent, unless `HEAD` announces a length
under a status without payload. -/
theorem announces_sent_iff {body : List UInt8} :
    (∀ length, rejectionLength status isHead body = some length →
      length = (sentBody status body).length) ↔ ¬LengthUnsent status isHead body := by
  constructor
  · rintro hSent ⟨rfl, hPayload, hNoContent, hReset, hBody⟩
    have hLength := hSent body.length
      (rejectionLength_eq_some.mpr ⟨⟨hNoContent, hReset, .inr hBody⟩, rfl⟩)
    rw [sentBody, hPayload] at hLength
    exact hBody (List.length_eq_zero_iff.mp hLength)
  · intro hUnsent length hSome
    obtain ⟨⟨hNoContent, hReset, -⟩, rfl⟩ := rejectionLength_eq_some.mp hSome
    unfold sentBody
    cases hPayload : status.permitsPayloadBody with
    | true => simp
    | false =>
        cases isHead with
        | false => rfl
        | true =>
            by_cases hBody : body = []
            · rw [hBody]
              rfl
            · exact absurd ⟨rfl, hPayload, hNoContent, hReset, hBody⟩ hUnsent

/-- Where a body is sent, its length is announced. -/
theorem rejectionLength_ne_none {body : List UInt8} (h : sentBody status body ≠ []) :
    rejectionLength status isHead body ≠ none := by
  unfold sentBody at h
  split_ifs at h with hPayload
  · obtain ⟨-, hNoContent, hReset, hModified⟩ := permitsPayloadBody_iff.mp hPayload
    rw [rejectionLength_eq_some.mpr ⟨⟨hNoContent, hReset, .inl hModified⟩, rfl⟩]
    exact Option.some_ne_none _
  · exact absurd rfl h

theorem rejectionLength_eq_none {body : List UInt8} (h : status.code = 204 ∨ status.code = 205) :
    rejectionLength status isHead body = none := by
  rw [Option.eq_none_iff_forall_ne_some]
  intro length hSome
  obtain ⟨⟨hNoContent, hReset, -⟩, -⟩ := rejectionLength_eq_some.mp hSome
  exact h.elim hNoContent hReset

/-- A name that the runtime does not own is not that of the length. -/
theorem ne_length_of_kept {name : Str} (hName : presentationIgnores name = false) :
    eqIgnoreAsciiCase ("content-length" : String) name = false := by
  rw [Bool.eq_false_iff]
  intro hLength
  rw [← presentationIgnores_congr hLength] at hName
  exact absurd hName (by decide)

/-- A framed answer carries the presentation exactly when nothing is behind and its length
is one that is sent. -/
theorem carries_iff (hAccepted : Accepted presentation) :
    CarriesPresentation status presentation
        (frameRejection status isHead (presentedFields presentation.headers) presentation.body)
        (frameRejection status false (presentedFields presentation.headers) presentation.body) ↔
      NothingBehind presentation.headers ∧ ¬LengthUnsent status isHead presentation.body := by
  have hLength := getAll_frameRejection status isHead (presentedFields presentation.headers)
    presentation.body "content-length"
  rw [if_pos (eqIgnoreAsciiCase_refl _)] at hLength
  have hSent : (frameRejection status false (presentedFields presentation.headers)
      presentation.body).body = sentBody status presentation.body := rfl
  rw [← announces_sent_iff]
  constructor
  · intro hCarries
    refine ⟨getAll_presentedFields_iff.mp fun name hName => ?_, fun length hSome => ?_⟩
    · have hValues := hCarries.values name hName
      rw [getAll_frameRejection, ne_length_of_kept hName] at hValues
      exact hValues
    · have hValue := hCarries.length (utf8 (decimal length)) (by
        rw [hLength, hSome]
        exact List.mem_singleton_self _)
      exact decimal_inj (utf8_injective hValue)
  · rintro ⟨hNothing, hAnnounced⟩
    obtain ⟨hCount, hBytes⟩ := Bool.and_eq_true_iff.mp hAccepted.2
    rw [hNothing.presentedFields_eq] at hCount hBytes
    refine ⟨rfl, fun name hName => ?_, of_decide_eq_true hCount, of_decide_eq_true hBytes, ?_, ?_,
      ?_, ?_⟩
    · rw [getAll_frameRejection, ne_length_of_kept hName]
      exact getAll_presentedFields_iff.mpr hNothing name hName
    · rw [hLength]
      cases rejectionLength status isHead presentation.body <;> simp
    · intro value hValue
      rw [hLength] at hValue
      cases hSome : rejectionLength status isHead presentation.body with
      | none =>
          rw [hSome] at hValue
          cases hValue
      | some length =>
          rw [hSome] at hValue
          rw [List.mem_singleton.mp hValue, hSent, hAnnounced length hSome]
    · intro hBody
      rw [hLength]
      have hSome := @rejectionLength_ne_none _ isHead _ (hSent ▸ hBody)
      cases hLen : rejectionLength status isHead presentation.body with
      | none => exact absurd hLen hSome
      | some length => exact List.cons_ne_nil _ _
    · intro hStatus
      rw [hLength, rejectionLength_eq_none hStatus]
      rfl

/-- The length and the body of a framed answer against those of the fallback. -/
theorem framing_eq_iff {body text : List UInt8}
    (hText : isHead = true ∨ status.permitsPayloadBody = false → text = []) :
    (rejectionLength status isHead body =
        (if status.permitsPayloadBody then some text.length else none) ∧
      (if !isHead && status.permitsPayloadBody then body else []) = text) ↔
      status.isInformational = false ∧ (status.code ≠ 204 → status.code ≠ 205 → body = text) := by
  cases hPayload : status.permitsPayloadBody with
  | true =>
      obtain ⟨hFinal, hNoContent, hReset, hModified⟩ := permitsPayloadBody_iff.mp hPayload
      rw [rejectionLength_eq_some.mpr ⟨⟨hNoContent, hReset, .inl hModified⟩, rfl⟩]
      cases isHead with
      | false => simp +contextual [hFinal, hNoContent, hReset, hPayload]
      | true => simp [hText (.inl rfl), hFinal, hNoContent, hReset]
  | false =>
      have hNone : rejectionLength status isHead body = none ↔
          status.code = 204 ∨ status.code = 205 ∨ status.code = 304 ∧ body = [] := by
        unfold rejectionLength
        simp only [ite_eq_right_iff, reduceCtorEq, imp_false, Bool.and_eq_true, Bool.or_eq_true,
          decide_eq_true_eq, List.length_pos_iff_ne_nil]
        tauto
      have hCode : status.isInformational = true ∨ status.code = 204 ∨ status.code = 205 ∨
          status.code = 304 := by
        have hNot := (not_congr permitsPayloadBody_iff).mp (Bool.not_eq_true _ ▸ hPayload)
        simp only [← Bool.not_eq_true] at hNot
        tauto
      have hFinal : status.isInformational = false ↔ 200 ≤ status.code := by
        simp only [StatusCode.isInformational, Bool.and_eq_false_iff, decide_eq_false_iff_not]
        have hRange := status.range
        omega
      simp only [Bool.and_false, Bool.false_eq_true, ↓reduceIte, hText (.inr hPayload), and_true,
        hNone, hFinal]
      rw [← Bool.not_eq_false, hFinal] at hCode
      grind

/-- Two answers have the same values under every name when they announce the same length,
and have the same values under the other names. -/
theorem getAll_framed_iff {headers others first second : HyperHeaders} {length : Option Nat}
    (announced : Option Nat)
    (hFirst : ∀ name, first.getAll name =
      if eqIgnoreAsciiCase ("content-length" : String) name then
        (length.map fun length => utf8 (decimal length)).toList else headers.getAll name)
    (hSecond : ∀ name, second.getAll name =
      if eqIgnoreAsciiCase ("content-length" : String) name then
        (announced.map fun length => utf8 (decimal length)).toList else others.getAll name)
    (hNone : ∀ name, eqIgnoreAsciiCase ("content-length" : String) name = true →
      headers.getAll name = others.getAll name) :
    (∀ name, first.getAll name = second.getAll name) ↔
      length = announced ∧ ∀ name, headers.getAll name = others.getAll name := by
  constructor
  · intro hSame
    constructor
    · have hLength := hSame "content-length"
      rw [hFirst, hSecond, if_pos (eqIgnoreAsciiCase_refl _), if_pos (eqIgnoreAsciiCase_refl _)]
        at hLength
      have hInjective : Function.Injective fun length => utf8 (decimal length) :=
        fun _ _ h => decimal_inj (utf8_injective h)
      refine Option.map_injective hInjective ?_
      simpa only [Option.head?_toList] using congrArg List.head? hLength
    · intro name
      cases hName : eqIgnoreAsciiCase ("content-length" : String) name with
      | true => exact hNone name hName
      | false =>
          have hValues := hSame name
          rwa [hFirst, hSecond, hName, if_neg Bool.false_ne_true, if_neg Bool.false_ne_true]
            at hValues
  · rintro ⟨rfl, hSame⟩ name
    rw [hFirst, hSecond, hSame]

/-- A framed answer is the fallback exactly when it spells it out. -/
theorem same_iff {fallback : MemoryResponse}
    (hFallback : hyperRuntimeErrorWithPolicy status isHead policy = some fallback) :
    (frameRejection status isHead (presentedFields presentation.headers)
        presentation.body).Same fallback ↔
      SpellsFallback status isHead policy presentation := by
  have hSecond := getAll_fallback hFallback
  obtain rfl := Option.some.inj
    ((hyperRuntimeErrorWithPolicy_eq status isHead policy).symm.trans hFallback)
  have hText : isHead = true ∨ status.permitsPayloadBody = false →
      memoryBytes (runtimeErrorWithPolicy status isHead policy).body = [] := by
    intro hEmpty
    rcases body_runtimeError status isHead policy with hBody | ⟨hGet, hPayload, -⟩
    · rw [hBody]
      rfl
    · rw [hGet, hPayload] at hEmpty
      rcases hEmpty with h | h <;> cases h
  have hFields := getAll_framed_iff (if status.permitsPayloadBody then
      some (memoryBytes (runtimeErrorWithPolicy status isHead policy).body).length else none)
    (getAll_frameRejection status isHead (presentedFields presentation.headers) presentation.body)
    (fun name => (hSecond name).trans (by cases status.permitsPayloadBody <;> rfl))
    fun name hName => ?_
  · constructor
    · rintro ⟨-, hHeaders, hBody⟩
      obtain ⟨hLength, hValues⟩ := hFields.mp hHeaders
      obtain ⟨hFinal, hSpelled⟩ := (framing_eq_iff hText).mp ⟨hLength, hBody⟩
      exact ⟨hFinal, hValues, hSpelled⟩
    · rintro ⟨hFinal, hValues, hSpelled⟩
      obtain ⟨hLength, hBody⟩ := (framing_eq_iff hText).mpr ⟨hFinal, hSpelled⟩
      exact ⟨rfl, hFields.mpr ⟨hLength, hValues⟩, hBody⟩
  · rw [getAll_runtimeError_length status isHead policy hName]
    refine getAll_filter_ignored _ ?_
    rw [← presentationIgnores_congr hName]
    decide

/-- What becomes of a presentation within the limits. -/
theorem allOrFallback_of_accepted (hPresents : Presents presenter ⟨kind, status⟩ presentation)
    (hAccepted : Accepted presentation) :
    AllOrFallback status kind isHead presenter policy ↔
      NothingBehind presentation.headers ∧ ¬LengthUnsent status isHead presentation.body ∨
        SpellsFallback status isHead policy presentation := by
  have hResponse := @present_of_accepted _ _ _ policy _ hPresents hAccepted isHead
  have hGet := @present_of_accepted _ _ _ policy _ hPresents hAccepted false
  constructor
  · rintro ⟨response, hSome, hEither⟩
    obtain rfl := Option.some.inj (hResponse.symm.trans hSome)
    rcases hEither with ⟨fallback, hRefused, hSame⟩ | ⟨carried, get, hCarried, hSent, hCarries⟩
    · exact .inr ((same_iff hRefused).mp hSame)
    · obtain rfl := hPresents.unique hCarried
      obtain rfl := Option.some.inj (hGet.symm.trans hSent)
      exact .inl ((carries_iff hAccepted).mp hCarries)
  · intro hHolds
    refine ⟨_, hResponse, ?_⟩
    rcases hHolds with hWhole | hSpells
    · exact .inr ⟨presentation, _, hPresents, hGet, (carries_iff hAccepted).mpr hWhole⟩
    · have hFallback := hyperRuntimeErrorWithPolicy_eq status isHead policy
      exact .inl ⟨_, hFallback, (same_iff hFallback).mpr hSpells⟩

theorem allOrFallback_of_refused
    (hRefused : ∀ presentation, Presents presenter ⟨kind, status⟩ presentation →
      ¬Accepted presentation) : AllOrFallback status kind isHead presenter policy := by
  have hFallback := hyperRuntimeErrorWithPolicy_eq status isHead policy
  exact ⟨_, (present_of_refused hRefused).trans hFallback,
    .inl ⟨_, hFallback, rfl, fun _ => rfl, rfl⟩⟩

end Presenting

/-- The answer to a rejection is the fallback or carries all that was presented exactly
when a presentation within the limits has no field of the application behind the first 65
and announces no length that is not sent, or spells out the fallback itself. -/
theorem all_or_fallback_iff (status : StatusCode) (kind : RuntimeRejectionKind) (isHead : Bool)
    (presenter : Option RuntimeRejectionPresenter) (policy : ErrorRepresentationPolicy) :
    AllOrFallback status kind isHead presenter policy ↔
      ∀ presentation, Presents presenter ⟨kind, status⟩ presentation → Accepted presentation →
        NothingBehind presentation.headers ∧ ¬LengthUnsent status isHead presentation.body ∨
          SpellsFallback status isHead policy presentation := by
  constructor
  · intro hAll presentation hPresents hAccepted
    exact (allOrFallback_of_accepted hPresents hAccepted).mp hAll
  · intro hHolds
    by_cases hTaken : ∃ presentation, Presents presenter ⟨kind, status⟩ presentation ∧
        Accepted presentation
    · obtain ⟨presentation, hPresents, hAccepted⟩ := hTaken
      exact (allOrFallback_of_accepted hPresents hAccepted).mpr
        (hHolds presentation hPresents hAccepted)
    · exact allOrFallback_of_refused fun presentation hPresents hAccepted =>
        hTaken ⟨presentation, hPresents, hAccepted⟩

/-- A date of its own, and one field more than fits. -/
def datedPresentation : RuntimeErrorPresentation where
  headers := ⟨⟨"date", dateName.valid⟩, ⟨utf8 "today", by decide, by decide⟩⟩ ::
    List.replicate 65 ⟨⟨"x-app", by decide⟩, ⟨utf8 "1", one_isValue, one_trimmed⟩⟩
  body := utf8 "busy"

/-- The date counts among the fields that the loop looks at, so the last field is not one
of them: the answer is not the fallback, and carries one value less than was presented. -/
theorem presented_field_dropped :
    ∃ response, presentRuntimeRejection ⟨503, by decide⟩ .serviceAdmissionSaturated false
        (some fun _ => some (some datedPresentation)) .minimal = some response ∧
      ((hyperHeaders datedPresentation.headers).getAll "x-app").length = 65 ∧
      (response.headers.getAll "x-app").length = 64 ∧
      ¬AllOrFallback ⟨503, by decide⟩ .serviceAdmissionSaturated false
        (some fun _ => some (some datedPresentation)) .minimal := by
  have hPresents : Presents (some fun _ => some (some datedPresentation))
      ⟨.serviceAdmissionSaturated, ⟨503, by decide⟩⟩ datedPresentation := ⟨_, rfl, rfl⟩
  have hAccepted : Accepted datedPresentation := ⟨by decide +kernel, by decide +kernel⟩
  refine ⟨_, present_of_accepted hPresents hAccepted false, by decide +kernel,
    by decide +kernel, ?_⟩
  rw [allOrFallback_of_accepted hPresents hAccepted]
  rintro (⟨hNothing, -⟩ | hSpells)
  · exact absurd (hNothing ⟨⟨"x-app", by decide⟩, ⟨utf8 "1", by decide, by decide⟩⟩
      (by decide +kernel)) (by decide +kernel)
  · exact absurd (hSpells.values "x-app") (by decide +kernel)

end Eggserve.Server
