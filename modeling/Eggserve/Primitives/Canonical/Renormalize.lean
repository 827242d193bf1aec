import Eggserve.Primitives.Canonical.Response

/-! Normalizing a response again after a wrapper has edited its headers. The
second pass sees the body that the first pass suppressed, so the length of the
representation survives only where the suppressed body still carries it. -/
namespace Eggserve.Primitives
open Rust

/-- The value of `normalized` comes from `normalize_response` alone. -/
def Response.Built (response : Response) : Prop :=
  response.normalized = true → ∃ (fresh : Response) (isHead : Bool),
    fresh.normalized = false ∧ normalizeResponse fresh isHead = .ok response

/-- Mutable access to the head: the flag is cleared, the edit is the caller's. -/
def Response.headMut (response : Response) (edit : HeaderBlock → HeaderBlock) : Response :=
  { response with headers := edit response.headers, normalized := false }

/-- The fields that normalization removes or computes. -/
def isFramingField (field : HeaderField) : Bool :=
  isHopByHopHeader field.name.text || field.name.is "content-length"

/-- The edit neither adds, removes nor changes a framing field. -/
def KeepsFraming (headers edited : HeaderBlock) : Prop :=
  edited.filter isFramingField = headers.filter isFramingField

inductive BodyKind where
  | empty
  | bytes
  | file
  | stream
  | emptyWithLength
  deriving DecidableEq, Repr

def ResponseBody.kind : ResponseBody → BodyKind
  | .empty => .empty
  | .bytes _ => .bytes
  | .file _ => .file
  | .stream _ => .stream
  | .emptyWithLength _ => .emptyWithLength

/-- Same kind and same length; a consumed body is of no kind. -/
def SameShape (first second : Option ResponseBody) : Prop :=
  first.map ResponseBody.kind = second.map ResponseBody.kind ∧
    first.map ResponseBody.bodyLength = second.map ResponseBody.bodyLength

/-- A second pass over `edited`, obtained from the normalized `first`, changes
neither the announced length, nor the body, nor any other field. -/
def RenormalizesTo (first edited : Response) (isHead : Bool) : Prop :=
  ∃ second, normalizeResponse edited isHead = .ok second ∧
    second.status = first.status ∧
    second.headers.getAll "content-length" = first.headers.getAll "content-length" ∧
    SameShape second.body first.body ∧
    removeHeader second.headers "content-length" = removeHeader edited.headers "content-length"

/-- When the length of the representation survives a second pass. A fresh
`HEAD` response needs a known length, and a 304 that keeps its supplied length
keeps it only if it is zero. A response that arrives normalized must have been
normalized for the same method. -/
def LengthSurvives (response : Response) (isHead : Bool) : Prop :=
  if response.status.permitsPayloadBody then
    if response.normalized then
      if isHead then ∃ length, response.body = some (.emptyWithLength length)
      else (∀ length, response.body ≠ some (.emptyWithLength length)) ∧
        (response.body = some .empty → response.headers.contains "content-length" = true)
    else isHead = true → preLength isHead response.body ≠ .unknown
  else response.status = .notModified →
    if response.normalized then
      ∀ length, suppliedLength response.headers = some length → length = 0
    else ∀ length, suppliedLength (stripHopByHop response.headers) = some length →
      preLength isHead response.body = .known length → length = 0

/-! One pass, as an equation. -/

/-- What a pass over a fresh response returns. -/
theorem normalizeResponse_eq_ok_iff {response result : Response} {isHead : Bool}
    (hFresh : response.normalized = false) :
    normalizeResponse response isHead = .ok result ↔
      FramingAccepted response.status response.headers
          (framingLength response.status isHead response.body) ∧
        result = {
          status := response.status
          headers := kept response.headers ++ ((emittedLength response.status response.headers
            (framingLength response.status isHead response.body)).map contentLengthField).toList
          body := suppressBody response.status isHead response.body
          normalized := true } := by
  rw [normalizeResponse, hFresh, if_neg Bool.false_ne_true, bind_eq_ok]
  simp only [normalizeMetadata_eq_ok_iff, pure, Except.pure, Except.ok.injEq, and_assoc]
  rw [exists_and_left]
  refine and_congr_right fun _ => ?_
  rw [exists_eq_left, eq_comm]

/-! A block without fields for one hop. -/

/-- Nothing in the block is for one hop only. -/
def EndToEnd (headers : HeaderBlock) : Prop :=
  ∀ field ∈ headers, isHopByHopHeader field.name.text = false

theorem connectionTokens_of_endToEnd {headers : HeaderBlock} (h : EndToEnd headers) :
    connectionTokens headers = [] := by
  have hConnection : headers.filter (·.name.is "connection") = [] := by
    rw [List.filter_eq_nil_iff]
    intro field hField hName
    have hHop : isHopByHopHeader field.name.text = true := by
      rw [isHopByHopHeader, List.any_cons, show eqIgnoreAsciiCase field.name.text "connection" =
        true from hName, Bool.true_or]
    rw [h field hField] at hHop
    cases hHop
  rw [connectionTokens, hConnection]
  rfl

theorem stripHopByHop_of_endToEnd {headers : HeaderBlock} (h : EndToEnd headers) :
    stripHopByHop headers = headers := by
  rw [stripHopByHop, connectionTokens_of_endToEnd h, List.filter_eq_self]
  intro field hField
  rw [h field hField]
  rfl

theorem kept_of_endToEnd {headers : HeaderBlock} (h : EndToEnd headers) :
    kept headers = removeHeader headers "content-length" := by
  rw [← removeHeader_stripHopByHop, stripHopByHop_of_endToEnd h]

theorem endToEnd_kept_append (headers : HeaderBlock) (emitted : Option Nat) :
    EndToEnd (kept headers ++ (emitted.map contentLengthField).toList) := by
  intro field hField
  rcases mem_kept_append hField with hKept | ⟨length, rfl⟩
  · exact (mem_kept hKept).1
  · exact contentLengthField_not_hop_by_hop length

namespace KeepsFraming

theorem endToEnd {headers edited : HeaderBlock} (h : KeepsFraming headers edited)
    (hHeaders : EndToEnd headers) : EndToEnd edited := by
  intro field hField
  rw [← Bool.not_eq_true]
  intro hHop
  have hMem : field ∈ headers.filter isFramingField := by
    rw [← h, List.mem_filter, isFramingField, hHop, Bool.true_or]
    exact ⟨hField, rfl⟩
  rw [hHeaders field (List.mem_filter.mp hMem).1] at hHop
  cases hHop

theorem getAll {headers edited : HeaderBlock} (h : KeepsFraming headers edited) :
    edited.getAll "content-length" = headers.getAll "content-length" := by
  have hFilter : ∀ block : HeaderBlock, block.filter (·.name.is "content-length") =
      (block.filter isFramingField).filter (·.name.is "content-length") := by
    intro block
    rw [List.filter_filter]
    refine List.filter_congr fun field _ => ?_
    rw [isFramingField]
    cases field.name.is "content-length" with
    | true => rw [Bool.or_true, Bool.and_true]
    | false => rfl
  rw [HeaderBlock.getAll, HeaderBlock.getAll, hFilter edited, hFilter headers, h]

end KeepsFraming

/-! The announced length, written and read back. -/

theorem parseU64_decimal {length : Nat} (h : length ≤ u64Max) :
    parseU64 (decimal length) = some length := by
  rw [parseU64_of_isDigits (isDigits_decimal length), decimalValue_decimal, if_pos h]

theorem le_of_parseU64 {text : Str} {length : Nat} (h : parseU64 text = some length) :
    length ≤ u64Max := by
  simp only [parseU64, Option.ite_none_right_eq_some, Bool.and_eq_true, decide_eq_true_eq,
    Option.some.injEq] at h
  obtain ⟨⟨_, hLe⟩, rfl⟩ := h
  exact hLe

theorem le_of_suppliedLength {headers : HeaderBlock} {length : Nat}
    (h : suppliedLength headers = some length) : length ≤ u64Max := by
  obtain ⟨_, _, _, _, hParse⟩ := suppliedLength_eq_some h
  exact le_of_parseU64 hParse

theorem suppliedLength_kept_append (headers : HeaderBlock) {emitted : Option Nat}
    (h : ∀ length, emitted = some length → length ≤ u64Max) :
    suppliedLength (kept headers ++ (emitted.map contentLengthField).toList) = emitted := by
  rw [suppliedLength, getAll_kept_append]
  cases emitted with
  | none => rfl
  | some length =>
      change (contentLengthField length).value.toStr.bind parseU64 = some length
      rw [contentLengthField_toStr, Option.bind_some, parseU64_decimal (h length rfl)]

theorem contentLengthField_value_injective {first second : Nat}
    (h : (contentLengthField first).value = (contentLengthField second).value) :
    first = second := by
  have hText : decimal first = decimal second := by
    have hToStr := congrArg HeaderValue.toStr h
    rw [contentLengthField_toStr, contentLengthField_toStr] at hToStr
    exact Option.some.inj hToStr
  rw [← decimalValue_decimal first, hText, decimalValue_decimal]

theorem getAll_kept_append_inj (headers others : HeaderBlock) (first second : Option Nat) :
    HeaderBlock.getAll (kept headers ++ (first.map contentLengthField).toList)
        "content-length" =
      HeaderBlock.getAll (kept others ++ (second.map contentLengthField).toList)
        "content-length" ↔ first = second := by
  rw [getAll_kept_append, getAll_kept_append]
  constructor
  · intro h
    cases first with
    | none =>
        cases second with
        | none => rfl
        | some length => cases h
    | some length =>
        cases second with
        | none => cases h
        | some other =>
            rw [contentLengthField_value_injective (List.cons.inj h).1]
  · rintro rfl
    rfl

/-! The second pass. -/

section SecondPass

variable {fresh first : Response} {head isHead : Bool}

/-- The length announced by the first pass. -/
def firstLength (fresh : Response) (head : Bool) : Option Nat :=
  emittedLength fresh.status fresh.headers (framingLength fresh.status head fresh.body)

theorem firstLength_of_payload (hPayload : fresh.status.permitsPayloadBody = true) :
    firstLength fresh head = (preLength head fresh.body).known? := by
  rw [firstLength, emittedLength, if_pos hPayload, framingLength_of_payload _ _ hPayload]

theorem firstLength_of_notModified (hStatus : fresh.status = .notModified) :
    firstLength fresh head = (suppliedLength (stripHopByHop fresh.headers)).filter
      (fun length => preLength head fresh.body = .known length) := by
  rw [firstLength, emittedLength, hStatus, if_neg (by decide), if_pos rfl]
  rfl

theorem firstLength_le (hStatus : fresh.status = .notModified) {length : Nat}
    (h : firstLength fresh head = some length) : length ≤ u64Max := by
  rw [firstLength_of_notModified hStatus, Option.filter_eq_some_iff] at h
  exact le_of_suppliedLength h.1

theorem firstPass_fields (hFresh : fresh.normalized = false)
    (hFirst : normalizeResponse fresh head = .ok first) :
    first.status = fresh.status ∧ first.body = suppressBody fresh.status head fresh.body ∧
      EndToEnd first.headers := by
  obtain ⟨_, rfl⟩ := (normalizeResponse_eq_ok_iff hFresh).mp hFirst
  exact ⟨rfl, rfl, endToEnd_kept_append _ _⟩

theorem suppliedLength_of_first (hFresh : fresh.normalized = false)
    (hFirst : normalizeResponse fresh head = .ok first) (hStatus : fresh.status = .notModified) :
    suppliedLength first.headers = firstLength fresh head := by
  obtain ⟨_, rfl⟩ := (normalizeResponse_eq_ok_iff hFresh).mp hFirst
  exact suppliedLength_kept_append _ fun length hLength => firstLength_le hStatus hLength

/-- An edited block is accepted again: it has at most the one `Content-Length`
of the first pass, and a 205 has none. -/
theorem framingAccepted_of_first (hFresh : fresh.normalized = false)
    (hFirst : normalizeResponse fresh head = .ok first) {edited : HeaderBlock}
    (hEdit : KeepsFraming first.headers edited) (bodyLength : BodyLength) :
    FramingAccepted first.status edited bodyLength := by
  obtain ⟨_, rfl⟩ := (normalizeResponse_eq_ok_iff hFresh).mp hFirst
  have hValues := hEdit.getAll.trans (getAll_kept_append _ _)
  rw [FramingAccepted, stripHopByHop_of_endToEnd (hEdit.endToEnd (endToEnd_kept_append _ _)),
    hValues]
  constructor
  · intro hStatus
    change fresh.status = _ at hStatus
    rw [emittedLength, hStatus, if_neg (by decide), if_neg (by decide)] at hValues
    have hNone : edited.filter (fun field => field.name.is "content-length") = [] :=
      List.map_eq_nil_iff.mp hValues
    rw [HeaderBlock.contains, List.any_eq_false]
    exact List.filter_eq_nil_iff.mp hNone
  · intro _ _
    cases emittedLength fresh.status fresh.headers _ with
    | none => exact Nat.zero_le 1
    | some length => exact Nat.le_refl 1

theorem emittedLength_of_keepsFraming {headers edited : HeaderBlock} {status : StatusCode}
    {bodyLength : BodyLength} (hEdit : KeepsFraming headers edited) (hClean : EndToEnd headers) :
    emittedLength status edited bodyLength = emittedLength status headers bodyLength := by
  have hSupplied : suppliedLength edited = suppliedLength headers := by
    rw [suppliedLength, suppliedLength, hEdit.getAll]
  rw [emittedLength, emittedLength, stripHopByHop_of_endToEnd hClean,
    stripHopByHop_of_endToEnd (hEdit.endToEnd hClean), hSupplied]

/-- The edit is harmless exactly when the second pass announces the length of
the first and suppressing the body once more changes nothing. -/
theorem renormalizesTo_iff (hFresh : fresh.normalized = false)
    (hFirst : normalizeResponse fresh head = .ok first) {edit : HeaderBlock → HeaderBlock}
    (hEdit : KeepsFraming first.headers (edit first.headers)) :
    RenormalizesTo first (first.headMut edit) isHead ↔
      emittedLength first.status first.headers (framingLength first.status isHead first.body) =
          firstLength fresh head ∧
        SameShape (suppressBody first.status isHead first.body) first.body := by
  have hFraming := framingAccepted_of_first hFresh hFirst hEdit
    (framingLength first.status isHead first.body)
  obtain ⟨_, rfl⟩ := (normalizeResponse_eq_ok_iff hFresh).mp hFirst
  have hClean := endToEnd_kept_append fresh.headers (firstLength fresh head)
  have hCleanEdit := hEdit.endToEnd hClean
  constructor
  · rintro ⟨second, hSecond, -, hValues, hShape, -⟩
    obtain ⟨-, rfl⟩ := (normalizeResponse_eq_ok_iff rfl).mp hSecond
    refine ⟨?_, hShape⟩
    rw [← emittedLength_of_keepsFraming hEdit hClean]
    exact (getAll_kept_append_inj _ _ _ _).mp hValues
  · rintro ⟨hLength, hShape⟩
    refine ⟨_, (normalizeResponse_eq_ok_iff rfl).mpr ⟨hFraming, rfl⟩, rfl, ?_, hShape, ?_⟩
    · rw [← emittedLength_of_keepsFraming hEdit hClean] at hLength
      exact (getAll_kept_append_inj _ _ _ _).mpr hLength
    · rw [removeHeader_kept_append]
      exact kept_of_endToEnd hCleanEdit

/-! Suppressing a body again, where a payload is permitted: `head` is the method of
the first pass, `isHead` that of the second. -/

variable {status : StatusCode}

theorem suppressBody_head (hPayload : status.permitsPayloadBody = true)
    (body : Option ResponseBody) :
    suppressBody status true body = some
      (match preLength true body with
        | .known length => ResponseBody.emptyWithLength length
        | .unknown => .empty) := by
  rw [suppressBody, hPayload]
  cases preLength true body <;> rfl

theorem suppressBody_get (hPayload : status.permitsPayloadBody = true)
    (body : Option ResponseBody) :
    suppressBody status false body = collapseEmptyWithLength false body := by
  rw [suppressBody, hPayload]
  rfl

theorem sameShape_suppressBody_head (hPayload : status.permitsPayloadBody = true)
    (body : Option ResponseBody) :
    SameShape (suppressBody status true body) body ↔
      ∃ length, body = some (.emptyWithLength length) := by
  rw [suppressBody_head hPayload]
  cases body with
  | none => simp [SameShape]
  | some body =>
      cases body with
      | stream producer => cases hLength : producer.knownLength <;>
          simp [SameShape, preLength, collapseEmptyWithLength, ResponseBody.bodyLength,
            ResponseBody.kind, hLength]
      | _ => simp [SameShape, preLength, collapseEmptyWithLength, ResponseBody.bodyLength,
          ResponseBody.kind]

theorem sameShape_suppressBody_get (hPayload : status.permitsPayloadBody = true)
    (body : Option ResponseBody) :
    SameShape (suppressBody status false body) body ↔
      ∀ length, body ≠ some (.emptyWithLength length) := by
  rw [suppressBody_get hPayload]
  cases body with
  | none => simp [SameShape, collapseEmptyWithLength]
  | some body => cases body <;> simp [SameShape, collapseEmptyWithLength, ResponseBody.kind]

/-- Only a `HEAD` pass leaves a bare length, and it is the length it announced. -/
theorem preLength_of_emptyWithLength (hPayload : status.permitsPayloadBody = true)
    {body : Option ResponseBody} {length : Nat}
    (h : suppressBody status head body = some (.emptyWithLength length)) :
    preLength head body = .known length := by
  cases head with
  | true =>
      rw [suppressBody_head hPayload] at h
      cases hLength : preLength true body with
      | known known =>
          rw [hLength] at h
          rw [ResponseBody.emptyWithLength.inj (Option.some.inj h)]
      | unknown =>
          rw [hLength] at h
          cases h
  | false =>
      rw [suppressBody_get hPayload] at h
      cases body with
      | none => cases h
      | some body => cases body <;> cases h

/-- Outside `HEAD` a second pass computes the length of the first, unless the
first one hid an unknown length behind an empty body. -/
theorem preLength_suppressBody (hPayload : status.permitsPayloadBody = true)
    {body : Option ResponseBody}
    (hBare : ∀ length, suppressBody status head body ≠ some (.emptyWithLength length))
    (hEmpty : suppressBody status head body = some .empty →
      (preLength head body).known?.isSome = true) :
    preLength false (suppressBody status head body) = preLength head body := by
  cases head with
  | true =>
      rw [suppressBody_head hPayload] at hBare hEmpty ⊢
      cases hLength : preLength true body with
      | known known => exact absurd (by rw [hLength]) (hBare known)
      | unknown =>
          rw [hLength] at hEmpty
          cases hEmpty rfl
  | false =>
      rw [suppressBody_get hPayload, preLength, preLength]
      cases body with
      | none => rfl
      | some body => cases body <;> rfl

theorem suppressBody_again (hPayload : status.permitsPayloadBody = true)
    (head isHead : Bool) (body : Option ResponseBody) :
    (preLength isHead (suppressBody status head body)).known? = (preLength head body).known? ∧
        SameShape (suppressBody status isHead (suppressBody status head body))
          (suppressBody status head body) ↔
      if isHead then ∃ length, suppressBody status head body = some (.emptyWithLength length)
      else (∀ length, suppressBody status head body ≠ some (.emptyWithLength length)) ∧
        (suppressBody status head body = some .empty →
          (preLength head body).known?.isSome = true) := by
  cases isHead with
  | true =>
      rw [sameShape_suppressBody_head hPayload, if_pos rfl]
      constructor
      · exact fun h => h.2
      · rintro ⟨length, hBody⟩
        refine ⟨?_, length, hBody⟩
        rw [preLength_of_emptyWithLength hPayload hBody, hBody]
        rfl
  | false =>
      rw [sameShape_suppressBody_get hPayload, if_neg Bool.false_ne_true]
      constructor
      · rintro ⟨hLength, hBare⟩
        refine ⟨hBare, fun hEmpty => ?_⟩
        rw [← hLength, hEmpty]
        rfl
      · rintro ⟨hBare, hEmpty⟩
        exact ⟨congrArg _ (preLength_suppressBody hPayload hBare hEmpty), hBare⟩

/-- With one method for both passes only an unknown `HEAD` length is lost. -/
theorem suppressBody_again_same (hPayload : status.permitsPayloadBody = true)
    (isHead : Bool) (body : Option ResponseBody) :
    (if isHead then ∃ length, suppressBody status isHead body = some (.emptyWithLength length)
      else (∀ length, suppressBody status isHead body ≠ some (.emptyWithLength length)) ∧
        (suppressBody status isHead body = some .empty →
          (preLength isHead body).known?.isSome = true)) ↔
      (isHead = true → preLength isHead body ≠ .unknown) := by
  cases isHead with
  | true =>
      rw [if_pos rfl, suppressBody_head hPayload]
      cases preLength true body <;> simp
  | false =>
      rw [if_neg Bool.false_ne_true, suppressBody_get hPayload]
      cases body with
      | none => simp [collapseEmptyWithLength]
      | some body =>
          cases body <;> simp [collapseEmptyWithLength, preLength, ResponseBody.bodyLength,
            BodyLength.known?]

/-! Both passes together, by the class of the status. -/

theorem renormalizesTo_iff_of_payload (hFresh : fresh.normalized = false)
    (hFirst : normalizeResponse fresh head = .ok first) {edit : HeaderBlock → HeaderBlock}
    (hEdit : KeepsFraming first.headers (edit first.headers))
    (hPayload : fresh.status.permitsPayloadBody = true) :
    RenormalizesTo first (first.headMut edit) isHead ↔
      if isHead then ∃ length, first.body = some (.emptyWithLength length)
      else (∀ length, first.body ≠ some (.emptyWithLength length)) ∧
        (first.body = some .empty → (firstLength fresh head).isSome = true) := by
  obtain ⟨hSame, hBody, -⟩ := firstPass_fields hFresh hFirst
  rw [renormalizesTo_iff hFresh hFirst hEdit, firstLength_of_payload hPayload, hSame, hBody, emittedLength,
    if_pos hPayload, framingLength_of_payload _ _ hPayload]
  exact suppressBody_again hPayload head isHead fresh.body

theorem renormalizesTo_iff_of_notModified (hFresh : fresh.normalized = false)
    (hFirst : normalizeResponse fresh head = .ok first) {edit : HeaderBlock → HeaderBlock}
    (hEdit : KeepsFraming first.headers (edit first.headers))
    (hStatus : fresh.status = .notModified) :
    RenormalizesTo first (first.headMut edit) isHead ↔
      ∀ length, firstLength fresh head = some length → length = 0 := by
  have hSupplied := suppliedLength_of_first hFresh hFirst hStatus
  obtain ⟨hSame, hBody, hClean⟩ := firstPass_fields hFresh hFirst
  rw [hStatus] at hSame hBody
  have hEmpty : ∀ head body, suppressBody .notModified head body = some .empty := fun _ _ => rfl
  have hLength : framingLength .notModified isHead (some .empty) = .known 0 := by
    cases isHead <;> rfl
  rw [renormalizesTo_iff hFresh hFirst hEdit, hSame, hBody, hEmpty, hEmpty, hLength,
    emittedLength, if_neg (by decide), if_pos rfl, stripHopByHop_of_endToEnd hClean, hSupplied]
  cases firstLength fresh head with
  | none => simp [SameShape]
  | some length => simp [SameShape, Option.filter_some, eq_comm]

theorem renormalizesTo_of_suppressed (hFresh : fresh.normalized = false)
    (hFirst : normalizeResponse fresh head = .ok first) {edit : HeaderBlock → HeaderBlock}
    (hEdit : KeepsFraming first.headers (edit first.headers))
    (hPayload : fresh.status.permitsPayloadBody = false) (hStatus : fresh.status ≠ .notModified) :
    RenormalizesTo first (first.headMut edit) isHead := by
  have hEmpty : ∀ head body, suppressBody fresh.status head body = some .empty := by
    intro head body
    rw [suppressBody, hPayload]
    rfl
  have hNone : ∀ headers bodyLength, emittedLength fresh.status headers bodyLength = none := by
    intro headers bodyLength
    rw [emittedLength, hPayload, if_neg Bool.false_ne_true, if_neg hStatus]
  obtain ⟨hSame, hBody, -⟩ := firstPass_fields hFresh hFirst
  rw [renormalizesTo_iff hFresh hFirst hEdit, hSame, hBody, firstLength, hNone, hNone, hEmpty,
    hEmpty]
  exact ⟨rfl, rfl, rfl⟩

end SecondPass

theorem contains_eq_not_isEmpty_getAll (headers : HeaderBlock) (name : Str) :
    headers.contains name = !(headers.getAll name).isEmpty := by
  rw [HeaderBlock.contains, HeaderBlock.getAll, List.isEmpty_map]
  induction headers with
  | nil => rfl
  | cons field rest ih =>
      rw [List.any_cons, List.filter_cons, ih]
      cases field.name.is name <;> rfl

theorem contains_first {fresh first : Response} {head : Bool} (hFresh : fresh.normalized = false)
    (hFirst : normalizeResponse fresh head = .ok first) :
    first.headers.contains "content-length" = (firstLength fresh head).isSome := by
  obtain ⟨_, rfl⟩ := (normalizeResponse_eq_ok_iff hFresh).mp hFirst
  rw [contains_eq_not_isEmpty_getAll]
  have hValues := getAll_kept_append fresh.headers (firstLength fresh head)
  rw [firstLength] at hValues ⊢
  rw [hValues]
  cases emittedLength fresh.status fresh.headers _ <;> rfl

/-- A header edit of a normalized response that leaves the framing fields alone
is harmless exactly when the length survives. -/
theorem renormalizesTo_iff_lengthSurvives (response first : Response) (isHead : Bool)
    (edit : HeaderBlock → HeaderBlock) (hBuilt : response.Built)
    (hFirst : normalizeResponse response isHead = .ok first)
    (hEdit : KeepsFraming first.headers (edit first.headers)) :
    RenormalizesTo first (first.headMut edit) isHead ↔ LengthSurvives response isHead := by
  cases hNormalized : response.normalized with
  | true =>
      obtain rfl : response = first := by
        rw [normalizeResponse, hNormalized] at hFirst
        exact Except.ok.inj hFirst
      obtain ⟨fresh, head, hFresh, hPass⟩ := hBuilt hNormalized
      obtain ⟨hSame, -, -⟩ := firstPass_fields hFresh hPass
      cases hPayload : response.status.permitsPayloadBody with
      | true =>
          rw [renormalizesTo_iff_of_payload hFresh hPass hEdit (hSame ▸ hPayload),
            ← contains_first hFresh hPass, LengthSurvives, if_pos hPayload, if_pos hNormalized]
      | false =>
          rw [LengthSurvives, if_neg (by simp [hPayload]), if_pos hNormalized]
          by_cases hStatus : response.status = .notModified
          · rw [renormalizesTo_iff_of_notModified hFresh hPass hEdit (hSame ▸ hStatus),
              ← suppliedLength_of_first hFresh hPass (hSame ▸ hStatus)]
            exact ⟨fun h _ => h, fun h => h hStatus⟩
          · exact iff_of_true (renormalizesTo_of_suppressed hFresh hPass hEdit (hSame ▸ hPayload)
              (hSame ▸ hStatus)) fun h => absurd h hStatus
  | false =>
      cases hPayload : response.status.permitsPayloadBody with
      | true =>
          rw [renormalizesTo_iff_of_payload hNormalized hFirst hEdit hPayload, LengthSurvives,
            if_pos hPayload, hNormalized, if_neg Bool.false_ne_true,
            (firstPass_fields hNormalized hFirst).2.1, firstLength_of_payload hPayload]
          exact suppressBody_again_same hPayload isHead response.body
      | false =>
          rw [LengthSurvives, if_neg (by simp [hPayload]), hNormalized,
            if_neg Bool.false_ne_true]
          by_cases hStatus : response.status = .notModified
          · rw [renormalizesTo_iff_of_notModified hNormalized hFirst hEdit hStatus]
            simp only [firstLength_of_notModified hStatus, Option.filter_eq_some_iff,
              decide_eq_true_eq, and_imp]
            exact ⟨fun h _ => h, fun h => h hStatus⟩
          · exact iff_of_true (renormalizesTo_of_suppressed hNormalized hFirst hEdit hPayload
              hStatus) fun h => absurd h hStatus

/-- A wrapper's edit: one field more. -/
def addRequestId (headers : HeaderBlock) : HeaderBlock :=
  headers ++ [⟨⟨"x-request-id", by decide +kernel⟩, ⟨[0x37], by decide +kernel, by decide +kernel⟩⟩]

/-- Five octets, as a handler builds them. -/
def fiveOctets : Response where
  status := .ok
  headers := []
  body := some (.bytes [1, 2, 3, 4, 5])
  normalized := false

theorem fiveOctets_renormalizes :
    ∃ first, normalizeResponse fiveOctets true = .ok first ∧
      KeepsFraming first.headers (addRequestId first.headers) ∧
      LengthSurvives fiveOctets true ∧ RenormalizesTo first (first.headMut addRequestId) true := by
  have hFirst : normalizeResponse fiveOctets true =
      .ok ⟨.ok, [contentLengthField 5], some (.emptyWithLength 5), true⟩ := by decide +kernel
  have hEdit : KeepsFraming [contentLengthField 5] (addRequestId [contentLengthField 5]) := by
    unfold KeepsFraming
    decide +kernel
  have hSurvives : LengthSurvives fiveOctets true := fun _ => by decide
  exact ⟨_, hFirst, hEdit, hSurvives, (renormalizesTo_iff_lengthSurvives fiveOctets _ true
    addRequestId (fun h => by cases h) hFirst hEdit).mpr hSurvives⟩

/-- A stream of unknown length, as a handler builds it. -/
def unknownLengthStream : Response where
  status := .ok
  headers := []
  body := some (.stream ⟨[.ok [1]], none⟩)
  normalized := false

/-- The first `HEAD` pass announces no length, the second one announces zero. -/
theorem unknown_head_length_becomes_zero :
    ∃ first second, unknownLengthStream.Built ∧
      normalizeResponse unknownLengthStream true = .ok first ∧
      KeepsFraming first.headers (addRequestId first.headers) ∧
      normalizeResponse (first.headMut addRequestId) true = .ok second ∧
      first.headers.getAll "content-length" = [] ∧
      second.headers.getAll "content-length" = [(contentLengthField 0).value] ∧
      ¬RenormalizesTo first (first.headMut addRequestId) true := by
  have hSecond : normalizeResponse
      (Response.headMut ⟨.ok, [], some .empty, true⟩ addRequestId) true =
      .ok ⟨.ok, addRequestId [] ++ [contentLengthField 0], some (.emptyWithLength 0), true⟩ := by
    decide +kernel
  refine ⟨⟨.ok, [], some .empty, true⟩, _, (fun h => by cases h), by decide +kernel, ?_, hSecond,
    rfl, by decide +kernel, ?_⟩
  · unfold KeepsFraming
    decide +kernel
  · rintro ⟨second, hPass, -, hValues, -, -⟩
    rw [hSecond] at hPass
    rw [← Except.ok.inj hPass] at hValues
    revert hValues
    decide +kernel

end Eggserve.Primitives
