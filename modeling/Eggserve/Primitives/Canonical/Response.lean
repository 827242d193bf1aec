import Eggserve.Primitives.Body
import Eggserve.Primitives.HeaderBlock

/-! Canonical responses and their normalization, the single place that decides
framing. -/
namespace Eggserve.Primitives
open Rust

structure StatusCode where
  code : Nat
  range : 100 ≤ code ∧ code ≤ 599
  deriving DecidableEq

namespace StatusCode

def ok : StatusCode := ⟨200, by decide⟩

def resetContent : StatusCode := ⟨205, by decide⟩

def notModified : StatusCode := ⟨304, by decide⟩

def isInformational (status : StatusCode) : Bool := 100 ≤ status.code && status.code < 200

/-- Informational responses, 204, 205 and 304 carry no payload. -/
def permitsPayloadBody (status : StatusCode) : Bool :=
  !status.isInformational && status.code ≠ 204 && status.code ≠ 205 && status.code ≠ 304

end StatusCode

inductive ResponseConstructionError where
  | invalidHeader (error : HeaderError)
  | forbiddenFramingHeader (name : Str)
  | fileStreamLimit
  deriving DecidableEq

inductive BodyLength where
  | known (length : Nat)
  | unknown
  deriving DecidableEq, Repr

namespace BodyLength

def known? : BodyLength → Option Nat
  | known length => some length
  | unknown => none

end BodyLength

/-- An application stream: the items it will yield, and its declared length. -/
structure ResponseStream where
  items : List (Except Str (List UInt8))
  knownLength : Option Nat
  deriving DecidableEq

inductive ResponseBody where
  | empty
  | bytes (data : List UInt8)
  | file (source : BodySource)
  | stream (producer : ResponseStream)
  | emptyWithLength (length : Nat)
  deriving DecidableEq

namespace ResponseBody

def bodyLength : ResponseBody → BodyLength
  | empty => .known 0
  | bytes data => .known data.length
  | file source => .known source.len
  | stream producer =>
      match producer.knownLength with
      | some length => .known length
      | none => .unknown
  | emptyWithLength length => .known length

end ResponseBody

structure Response where
  status : StatusCode
  headers : HeaderBlock
  body : Option ResponseBody
  normalized : Bool
  deriving DecidableEq

/-! Header rules. -/

def isHopByHopHeader (name : Str) : Bool :=
  ["connection", "keep-alive", "proxy-authenticate", "proxy-authorization", "proxy-connection",
    "te", "trailer", "transfer-encoding", "upgrade"].any
    fun candidate : String => eqIgnoreAsciiCase name candidate

/-- The field names listed by the `Connection` values that are text. -/
def connectionTokens (headers : HeaderBlock) : List Str :=
  (((((headers.filter (·.name.is "connection")).filterMap (·.value.toStr)).flatMap
    (·.splitOn ',')).map trim).filter (fun name => !name.isEmpty)).map (·.map Char.toLower)

def stripHopByHop (headers : HeaderBlock) : HeaderBlock :=
  let tokens := connectionTokens headers
  headers.filter fun field =>
    !isHopByHopHeader field.name.text && !tokens.any fun name => field.name.is name

def removeHeader (headers : HeaderBlock) (name : Str) : HeaderBlock :=
  headers.filter fun field => !field.name.is name

/-- The length a 304 may keep: the single supplied value, if it is the length
of the selected representation. -/
def notModifiedLength (status : StatusCode) (headers : HeaderBlock) (bodyLength : BodyLength) :
    Except ResponseConstructionError (Option Nat) :=
  if status = .notModified then
    match bodyLength with
    | .known known =>
        match headers.getUnique "content-length" with
        | .error _ => .error (.forbiddenFramingHeader "content-length")
        | .ok value =>
            .ok (((value.bind HeaderValue.toStr).bind parseU64).filter (· = known))
    | .unknown => .ok none
  else .ok none

def pushContentLength (headers : HeaderBlock) (length : Nat) :
    Except ResponseConstructionError HeaderBlock :=
  (headers.pushStr "content-length" (decimal length)).mapError .invalidHeader

def normalizeMetadata (status : StatusCode) (headers : HeaderBlock) (bodyLength : BodyLength) :
    Except ResponseConstructionError HeaderBlock := do
  let headers := stripHopByHop headers
  failIf (status = .resetContent ∧ headers.contains "content-length")
    (.forbiddenFramingHeader "content-length")
  let retained ← notModifiedLength status headers bodyLength
  let headers := removeHeader headers "content-length"
  if status.permitsPayloadBody then
    match bodyLength with
    | .known length => pushContentLength headers length
    | .unknown => .ok headers
  else
    match retained with
    | some length => pushContentLength headers length
    | none => .ok headers

/-- Outside `HEAD` a body that only announces a length is empty. -/
def collapseEmptyWithLength (isHead : Bool) : Option ResponseBody → Option ResponseBody
  | some (.emptyWithLength length) => some (if isHead then .emptyWithLength length else .empty)
  | body => body

/-- The representation length, taken before the body is suppressed. -/
def preLength (isHead : Bool) (body : Option ResponseBody) : BodyLength :=
  match collapseEmptyWithLength isHead body with
  | some body => body.bodyLength
  | none => .known 0

/-- The body that is left after suppression. -/
def suppressBody (status : StatusCode) (isHead : Bool) (body : Option ResponseBody) :
    Option ResponseBody :=
  if !status.permitsPayloadBody then some .empty
  else if isHead then
    match preLength isHead body with
    | .known length => some (.emptyWithLength length)
    | .unknown => some .empty
  else collapseEmptyWithLength isHead body

def framingLength (status : StatusCode) (isHead : Bool) (body : Option ResponseBody) : BodyLength :=
  if !status.permitsPayloadBody && status ≠ .notModified then .known 0
  else preLength isHead body

def normalizeResponse (response : Response) (isHead : Bool) :
    Except ResponseConstructionError Response := do
  if response.normalized then return response
  let headers ← normalizeMetadata response.status response.headers
    (framingLength response.status isHead response.body)
  return {
    status := response.status
    headers
    body := suppressBody response.status isHead response.body
    normalized := true }

/-! What normalization does to the headers. -/

/-- The field the runtime adds. -/
def contentLengthField (length : Nat) : HeaderField where
  name := ⟨"content-length", by decide, by decide, by decide⟩
  value := ⟨utf8 (decimal length), all_isValueByte_decimal length, trimOws_decimal length⟩

/-- The field the runtime adds is always accepted. -/
theorem pushContentLength_eq (headers : HeaderBlock) (length : Nat) :
    pushContentLength headers length = .ok (headers ++ [contentLengthField length]) := by
  have hName : HeaderName.new "content-length" =
      .ok ⟨"content-length", by decide, by decide, by decide⟩ := by decide +kernel
  have hValue : HeaderValue.new (decimal length) = .ok (contentLengthField length).value := by
    rw [HeaderValue.new, HeaderValue.fromBytes, dif_pos (all_isValueByte_decimal length)]
    congr 1
    exact HeaderValue.ext (trimOws_decimal length)
  simp only [pushContentLength, HeaderBlock.pushStr, hName, hValue]
  rfl

/-- The fields that are neither framing nor for one hop only. -/
def kept (headers : HeaderBlock) : HeaderBlock :=
  headers.filter fun field =>
    !isHopByHopHeader field.name.text &&
      !(connectionTokens headers).any (fun name => field.name.is name) &&
      !field.name.is "content-length"

theorem removeHeader_stripHopByHop (headers : HeaderBlock) :
    removeHeader (stripHopByHop headers) "content-length" = kept headers := by
  rw [removeHeader, stripHopByHop, List.filter_filter, kept]
  refine List.filter_congr fun field _ => ?_
  rw [Bool.and_comm]

theorem contentLengthField_is (length : Nat) :
    (contentLengthField length).name.is "content-length" = true := by
  have hText : (contentLengthField length).name.text = "content-length" := rfl
  rw [HeaderName.is, hText, eqIgnoreAsciiCase]
  exact decide_eq_true rfl

theorem contentLengthField_not_hop_by_hop (length : Nat) :
    isHopByHopHeader (contentLengthField length).name.text = false := by
  have hText : (contentLengthField length).name.text = "content-length" := rfl
  rw [hText]
  decide

theorem contentLengthField_toStr (length : Nat) :
    (contentLengthField length).value.toStr = some (decimal length) :=
  fromUtf8_utf8 _

/-- What a kept field is not. -/
theorem mem_kept {headers : HeaderBlock} {field : HeaderField} (h : field ∈ kept headers) :
    isHopByHopHeader field.name.text = false ∧
      (∀ token ∈ connectionTokens headers, field.name.is token = false) ∧
      field.name.is "content-length" = false := by
  have hField := (List.mem_filter.mp h).2
  rw [Bool.and_eq_true, Bool.and_eq_true] at hField
  obtain ⟨⟨hHop, hTokens⟩, hLength⟩ := hField
  rw [Bool.not_eq_true'] at hHop hTokens hLength
  exact ⟨hHop, fun token hToken => by simpa using List.any_eq_false.mp hTokens token hToken,
    hLength⟩

/-- Only the runtime's own field is a `Content-Length` afterwards. -/
theorem getAll_kept_append (headers : HeaderBlock) (emitted : Option Nat) :
    HeaderBlock.getAll (kept headers ++ (emitted.map contentLengthField).toList)
        "content-length" =
      (emitted.map fun length => (contentLengthField length).value).toList := by
  have hKept : (kept headers).filter (fun field => field.name.is "content-length") = [] := by
    rw [List.filter_eq_nil_iff]
    intro field hField
    simp only [(mem_kept hField).2.2, Bool.false_eq_true, not_false_eq_true]
  rw [HeaderBlock.getAll, List.filter_append, hKept, List.nil_append]
  cases emitted with
  | none => rfl
  | some length =>
      simp only [Option.map_some, Option.toList_some, List.filter_singleton,
        contentLengthField_is]
      rfl

theorem toStr_of_mem_getAll {headers : HeaderBlock} {emitted : Option Nat} {value : HeaderValue}
    (hValue : value ∈ HeaderBlock.getAll
      (kept headers ++ (emitted.map contentLengthField).toList) "content-length") :
    ∃ length, emitted = some length ∧ value.toStr = some (decimal length) := by
  rw [getAll_kept_append] at hValue
  cases emitted with
  | none => simp at hValue
  | some length =>
      obtain rfl : value = (contentLengthField length).value := by simpa using hValue
      exact ⟨length, rfl, contentLengthField_toStr length⟩

theorem mem_kept_append {headers : HeaderBlock} {emitted : Option Nat} {field : HeaderField}
    (hField : field ∈ kept headers ++ (emitted.map contentLengthField).toList) :
    field ∈ kept headers ∨ ∃ length, field = contentLengthField length := by
  refine (List.mem_append.mp hField).imp_right fun hAdded => ?_
  cases emitted with
  | none => simp at hAdded
  | some length => exact ⟨length, by simpa using hAdded⟩

theorem removeHeader_kept_append (headers : HeaderBlock) (emitted : Option Nat) :
    removeHeader (kept headers ++ (emitted.map contentLengthField).toList) "content-length" =
      kept headers := by
  have hKept : (kept headers).filter (fun field => !field.name.is "content-length") =
      kept headers := by
    rw [List.filter_eq_self]
    intro field hField
    simp only [(mem_kept hField).2.2, Bool.not_false]
  rw [removeHeader, List.filter_append, hKept]
  cases emitted with
  | none => exact List.append_nil _
  | some length =>
      simp only [Option.map_some, Option.toList_some, List.filter_singleton,
        contentLengthField_is, Bool.not_true]
      exact List.append_nil _

/-- Stripping keeps all values of a name or none. -/
theorem getAll_stripHopByHop (headers : HeaderBlock) (name : Str) :
    (stripHopByHop headers).getAll name =
      if isHopByHopHeader name ∨ (connectionTokens headers).any (eqIgnoreAsciiCase name) then []
      else headers.getAll name := by
  have hSame : ∀ field : HeaderField, field.name.is name = true →
      isHopByHopHeader field.name.text = isHopByHopHeader name ∧
        (connectionTokens headers).any (fun token => field.name.is token) =
          (connectionTokens headers).any (eqIgnoreAsciiCase name) := by
    intro field hField
    have hLower : field.name.text.map Char.toLower = name.map Char.toLower := by
      simpa [HeaderName.is, eqIgnoreAsciiCase] using hField
    simp only [isHopByHopHeader, HeaderName.is, eqIgnoreAsciiCase, hLower]
    exact ⟨trivial, rfl⟩
  rw [HeaderBlock.getAll, HeaderBlock.getAll, stripHopByHop, List.filter_filter]
  split
  · rename_i hStripped
    rw [List.map_eq_nil_iff, List.filter_eq_nil_iff]
    intro field _ hField
    rw [Bool.and_eq_true] at hField
    obtain ⟨hHop, hTokens⟩ := hSame field hField.1
    rw [hHop, hTokens] at hField
    rcases hStripped with hStripped | hStripped <;> simp [hStripped] at hField
  · rename_i hOther
    rw [not_or, Bool.not_eq_true, Bool.not_eq_true] at hOther
    congr 1
    refine List.filter_congr fun field _ => ?_
    cases hField : field.name.is name with
    | false => rfl
    | true =>
        obtain ⟨hHop, hTokens⟩ := hSame field hField
        rw [hHop, hTokens, hOther.1, hOther.2]
        rfl

/-- The length that normalization emits, if any. -/
structure EmitsLength (status : StatusCode) (headers : HeaderBlock) (bodyLength : BodyLength)
    (emitted : Option Nat) : Prop where
  payload : status.permitsPayloadBody = true → emitted = bodyLength.known?
  suppressed : status.permitsPayloadBody = false → status ≠ .notModified → emitted = none
  retained : status = .notModified → ∀ length, emitted = some length →
    bodyLength = .known length ∧
      ∃ value text, (stripHopByHop headers).getAll "content-length" = [value] ∧
        value.toStr = some text ∧ parseU64 text = some length

/-- The length a single `Content-Length` field spells. -/
def suppliedLength (headers : HeaderBlock) : Option Nat :=
  match headers.getAll "content-length" with
  | [value] => value.toStr.bind parseU64
  | _ => none

theorem suppliedLength_eq_some {headers : HeaderBlock} {length : Nat}
    (h : suppliedLength headers = some length) :
    ∃ value text, headers.getAll "content-length" = [value] ∧ value.toStr = some text ∧
      parseU64 text = some length := by
  unfold suppliedLength at h
  split at h
  · rename_i value hValues
    obtain ⟨text, hText, hParse⟩ := Option.bind_eq_some_iff.mp h
    exact ⟨value, text, hValues, hText, hParse⟩
  · cases h

/-- The length a pass announces. -/
def emittedLength (status : StatusCode) (headers : HeaderBlock) (bodyLength : BodyLength) :
    Option Nat :=
  if status.permitsPayloadBody then bodyLength.known?
  else if status = .notModified then
    (suppliedLength (stripHopByHop headers)).filter (fun length => bodyLength = .known length)
  else none

/-- The framing fields a pass rejects rather than repairs. -/
def FramingAccepted (status : StatusCode) (headers : HeaderBlock) (bodyLength : BodyLength) :
    Prop :=
  (status = .resetContent → (stripHopByHop headers).contains "content-length" = false) ∧
    (status = .notModified → bodyLength ≠ .unknown →
      ((stripHopByHop headers).getAll "content-length").length ≤ 1)

theorem emitsLength_emittedLength {status : StatusCode} {headers : HeaderBlock}
    {bodyLength : BodyLength} :
    EmitsLength status headers bodyLength (emittedLength status headers bodyLength) := by
  refine ⟨fun hPayload => if_pos hPayload, fun hPayload hStatus => ?_, ?_⟩
  · rw [emittedLength, hPayload, if_neg Bool.false_ne_true, if_neg hStatus]
  · rintro rfl length hEmitted
    rw [emittedLength, if_neg (by decide), if_pos rfl, Option.filter_eq_some_iff,
      decide_eq_true_eq] at hEmitted
    exact ⟨hEmitted.2, suppliedLength_eq_some hEmitted.1⟩

theorem notModifiedLength_eq_ok {headers : HeaderBlock} {bodyLength : BodyLength}
    {retained : Option Nat} :
    notModifiedLength .notModified headers bodyLength = .ok retained ↔
      (bodyLength ≠ .unknown → (headers.getAll "content-length").length ≤ 1) ∧
        retained = (suppliedLength headers).filter (fun length => bodyLength = .known length) := by
  unfold notModifiedLength
  rw [if_pos rfl]
  cases bodyLength with
  | unknown => simp [eq_comm]
  | known known =>
      simp only [HeaderBlock.getUnique, suppliedLength]
      cases headers.getAll "content-length" with
      | nil => simp [eq_comm]
      | cons value rest =>
          cases rest with
          | nil => simp [eq_comm]
          | cons second others => simp

theorem normalizeMetadata_eq_ok_iff {status : StatusCode} {headers result : HeaderBlock}
    {bodyLength : BodyLength} :
    normalizeMetadata status headers bodyLength = .ok result ↔
      FramingAccepted status headers bodyLength ∧
        result = kept headers ++
          ((emittedLength status headers bodyLength).map contentLengthField).toList := by
  have hOther : ∀ length, status ≠ .notModified →
      notModifiedLength status (stripHopByHop headers) length = .ok none := by
    intro length hStatus
    exact if_neg hStatus
  have hReset : ¬(status = .resetContent ∧
      (stripHopByHop headers).contains "content-length" = true) ↔
      (status = .resetContent → (stripHopByHop headers).contains "content-length" = false) := by
    rw [not_and, Bool.not_eq_true]
  rw [normalizeMetadata, check_bind_eq_ok, failIf_eq_ok, hReset, bind_eq_ok,
    removeHeader_stripHopByHop]
  cases hPayload : status.permitsPayloadBody with
  | true =>
      have hStatus : status ≠ .notModified := by
        rintro rfl
        exact absurd hPayload (by decide)
      rw [hOther bodyLength hStatus]
      simp only [Except.ok.injEq, exists_eq_left', if_true, emittedLength, hPayload,
        FramingAccepted, hStatus, false_implies, and_true]
      refine and_congr_right fun _ => ?_
      cases bodyLength with
      | known length =>
          change pushContentLength (kept headers) length = .ok result ↔ _
          rw [pushContentLength_eq, Except.ok.injEq, eq_comm]
          rfl
      | unknown =>
          rw [Except.ok.injEq, eq_comm, BodyLength.known?]
          exact iff_of_eq (congrArg _ (List.append_nil _).symm)
  | false =>
      simp only [Bool.false_eq_true, if_false, emittedLength, hPayload, FramingAccepted]
      by_cases hStatus : status = .notModified
      · subst hStatus
        simp only [notModifiedLength_eq_ok, if_true, true_implies, and_assoc]
        refine and_congr_right fun _ => ?_
        rw [exists_and_left]
        refine and_congr_right fun _ => ?_
        rw [exists_eq_left]
        cases (suppliedLength (stripHopByHop headers)).filter _ with
        | none => simp [eq_comm]
        | some length => simp [pushContentLength_eq, eq_comm]
      · rw [hOther bodyLength hStatus]
        simp only [Except.ok.injEq, exists_eq_left', hStatus, false_implies, and_true, if_false]
        refine and_congr_right fun _ => ?_
        rw [eq_comm]
        exact iff_of_eq (congrArg _ (List.append_nil _).symm)

/-- With a payload the framing length is that of the body. -/
theorem framingLength_of_payload {status : StatusCode} (isHead : Bool) (body : Option ResponseBody)
    (hPayload : status.permitsPayloadBody = true) :
    framingLength status isHead body = preLength isHead body := by
  simp [framingLength, hPayload]

theorem eq_known_of_known {bodyLength : BodyLength} {length : Nat}
    (h : bodyLength.known? = some length) : bodyLength = .known length := by
  cases bodyLength with
  | known known => rw [Option.some.inj h]
  | unknown => cases h

/-- The headers after normalization are the kept fields with at most one
`Content-Length` behind them. -/
theorem normalizeMetadata_eq_ok {status : StatusCode} {headers result : HeaderBlock}
    {bodyLength : BodyLength} (h : normalizeMetadata status headers bodyLength = .ok result) :
    ∃ emitted, result = kept headers ++ (emitted.map contentLengthField).toList ∧
      EmitsLength status headers bodyLength emitted := by
  obtain ⟨-, hResult⟩ := normalizeMetadata_eq_ok_iff.mp h
  exact ⟨_, hResult, emitsLength_emittedLength⟩

end Eggserve.Primitives
