import Eggserve.Primitives.Canonical.Response

/-! Response bodies on the wire: the bytes that the transport adapter takes
from a canonical body. -/
namespace Eggserve.Server
open Rust Eggserve.Primitives

/-- The frames a body yields and the error that ends it, if any. -/
structure BodyFrames where
  frames : List (List UInt8)
  error : Option Primitives.IoError
  deriving DecidableEq

/-- The unfold of `file_body`: a chunk is sent only if it is full. -/
def fileFrames (content : List UInt8) (chunkSize offset remaining : Nat) : BodyFrames :=
  if remaining = 0 then ⟨[], none⟩
  else
    let chunkLen := min remaining chunkSize
    let buffer := (content.drop offset).take chunkLen
    if buffer.length = 0 ∨ buffer.length < chunkLen then ⟨[], some .unexpectedEof⟩
    else
      let rest := fileFrames content chunkSize (offset + buffer.length) (remaining - buffer.length)
      ⟨buffer :: rest.frames, rest.error⟩
termination_by remaining
decreasing_by
  rename_i hShort
  simp only [buffer, chunkLen, List.length_take] at hShort ⊢
  omega

def fileBody (chunkSize : Nat) : BodySource → BodyFrames
  | .empty => ⟨[[]], none⟩
  | .bytes data => ⟨[data], none⟩
  | .fileFull file len _ => fileFrames file.content chunkSize 0 len
  | .fileRange file range _ _ => fileFrames file.content chunkSize range.start range.len

/-- The data of a stream up to its first error. -/
def streamData : List (Except Str (List UInt8)) → List UInt8
  | .ok chunk :: rest => chunk ++ streamData rest
  | _ => []

/-- The bytes that reach the wire. -/
def wireBytes (chunkSize : Nat) : Option ResponseBody → List UInt8
  | none => []
  | some .empty => []
  | some (.bytes data) => data
  | some (.file source) => (fileBody chunkSize source).frames.flatten
  | some (.stream producer) => streamData producer.items
  | some (.emptyWithLength _) => []

/-- As long as the file has the bytes, the frames are exactly the bytes asked
for. The induction follows the unfold. -/
theorem fileFrames_flatten (content : List UInt8) {chunkSize : Nat} (hChunk : 0 < chunkSize)
    (offset remaining : Nat) (hFile : offset + remaining ≤ content.length) :
    (fileFrames content chunkSize offset remaining).frames.flatten =
        (content.drop offset).take remaining ∧
      (fileFrames content chunkSize offset remaining).error = none := by
  induction offset, remaining using fileFrames.induct content chunkSize with
  | case1 offset =>
      rw [fileFrames, if_pos rfl]
      simp
  | case2 offset remaining hZero chunkLen buffer hShort =>
      have hLength : buffer.length = chunkLen := by
        simp only [buffer, chunkLen, List.length_take, List.length_drop]
        omega
      omega
  | case3 offset remaining hZero chunkLen buffer hShort ih =>
      have hLength : buffer.length = chunkLen := by
        simp only [buffer, chunkLen, List.length_take, List.length_drop]
        omega
      obtain ⟨hFrames, hError⟩ := ih (by omega)
      rw [fileFrames, if_neg hZero, if_neg hShort]
      refine ⟨?_, hError⟩
      have hSplit : remaining = chunkLen + (remaining - chunkLen) := by omega
      rw [List.flatten_cons, hFrames, hLength, ← List.drop_drop]
      conv_rhs => rw [hSplit, List.take_add]

/-- What a body must still do after it was announced: a stream yields its
declared length, and a file has the bytes its source names. -/
def KeepsPromise (chunkSize : Nat) : Option ResponseBody → Prop
  | some (.stream producer) =>
      ∀ length, producer.knownLength = some length → (streamData producer.items).length = length
  | some (.file (.fileFull file len _)) => 0 < chunkSize ∧ len ≤ file.content.length
  | some (.file (.fileRange file range _ _)) =>
      0 < chunkSize ∧ range.start + range.len ≤ file.content.length
  | _ => True

/-- A body that keeps its promise produces the length it announces. -/
theorem length_wireBytes {chunkSize : Nat} {body : ResponseBody} {length : Nat}
    (hBody : ∀ announced, body ≠ .emptyWithLength announced)
    (hPromise : KeepsPromise chunkSize (some body)) (hLength : body.bodyLength = .known length) :
    (wireBytes chunkSize (some body)).length = length := by
  cases body with
  | empty => simpa [ResponseBody.bodyLength, wireBytes] using hLength
  | bytes data => simpa [ResponseBody.bodyLength, wireBytes] using hLength
  | emptyWithLength announced => exact absurd rfl (hBody announced)
  | stream producer =>
      cases hKnown : producer.knownLength with
      | none => simp [ResponseBody.bodyLength, hKnown] at hLength
      | some declared =>
          obtain rfl : declared = length := by
            simpa [ResponseBody.bodyLength, hKnown] using hLength
          exact hPromise declared hKnown
  | file source =>
      obtain rfl : source.len = length := by simpa [ResponseBody.bodyLength] using hLength
      cases source with
      | empty => rfl
      | bytes data => simp [wireBytes, fileBody, BodySource.len]
      | fileFull file len mime =>
          obtain ⟨hChunk, hFile⟩ := hPromise
          rw [wireBytes, fileBody, (fileFrames_flatten _ hChunk 0 len (by omega)).1]
          rw [List.length_take, List.length_drop, BodySource.len]
          omega
      | fileRange file range totalLen mime =>
          obtain ⟨hChunk, hFile⟩ := hPromise
          rw [wireBytes, fileBody, (fileFrames_flatten _ hChunk range.start range.len hFile).1,
            List.length_take, List.length_drop, BodySource.len]
          omega

/-- A normalized response against the response it came from. -/
structure NormalizedExactly (response : Response) (isHead : Bool) (result : Response) : Prop where
  status_eq : result.status = response.status
  no_hop_by_hop : ∀ field ∈ result.headers, isHopByHopHeader field.name.text = false
  /-- Only the runtime's own field may carry a nominated name. -/
  no_nominated : ∀ field ∈ result.headers, ∀ token ∈ connectionTokens response.headers,
    field.name.is token = true → field.name.is "content-length" = true
  others_kept : removeHeader result.headers "content-length" = kept response.headers
  single_length : (result.headers.getAll "content-length").length ≤ 1
  payload_length : response.status.permitsPayloadBody = true →
    (result.headers.getAll "content-length").map HeaderValue.toStr =
      ((preLength isHead response.body).known?.map fun length => some (decimal length)).toList
  suppressed_length : response.status.permitsPayloadBody = false →
    response.status ≠ .notModified → result.headers.getAll "content-length" = []
  retained_length : response.status = .notModified →
    ∀ value ∈ result.headers.getAll "content-length", ∃ supplied text length,
      response.headers.getAll "content-length" = [supplied] ∧ supplied.toStr = some text ∧
        parseU64 text = some length ∧ preLength isHead response.body = .known length ∧
        value.toStr = some (decimal length)
  no_bytes : isHead = true ∨ response.status.permitsPayloadBody = false →
    ∀ chunkSize, wireBytes chunkSize result.body = []
  framed_bytes : isHead = false → response.status.permitsPayloadBody = true →
    ∀ chunkSize, KeepsPromise chunkSize result.body →
      ∀ value ∈ result.headers.getAll "content-length",
        value.toStr = some (decimal (wireBytes chunkSize result.body).length)

theorem suppressBody_wire {status : StatusCode} {isHead : Bool} (body : Option ResponseBody)
    (chunkSize : Nat) (h : isHead = true ∨ status.permitsPayloadBody = false) :
    wireBytes chunkSize (suppressBody status isHead body) = [] := by
  cases hPayload : status.permitsPayloadBody with
  | false => simp [suppressBody, hPayload, wireBytes]
  | true =>
      obtain rfl : isHead = true := by simpa [hPayload] using h
      cases hLength : preLength true body <;>
        simp [suppressBody, hPayload, hLength, wireBytes]

/-- Outside suppression the body that is sent is the one whose length was taken. -/
theorem length_suppressBody {status : StatusCode} {body : Option ResponseBody}
    {chunkSize length : Nat} (hPayload : status.permitsPayloadBody = true)
    (hPromise : KeepsPromise chunkSize (suppressBody status false body))
    (hLength : preLength false body = .known length) :
    (wireBytes chunkSize (suppressBody status false body)).length = length := by
  have hBody : suppressBody status false body = collapseEmptyWithLength false body := by
    simp [suppressBody, hPayload]
  rw [hBody] at hPromise ⊢
  unfold preLength at hLength
  cases hCollapse : collapseEmptyWithLength false body with
  | none => simpa [hCollapse, wireBytes] using hLength
  | some sent =>
      rw [hCollapse] at hPromise hLength
      refine length_wireBytes (fun announced hEq => ?_) hPromise hLength
      rw [hEq] at hCollapse
      unfold collapseEmptyWithLength at hCollapse
      split at hCollapse <;> simp_all

/-- Normalization of a fresh response decides its headers and its body exactly. -/
theorem normalizeResponse_exact {response result : Response} {isHead : Bool}
    (hFresh : response.normalized = false) (h : normalizeResponse response isHead = .ok result) :
    NormalizedExactly response isHead result := by
  simp only [normalizeResponse, hFresh, Bool.false_eq_true, ↓reduceIte] at h
  obtain ⟨headers, hHeaders, h⟩ := bind_eq_ok.mp h
  obtain rfl := Except.ok.inj h
  obtain ⟨emitted, hResult, hEmits⟩ := normalizeMetadata_eq_ok hHeaders
  subst hResult
  have hValues := getAll_kept_append response.headers emitted
  refine ⟨rfl, ?noHopByHop, ?noNominated, ?othersKept, ?single, ?payload, ?suppressed, ?retained,
    ?noBytes, ?framed⟩
  case noHopByHop =>
    intro field hMember
    rcases mem_kept_append hMember with hKept | ⟨length, rfl⟩
    · exact (mem_kept hKept).1
    · exact contentLengthField_not_hop_by_hop length
  case noNominated =>
    intro field hMember token hToken hNamed
    rcases mem_kept_append hMember with hKept | ⟨length, rfl⟩
    · rw [(mem_kept hKept).2.1 token hToken] at hNamed
      exact absurd hNamed (by decide)
    · exact contentLengthField_is length
  case othersKept => exact removeHeader_kept_append response.headers emitted
  case single =>
    rw [hValues]
    cases emitted <;> simp
  case payload =>
    intro hPayload
    rw [hValues, ← framingLength_of_payload isHead response.body hPayload,
      ← hEmits.payload hPayload]
    cases emitted with
    | none => rfl
    | some length => exact congrArg (fun text => [text]) (contentLengthField_toStr length)
  case suppressed =>
    intro hPayload hStatus
    rw [hValues, hEmits.suppressed hPayload hStatus]
    rfl
  case retained =>
    intro hStatus value hValue
    obtain ⟨length, hEmitted, hText⟩ := toStr_of_mem_getAll hValue
    obtain ⟨hLength, supplied, text, hSupplied, hSuppliedText, hParse⟩ :=
      hEmits.retained hStatus length hEmitted
    rw [getAll_stripHopByHop] at hSupplied
    split at hSupplied
    · cases hSupplied
    · simp only [framingLength, hStatus, ne_eq, not_true_eq_false, decide_false, Bool.and_false,
        Bool.false_eq_true, ↓reduceIte] at hLength
      exact ⟨supplied, text, length, hSupplied, hSuppliedText, hParse, hLength, hText⟩
  case noBytes =>
    intro hSuppressed chunkSize
    exact suppressBody_wire response.body chunkSize hSuppressed
  case framed =>
    intro hGet hPayload chunkSize hPromise value hValue
    subst hGet
    obtain ⟨length, hEmitted, hText⟩ := toStr_of_mem_getAll hValue
    have hLength := hEmits.payload hPayload
    rw [hEmitted, framingLength_of_payload false response.body hPayload] at hLength
    have hKnown := eq_known_of_known hLength.symm
    rw [hText, length_suppressBody hPayload hPromise hKnown]

/-- A response that nominates the runtime's own framing field. -/
def nominatingResponse : Response where
  status := .ok
  headers := [
    ⟨⟨"Connection", by decide⟩, ⟨utf8 "content-length", by decide +kernel, by decide +kernel⟩⟩,
    ⟨⟨"X-Kept", by decide⟩, ⟨utf8 "1", by decide +kernel, by decide +kernel⟩⟩]
  body := some (.bytes [104, 105])
  normalized := false

theorem normalizeResponse_exact_nominating :
    ∃ result, normalizeResponse nominatingResponse false = .ok result ∧
      NormalizedExactly nominatingResponse false result := by
  have hOk : normalizeResponse nominatingResponse false = .ok {
      nominatingResponse with
      headers := [nominatingResponse.headers.getLast (by decide), contentLengthField 2]
      normalized := true } := by decide +kernel
  exact ⟨_, hOk, normalizeResponse_exact rfl hOk⟩

/-- The field the runtime adds is itself named by the `Connection` value. -/
theorem nominated_content_length_emitted :
    ∃ result, normalizeResponse nominatingResponse false = .ok result ∧
      ∃ field ∈ result.headers, ∃ token ∈ connectionTokens nominatingResponse.headers,
        field.name.is token = true := by
  have hOk : normalizeResponse nominatingResponse false = .ok {
      nominatingResponse with
      headers := [nominatingResponse.headers.getLast (by decide), contentLengthField 2]
      normalized := true } := by decide +kernel
  refine ⟨_, hOk, contentLengthField 2, by simp, "content-length", ?_, ?_⟩ <;> decide +kernel

end Eggserve.Server
