import Eggserve.Server.BodyFraming

/-! The declared length of an HTTP/3 request, against the one that the pipeline
of HTTP/1 and HTTP/2 reads from the same values. -/
namespace Eggserve.H3
open Rust Eggserve.Server

/-- `declared_content_length`. -/
def declaredContentLength (headers : HyperHeaders) : Except ServiceError (Option Nat) := do
  let values := headers.contentLengths
  failIf (1 < values.length) (ServiceError.rejected 400 "duplicate Content-Length headers")
  match values.head? with
  | none => return none
  | some value =>
      match (hyperToStr value).bind parseU64 with
      | some length => return some length
      | none => Except.error (ServiceError.rejected 400 "invalid Content-Length header")

/-- The length a message has by its `Content-Length` values alone: none without
a value, the number of a single digit string, nothing else. -/
inductive LengthOf : List (List UInt8) → Option Nat → Prop where
  | absent : LengthOf [] none
  | digits {text : Str} (hDigits : isDigits text = true) :
      LengthOf [utf8 text] (some (decimalValue text))

/-- Both front ends reject the values, or both continue with the length they
have. -/
def ReadAlike (headers : HyperHeaders) : Prop :=
  (∃ first second, framedLength headers = .error first ∧
      declaredContentLength headers = .error second) ∨
    ∃ length, framedLength headers = .ok length ∧ declaredContentLength headers = .ok length ∧
      LengthOf headers.contentLengths length

/-- A single value that is a plus sign and a number of 64 bits. -/
def SignedLength (headers : HyperHeaders) : Prop :=
  ∃ digits, isDigits digits = true ∧ decimalValue digits ≤ u64Max ∧
    headers.contentLengths = [utf8 ('+' :: digits)]

theorem declaredContentLength_eq_ok {headers : HyperHeaders} {length : Option Nat} :
    declaredContentLength headers = .ok length ↔
      headers.contentLengths = [] ∧ length = none ∨
        ∃ value n, headers.contentLengths = [value] ∧ length = some n ∧
          (hyperToStr value).bind parseU64 = some n := by
  rw [declaredContentLength, check_bind_eq_ok, failIf_eq_ok]
  cases headers.contentLengths with
  | nil => simp [pure, Except.pure, eq_comm]
  | cons value rest =>
      cases rest with
      | cons second rest => simp
      | nil =>
          cases hRead : (hyperToStr value).bind parseU64 with
          | none => simp [hRead]
          | some n => simp [hRead, pure, Except.pure, eq_comm]

/-! The two readings differ on the sign alone. -/

theorem hyperToStr_signed {digits : Str} (h : isDigits digits = true) :
    hyperToStr (utf8 ('+' :: digits)) = some ('+' :: digits) := by
  apply hyperToStr_utf8
  intro c hc
  rcases List.mem_cons.mp hc with rfl | hDigit
  · decide
  · exact visible_of_isDigit (isDigit_of_isDigits h c hDigit)

/-- What `parse::<u64>` accepts beyond the digit strings. -/
theorem parseU64_eq_some {text : Str} {n : Nat} (h : parseU64 text = some n) :
    isDigits text = true ∧ n = decimalValue text ∧ decimalValue text ≤ u64Max ∨
      ∃ digits, text = '+' :: digits ∧ isDigits digits = true ∧ decimalValue digits ≤ u64Max := by
  unfold parseU64 at h
  by_cases hSign : text.head? = some '+'
  · obtain ⟨digits, rfl⟩ := List.head?_eq_some_iff.mp hSign
    right
    refine ⟨digits, rfl, ?_⟩
    simpa using (Option.ite_none_right_eq_some.mp h).1
  · left
    obtain ⟨hNumber, hValue⟩ := Option.ite_none_right_eq_some.mp h
    simp only [hSign, ↓reduceIte, Bool.and_eq_true, decide_eq_true_eq] at hNumber hValue
    exact ⟨hNumber.1, (Option.some.inj hValue).symm, hNumber.2⟩

theorem parseU64_signed {digits : Str} (hDigits : isDigits digits = true)
    (hMax : decimalValue digits ≤ u64Max) :
    parseU64 ('+' :: digits) = some (decimalValue digits) := by
  simp [parseU64, hDigits, hMax]

theorem not_isDigits_signed (digits : Str) : isDigits ('+' :: digits) = false := by
  simp [isDigits]

/-- A length that the pipeline goes on with is the one of HTTP/3. -/
theorem readAlike_of_framed {headers : HyperHeaders} {length : Option Nat}
    (h : framedLength headers = .ok length) : ReadAlike headers := by
  right
  obtain ⟨hValid, rfl⟩ := framedLength_eq_ok.mp h
  refine ⟨declaredLength headers, h, ?_⟩
  rw [declaredContentLength_eq_ok]
  rcases validateBodyFraming_eq_ok.mp hValid with hAbsent | ⟨value, hSingle, hLength, -⟩
  · have hNone : declaredLength headers = none := by
      rw [declaredLength, HyperHeaders.get, ← HyperHeaders.contentLengths, hAbsent]
      rfl
    rw [hNone, hAbsent]
    exact ⟨Or.inl ⟨rfl, rfl⟩, LengthOf.absent⟩
  · obtain ⟨text, rfl, hDigits, hMax⟩ := validLength_iff.mp hLength
    have hRead : (hyperToStr (utf8 text)).bind parseU64 = some (decimalValue text) := by
      rw [hyperToStr_of_isDigits hDigits, Option.bind_some, parseU64_of_isDigits hDigits,
        if_pos hMax]
    have hSome : declaredLength headers = some (decimalValue text) := by
      rw [declaredLength, HyperHeaders.get, ← HyperHeaders.contentLengths, hSingle]
      exact hRead
    rw [hSome, hSingle]
    exact ⟨Or.inr ⟨utf8 text, decimalValue text, rfl, rfl, hRead⟩, LengthOf.digits hDigits⟩

/-- What HTTP/3 accepts and the pipeline rejects carries a sign. -/
theorem signedLength_of_rejected {headers : HyperHeaders} {length : Option Nat}
    (hTe : headers.containsKey "transfer-encoding" = false)
    (hFramed : ∀ other, framedLength headers ≠ .ok other)
    (h : declaredContentLength headers = .ok length) : SignedLength headers := by
  have hRejected : validateBodyFraming headers ≠ .ok () := fun hValid =>
    hFramed (declaredLength headers) (framedLength_eq_ok.mpr ⟨hValid, rfl⟩)
  rw [Ne, validateBodyFraming_eq_ok, not_or] at hRejected
  rcases declaredContentLength_eq_ok.mp h with ⟨hAbsent, -⟩ | ⟨value, n, hSingle, -, hRead⟩
  · exact absurd hAbsent hRejected.1
  · obtain ⟨text, hText, hParse⟩ := Option.bind_eq_some_iff.mp hRead
    obtain ⟨rfl, -⟩ := hyperToStr_eq_some.mp hText
    rcases parseU64_eq_some hParse with ⟨hDigits, -, hMax⟩ | ⟨digits, rfl, hDigits, hMax⟩
    · exact absurd ⟨utf8 text, hSingle, validLength_iff.mpr ⟨text, rfl, hDigits, hMax⟩, hTe⟩
        hRejected.2
    · exact ⟨digits, hDigits, hMax, hSingle⟩

theorem not_readAlike_of_signed {headers : HyperHeaders} (h : SignedLength headers) :
    ¬ReadAlike headers := by
  obtain ⟨digits, hDigits, hMax, hSingle⟩ := h
  have hAccepted : declaredContentLength headers = .ok (some (decimalValue digits)) := by
    rw [declaredContentLength_eq_ok]
    refine Or.inr ⟨utf8 ('+' :: digits), decimalValue digits, hSingle, rfl, ?_⟩
    rw [hyperToStr_signed hDigits, Option.bind_some, parseU64_signed hDigits hMax]
  rintro (⟨first, second, -, hError⟩ | ⟨length, -, -, hLength⟩)
  · rw [hAccepted] at hError
    cases hError
  · rw [hSingle] at hLength
    generalize hValue : [utf8 ('+' :: digits)] = values at hLength
    cases hLength with
    | absent => cases hValue
    | digits hOther =>
        rw [← utf8_injective (List.singleton_inj.mp hValue), not_isDigits_signed] at hOther
        cases hOther

/-- Without a transfer coding the front ends read a message's length alike
exactly when it is not a signed number. -/
theorem content_length_read_alike_iff (headers : HyperHeaders)
    (hTe : headers.containsKey "transfer-encoding" = false) :
    ReadAlike headers ↔ ¬SignedLength headers := by
  constructor
  · exact fun hAlike hSigned => not_readAlike_of_signed hSigned hAlike
  · intro hUnsigned
    cases hFramed : framedLength headers with
    | ok length => exact readAlike_of_framed hFramed
    | error first =>
        cases hDeclared : declaredContentLength headers with
        | error second => exact Or.inl ⟨first, second, hFramed, hDeclared⟩
        | ok length =>
            have hNever : ∀ other, framedLength headers ≠ .ok other := by
              intro other hOther
              rw [hFramed] at hOther
              cases hOther
            exact absurd (signedLength_of_rejected hTe hNever hDeclared) hUnsigned

/-- A request with the single field `content-length: value`. -/
def lengthField (value : Str) : HyperHeaders := [⟨"content-length", utf8 value⟩]

theorem content_length_read_alike_five : ReadAlike (lengthField "5") := by
  refine (content_length_read_alike_iff (lengthField "5") (by decide)).mpr ?_
  rintro ⟨digits, -, -, hSingle⟩
  have hFive : (lengthField "5").contentLengths = [utf8 ("5" : Str)] := by decide
  rw [hFive] at hSingle
  have hText := utf8_injective (List.singleton_inj.mp hSingle)
  cases hText

/-- HTTP/3 goes on with five octets where the pipeline rejects the request. -/
theorem signed_content_length_accepted :
    (lengthField "+5").containsKey "transfer-encoding" = false ∧
      declaredContentLength (lengthField "+5") = .ok (some 5) ∧
      ¬ReadAlike (lengthField "+5") := by
  have hSigned : SignedLength (lengthField "+5") := ⟨['5'], by decide, by decide, by decide⟩
  exact ⟨by decide, by rfl, not_readAlike_of_signed hSigned⟩

end Eggserve.H3
