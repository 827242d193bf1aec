import Eggserve.Server.Finalize

/-! The framing of a request body: what the pipeline of HTTP/1 and HTTP/2
accepts of `Content-Length` and `Transfer-Encoding`, and the length it goes on
with. -/
namespace Eggserve.Server
open Rust Eggserve.Primitives

/-- A rejection by the runtime. -/
structure ServiceError where
  status : Nat
  message : Str
  deriving DecidableEq

/-- A status that cannot be final becomes 500. -/
def ServiceError.rejected (status : Nat) (message : Str) : ServiceError :=
  ⟨if 200 ≤ status ∧ status ≤ 599 then status else 500, message⟩

namespace HyperHeaders

/-- `contains_key`. -/
def containsKey (headers : HyperHeaders) (name : Str) : Bool := !(headers.getAll name).isEmpty

/-- `get`: the first value. -/
def get (headers : HyperHeaders) (name : Str) : Option (List UInt8) := (headers.getAll name).head?

def contentLengths (headers : HyperHeaders) : List (List UInt8) := headers.getAll "content-length"

end HyperHeaders

/-- The variables of the loop over the `Content-Length` values. -/
structure LengthScan where
  count : Nat
  first : Option (List UInt8)
  conflict : Bool
  deriving DecidableEq

namespace LengthScan

def initial : LengthScan := ⟨0, none, false⟩

def next (scan : LengthScan) (value : List UInt8) : LengthScan :=
  match scan.first with
  | some first =>
      { scan with count := scan.count + 1, conflict := scan.conflict || decide (value ≠ first) }
  | none => { scan with count := scan.count + 1, first := some value }

def of (values : List (List UInt8)) : LengthScan := values.foldl next initial

theorem foldl_next (values : List (List UInt8)) (count : Nat) (first : List UInt8)
    (conflict : Bool) :
    values.foldl next ⟨count, some first, conflict⟩ =
      ⟨count + values.length, some first, conflict || values.any fun value => value ≠ first⟩ := by
  induction values generalizing count conflict with
  | nil => simp
  | cons value rest ih =>
      rw [List.foldl_cons, next, ih]
      simp [Bool.or_assoc, Nat.add_assoc, Nat.add_comm 1]

@[simp] theorem of_nil : of [] = initial := rfl

/-- The first value is kept, and every later one is compared with it. -/
@[simp] theorem of_cons (first : List UInt8) (rest : List (List UInt8)) :
    of (first :: rest) =
      ⟨rest.length + 1, some first, rest.any fun value => value ≠ first⟩ := by
  rw [of, List.foldl_cons]
  change rest.foldl next ⟨1, some first, false⟩ = _
  rw [foldl_next, Bool.false_or, Nat.add_comm]

end LengthScan

/-- A value the pipeline takes for a length: digits only, within 64 bits. -/
def validLength (value : List UInt8) : Bool :=
  (hyperToStr value).any fun text => isDigits text && (parseU64 text).isSome

/-- More than one field is a conflict or a duplicate, never a length. -/
def rejectRepeated (scan : LengthScan) : Except ServiceError Unit :=
  if 1 < scan.count then
    if scan.conflict then .error (ServiceError.rejected 400 "conflicting Content-Length headers")
    else .error (ServiceError.rejected 400 "duplicate Content-Length headers")
  else .ok ()

def validateBodyFraming (headers : HyperHeaders) : Except ServiceError Unit := do
  let scan := LengthScan.of headers.contentLengths
  failIf (headers.containsKey "transfer-encoding" = true ∧ scan.count ≠ 0)
    (ServiceError.rejected 400 "conflicting Transfer-Encoding and Content-Length")
  rejectRepeated scan
  failIf (scan.first.any (fun first => !validLength first) = true)
    (ServiceError.rejected 400 "invalid Content-Length")

def declaredLength (headers : HyperHeaders) : Option Nat :=
  ((headers.get "content-length").bind hyperToStr).bind parseU64

/-- The framing check and the length the pipeline continues with. -/
def framedLength (headers : HyperHeaders) : Except ServiceError (Option Nat) := do
  validateBodyFraming headers
  return declaredLength headers

theorem rejectRepeated_eq_ok {scan : LengthScan} :
    rejectRepeated scan = .ok () ↔ scan.count ≤ 1 := by
  unfold rejectRepeated
  split_ifs with hRepeated hConflict
  · exact ⟨nofun, fun hOnce => absurd hRepeated (Nat.not_lt.mpr hOnce)⟩
  · exact ⟨nofun, fun hOnce => absurd hRepeated (Nat.not_lt.mpr hOnce)⟩
  · exact ⟨fun _ => Nat.not_lt.mp hRepeated, fun _ => rfl⟩

/-- At most one value is let through, a valid one and without a transfer coding
beside it. -/
theorem validateBodyFraming_eq_ok {headers : HyperHeaders} :
    validateBodyFraming headers = .ok () ↔
      headers.contentLengths = [] ∨
        ∃ value, headers.contentLengths = [value] ∧ validLength value = true ∧
          headers.containsKey "transfer-encoding" = false := by
  rw [validateBodyFraming, check_bind_eq_ok, check_bind_eq_ok, rejectRepeated_eq_ok, failIf_eq_ok,
    failIf_eq_ok]
  cases headers.contentLengths with
  | nil => simp [LengthScan.initial]
  | cons first rest =>
      cases rest with
      | nil => simp [and_comm]
      | cons second rest => simp

theorem framedLength_eq_ok {headers : HyperHeaders} {length : Option Nat} :
    framedLength headers = .ok length ↔
      validateBodyFraming headers = .ok () ∧ declaredLength headers = length := by
  rw [framedLength, check_bind_eq_ok]
  simp [pure, Except.pure]

/-! What a value is. -/

theorem hyperToStr_eq_some {value : List UInt8} {text : Str} :
    hyperToStr value = some text ↔ value = utf8 text ∧ (utf8 text).all isVisibleAscii = true := by
  unfold hyperToStr
  split_ifs with hVisible
  · rw [fromUtf8_eq_some_iff]
    constructor
    · intro hValue
      rw [hValue] at hVisible
      exact ⟨hValue, hVisible⟩
    · exact And.left
  · simp only [false_iff, not_and]
    intro hValue
    rwa [hValue] at hVisible

/-- A text of ASCII characters from the visible range is read back from its bytes. -/
theorem hyperToStr_utf8 {text : Str} (h : ∀ c ∈ text, 32 ≤ c.toNat ∧ c.toNat < 127) :
    hyperToStr (utf8 text) = some text := by
  rw [hyperToStr_eq_some]
  constructor
  · rfl
  · rw [List.all_eq_true]
    intro b hb
    obtain ⟨c, hc, hEncoded⟩ := List.mem_flatMap.mp hb
    have hRange := h c hc
    rw [utf8EncodeChar_ascii (by omega), List.mem_singleton] at hEncoded
    have hNat : b.toNat = c.toNat := by
      rw [hEncoded, toNat_ofNat_of_ascii (by omega)]
    simp only [isVisibleAscii, Bool.or_eq_true, Bool.and_eq_true, decide_eq_true_eq,
      UInt8.le_iff_toNat_le, UInt8.lt_iff_toNat_lt]
    left
    constructor
    · simpa [hNat] using hRange.1
    · simpa [hNat] using hRange.2

theorem visible_of_isDigit {c : Char} (h : c.isDigit = true) : 32 ≤ c.toNat ∧ c.toNat < 127 := by
  have hDigit : 48 ≤ c.toNat ∧ c.toNat ≤ 57 := by
    simpa [Char.isDigit, UInt32.le_iff_toNat_le] using h
  omega

theorem isDigit_of_isDigits {text : Str} (h : isDigits text = true) :
    ∀ c ∈ text, c.isDigit = true := by
  simp only [isDigits, Bool.and_eq_true] at h
  exact List.all_eq_true.mp h.2

theorem hyperToStr_of_isDigits {text : Str} (h : isDigits text = true) :
    hyperToStr (utf8 text) = some text :=
  hyperToStr_utf8 fun c hc => visible_of_isDigit (isDigit_of_isDigits h c hc)

/-- The values let through are the texts of the numbers of 64 bits. -/
theorem validLength_iff {value : List UInt8} :
    validLength value = true ↔
      ∃ text, value = utf8 text ∧ isDigits text = true ∧ decimalValue text ≤ u64Max := by
  unfold validLength
  constructor
  · intro hValid
    obtain ⟨text, hText, hNumber⟩ := (Option.any_eq_true _ _).mp hValid
    rw [Bool.and_eq_true] at hNumber
    obtain ⟨hDigits, hSome⟩ := hNumber
    rw [parseU64_of_isDigits hDigits] at hSome
    exact ⟨text, (hyperToStr_eq_some.mp hText).1, hDigits, by simpa using hSome⟩
  · rintro ⟨text, rfl, hDigits, hMax⟩
    simp [hyperToStr_of_isDigits hDigits, hDigits, parseU64_of_isDigits hDigits, hMax]

end Eggserve.Server
