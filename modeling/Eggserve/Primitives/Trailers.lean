import Eggserve.Primitives.HeaderBlock

/-! Trailers: terminal metadata, separate from the initial headers. One
validator serves every protocol. -/
namespace Eggserve.Primitives
open Rust

structure TrailerLimits where
  maxFields : Nat := 32
  maxBytes : Nat := 8 * 1024
  deriving DecidableEq, Repr

inductive TrailerValidationError where
  | forbiddenField (name : Str)
  | tooManyFields (count limit : Nat)
  | tooLarge (bytes limit : Nat)
  deriving DecidableEq

namespace TrailerValidationError

/-- The `Display` text, which reaches the consumer of the body. -/
def display : TrailerValidationError → Str
  | forbiddenField name => "forbidden trailer field: ".toList ++ name
  | tooManyFields count limit =>
      "too many trailer fields: ".toList ++ decimal count ++ " exceeds ".toList ++ decimal limit
  | tooLarge bytes limit =>
      "trailer block too large: ".toList ++ decimal bytes ++ " exceeds ".toList ++ decimal limit ++
        " bytes".toList

end TrailerValidationError

/-- Fields whose meaning the runtime owns. -/
def isForbiddenTrailerField (name : Str) : Bool :=
  ["content-length", "transfer-encoding", "trailer", "te", "connection", "keep-alive",
    "proxy-connection", "proxy-authenticate", "proxy-authorization", "upgrade", "host",
    "expect"].any fun forbidden : String => name.map Char.toLower = forbidden.toList

def trailerBlockBytes (block : HeaderBlock) : Nat :=
  (block.map fun field => (utf8 field.name.text).length + field.value.bytes.length).sum

/-- Forbidden fields come first, then the count, then the size. -/
def validateTrailers (block : HeaderBlock) (limits : TrailerLimits) :
    Except TrailerValidationError Unit := do
  forM block fun field =>
    failIf (isForbiddenTrailerField field.name.text = true)
      (.forbiddenField (field.name.text.map Char.toLower))
  failIf (block.length > limits.maxFields) (.tooManyFields block.length limits.maxFields)
  failIf (trailerBlockBytes block > limits.maxBytes)
    (.tooLarge (trailerBlockBytes block) limits.maxBytes)

/-- A block that passed validation. -/
structure Trailers where
  block : HeaderBlock
  allowed : ∀ field ∈ block, isForbiddenTrailerField field.name.text = false
  deriving DecidableEq

theorem validateTrailers_eq_ok {block : HeaderBlock} {limits : TrailerLimits} :
    validateTrailers block limits = .ok () ↔
      (∀ field ∈ block, isForbiddenTrailerField field.name.text = false) ∧
        block.length ≤ limits.maxFields ∧ trailerBlockBytes block ≤ limits.maxBytes := by
  simp only [validateTrailers, check_bind_eq_ok, forM_eq_ok, failIf_eq_ok, Bool.not_eq_true,
    Nat.not_lt]

def Trailers.withLimits (block : HeaderBlock) (limits : TrailerLimits) :
    Except TrailerValidationError Trailers :=
  match h : validateTrailers block limits with
  | .ok () => .ok ⟨block, (validateTrailers_eq_ok.mp h).1⟩
  | .error e => .error e

end Eggserve.Primitives
