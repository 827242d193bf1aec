import Eggserve.Primitives.Trailers

/-! Application streams as a transport sees them: what each poll of the producer
gives, and the trailers behind the data. -/
namespace Eggserve.Primitives
open Rust

/-- What one poll of the producer comes to. It ends when nothing is left. -/
inductive ProducerPoll where
  | pending
  | chunk (data : List UInt8)
  | error
  | panic
  deriving DecidableEq

inductive TrailerOutcome where
  | absent
  | block (trailers : Trailers)
  | error
  | panic
  deriving DecidableEq

/-- The future of the trailers: how often it is pending, and its outcome. -/
structure TrailerFuture where
  pendingPolls : Nat
  outcome : TrailerOutcome
  deriving DecidableEq

/-- The trailer names announced with the head. -/
structure TrailerDeclaration where
  names : List HeaderName
  nonempty : names ≠ []
  allowed : ∀ name ∈ names, isForbiddenTrailerField name.text = false
  deriving DecidableEq

namespace TrailerDeclaration

def contains (declaration : TrailerDeclaration) (name : Str) : Bool :=
  declaration.names.any (·.is name)

end TrailerDeclaration

/-- A one-shot stream with its parts. -/
structure StreamParts where
  items : List ProducerPoll
  knownLength : Option Nat
  trailers : Option TrailerFuture
  trailerDeclaration : Option TrailerDeclaration
  bounded : ∀ length, knownLength = some length → length ≤ u64Max

/-- The data of all chunks that the producer has. -/
def producedData : List ProducerPoll → List UInt8
  | [] => []
  | .chunk data :: rest => data ++ producedData rest
  | _ :: rest => producedData rest

end Eggserve.Primitives
