import Eggserve.Primitives.ForwardedSyntax

/-! Forwarded metadata fails closed: what a request must meet for its metadata to
be adopted, and what of this the parsers do not look at. -/
namespace Eggserve.Primitives
open Rust

/-! The condition. -/

namespace ForwardedValues
variable (values : ForwardedValues)

end ForwardedValues

/-- Two clients in one element. -/
def twoClients : HeaderBlock :=
  [⟨forwardedName, ⟨utf8 "for=192.0.2.1;for=192.0.2.2", by decide, by decide⟩⟩]

end Eggserve.Primitives
