import Eggserve.Primitives.Canonical.Response

/-! Interim responses. They have no content, so framing is refused and not
stripped. -/
namespace Eggserve.Primitives
open Rust

inductive InterimError where
  | notInterim (code : Nat)
  | invalidHeader (error : HeaderError)
  | forbiddenHeader (name : Str)
  | tooMany (count limit : Nat)
  | tooLarge (bytes limit : Nat)
  | afterCommit
  | duplicateContinue
  | invalidLimits (message : Str)
  deriving DecidableEq

def normalizeInterimHeaders (headers : HeaderBlock) : Except InterimError HeaderBlock := do
  forM ["content-length", "transfer-encoding"] fun name : String =>
    failIf (headers.contains name = true) (.forbiddenHeader name)
  return headers.filter fun field => !isHopByHopHeader field.name.text

/-- The fields of an interim response are the end-to-end fields of a block
without framing. -/
theorem normalizeInterimHeaders_eq_ok {headers accepted : HeaderBlock} :
    normalizeInterimHeaders headers = .ok accepted ↔
      headers.contains "content-length" = false ∧
      headers.contains "transfer-encoding" = false ∧
      accepted = headers.filter fun field => !isHopByHopHeader field.name.text := by
  simp only [normalizeInterimHeaders, check_bind_eq_ok, forM_eq_ok, failIf_eq_ok,
    List.forall_mem_cons, List.not_mem_nil, Bool.not_eq_true]
  constructor
  · rintro ⟨⟨hLength, hCoding, -⟩, hAccepted⟩
    exact ⟨hLength, hCoding, (Except.ok.inj hAccepted).symm⟩
  · rintro ⟨hLength, hCoding, rfl⟩
    exact ⟨⟨hLength, hCoding, fun _ hMem => absurd hMem not_false⟩, rfl⟩

end Eggserve.Primitives
