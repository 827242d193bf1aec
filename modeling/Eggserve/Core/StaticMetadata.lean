import Eggserve.Static.ExtraHeaders

/-! The representation metadata of an operator, checked before a server is activated. -/
namespace Eggserve.Core
open Rust Eggserve.Primitives

def defaultMaxExtraHeaders : Nat := 32
def defaultMaxExtraHeaderBytes : Nat := 8 * 1024

/-- The names of the runtime and of the representation. -/
def ownedNames : List Str :=
  ["content-length".toList, "date".toList, "server".toList, "content-type".toList,
    "content-range".toList, "accept-ranges".toList, "etag".toList, "last-modified".toList,
    "x-content-type-options".toList]

def invalidExtra (e : HeaderError) : Str := "invalid extra response header: ".toList ++ e.display

/-- One turn of the loop over the headers. -/
def validateExtraHeader (header : Str × Str) : Except Str Unit := do
  let _ ← (HeaderName.new header.1).mapError invalidExtra
  let canonical ← (HeaderValue.new header.2).mapError invalidExtra
  failIf (canonical.bytes.isEmpty = true)
    ("invalid extra response header: value for ".toList ++ header.1 ++
      " must contain non-whitespace".toList)
  let lower := header.1.map Char.toLower
  failIf (isHopByHopHeader lower = true ∨ lower ∈ ownedNames)
    ("extra response header is runtime- or representation-owned: ".toList ++ header.1)

/-- A sum that does not fit a `usize` is above the bound as well. -/
def validateStaticMetadataWithLimits (defaultContentType : Str)
    (extraResponseHeaders : List (Str × Str)) (maxExtraHeaders maxExtraHeaderBytes : Nat) :
    Except Str Unit := do
  let contentType ← (HeaderValue.new defaultContentType).mapError fun e =>
    "invalid default content type: ".toList ++ e.display
  failIf (contentType.bytes.isEmpty = true)
    "default content type must be a non-empty value without CR/LF/NUL"
  failIf (maxExtraHeaders < extraResponseHeaders.length)
    ("too many extra response headers: maximum is ".toList ++ decimal maxExtraHeaders)
  failIf (maxExtraHeaderBytes <
      (extraResponseHeaders.map fun header =>
        (utf8 header.1).length + (utf8 header.2).length).sum)
    ("extra response headers exceed maximum size of ".toList ++ decimal maxExtraHeaderBytes ++
      " bytes".toList)
  forM extraResponseHeaders validateExtraHeader

def validateStaticMetadata (defaultContentType : Str)
    (extraResponseHeaders : List (Str × Str)) : Except Str Unit :=
  validateStaticMetadataWithLimits defaultContentType extraResponseHeaders
    defaultMaxExtraHeaders defaultMaxExtraHeaderBytes

theorem isHopByHopHeader_lower (name : Str) :
    isHopByHopHeader (name.map Char.toLower) = isHopByHopHeader name := by
  unfold isHopByHopHeader
  congr 1
  funext candidate
  exact eqIgnoreAsciiCase_lower name candidate

/-- A header that passes the loop reaches the responses of the static service. -/
theorem validExtra_of_validated {header : Str × Str}
    (h : validateExtraHeader header = .ok ()) : Static.ValidExtra ⟨header.1, header.2⟩ := by
  obtain ⟨name, hName, h⟩ := bind_eq_ok.mp h
  obtain ⟨value, hValue, h⟩ := bind_eq_ok.mp h
  obtain ⟨-, h⟩ := check_bind_eq_ok.mp h
  obtain ⟨hHop, hOwned⟩ := not_or.mp (failIf_eq_ok.mp h)
  rw [isHopByHopHeader_lower, Bool.not_eq_true] at hHop
  refine ⟨⟨⟨name, value⟩, mapError_eq_ok.mp hName, mapError_eq_ok.mp hValue⟩, hHop, ?_⟩
  apply eq_false_of_ne_true
  intro hLength
  have hLower : header.1.map Char.toLower = "content-length".toList := by
    have hSame := of_decide_eq_true hLength
    rw [hSame]
    decide
  exact hOwned (hLower ▸ by decide)

theorem validExtra_of_mem {contentType : Str} {headers : List (Str × Str)} {header : Str × Str}
    (h : validateStaticMetadata contentType headers = .ok ()) (hHeader : header ∈ headers) :
    Static.ValidExtra ⟨header.1, header.2⟩ := by
  obtain ⟨value, -, h⟩ := bind_eq_ok.mp h
  obtain ⟨-, h⟩ := check_bind_eq_ok.mp h
  obtain ⟨-, h⟩ := check_bind_eq_ok.mp h
  obtain ⟨-, h⟩ := check_bind_eq_ok.mp h
  exact validExtra_of_validated (forM_eq_ok.mp h header hHeader)

end Eggserve.Core
