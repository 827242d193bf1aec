import Eggserve.Rust.Integer
import Eggserve.Rust.Result
import Eggserve.Rust.Split

/-! The names under which TLS identities are configured: a DNS name, or `*.` before one. -/
namespace Eggserve.Tls
open Rust

def maxTlsIdentities : Nat := 64
def maxSniLen : Nat := 253
def maxTrustRoots : Nat := 256
def maxCrls : Nat := 16
def maxAlpnProtocols : Nat := 16
def maxAlpnProtocolLen : Nat := 255
def maxIdentityChain : Nat := 8

inductive TlsError where
  | certReadError (msg : Str)
  | keyReadError (msg : Str)
  | noCertificatesFound
  | noPrivateKeyFound
  | multiplePrivateKeysFound
  | invalidKey (msg : Str)
  | invalidSniName (msg : Str)
  | duplicateIdentity (name : Str)
  | tooManyIdentities
  | noIdentities
  | invalidTrustRoots (msg : Str)
  | tooManyTrustRoots
  | tooManyCrls
  | trustRootsRequired
  | invalidAlpn (msg : Str)
  deriving DecidableEq

/-- A text that ends in a bound in parentheses. -/
def maxText (text : Str) (bound : Nat) : Str := text ++ " (max ".toList ++ decimal bound ++ [')']

/-- `str::to_ascii_lowercase`. -/
def toAsciiLowercase (s : Str) : Str := s.map Char.toLower

theorem length_toAsciiLowercase (s : Str) :
    (utf8 (toAsciiLowercase s)).length = (utf8 s).length := by
  have hChar (c : Char) : c.toLower.utf8Size = c.utf8Size := by
    by_cases hUpper : c.val ≥ 'A'.val ∧ c.val ≤ 'Z'.val
    · have hVal := toLower_of_upper hUpper
      have hAscii (d : Char) (h : d.val.toNat < 128) : d.utf8Size = 1 :=
        Char.utf8Size_eq_one_iff.mpr (UInt32.le_iff_toNat_le.mpr (Nat.le_of_lt_succ h))
      simp only [ge_iff_le, UInt32.le_iff_toNat_le] at hUpper
      rw [hAscii, hAscii]
      · exact Nat.lt_of_le_of_lt hUpper.2 (by decide)
      · rw [hVal, UInt32.toNat_add]
        simp at hUpper ⊢
        omega
    · rw [toLower_of_not_upper hUpper]
  induction s with
  | nil => rfl
  | cons c s ih =>
      change (utf8 (c.toLower :: toAsciiLowercase s)).length = _
      rw [utf8_cons, utf8_cons, List.length_append, List.length_append, ih,
        String.length_utf8EncodeChar, String.length_utf8EncodeChar, hChar]

def isLabelByte (byte : UInt8) : Bool :=
  asciiAlphabetic byte.toNat || (0x30 ≤ byte.toNat && byte.toNat ≤ 0x39) || byte.toNat = 0x2d

/-- One turn of the loop of `validate_dns_labels`. -/
def validateDnsLabel (label : Str) : Except TlsError Unit := do
  failIf (label = [] ∨ 63 < (utf8 label).length) (.invalidSniName "invalid DNS label length")
  failIf (label.head? = some '-' ∨ label.getLast? = some '-')
    (.invalidSniName "DNS label must not start/end with '-'")
  failIf ((utf8 label).all isLabelByte = false)
    (.invalidSniName "DNS labels must be ASCII alphanumeric or '-'")

def validateDnsLabels (name : Str) : Except TlsError Unit := do
  failIf (name = [] ∨ maxSniLen < (utf8 name).length)
    (.invalidSniName ("DNS name length must be 1..=".toList ++ decimal maxSniLen))
  failIf (name.head? = some '.' ∨ name.getLast? = some '.' ∨ name.head? = some '-')
    (.invalidSniName "invalid DNS label placement")
  forM (name.splitOn '.') validateDnsLabel

/-- The first component tells whether the name is a wildcard. -/
def normalizeSniName (isDnsName : Str → Bool) (name : Str) : Except TlsError (Bool × Str) := do
  let trimmed := trim name
  failIf (trimmed = []) (.invalidSniName "empty SNI name")
  failIf (maxSniLen + 2 < (utf8 trimmed).length)
    (.invalidSniName (maxText "SNI name too long" maxSniLen))
  match toAsciiLowercase trimmed with
  | '*' :: '.' :: rest => do
      failIf (rest = [] ∨ '*' ∈ rest) (.invalidSniName "wildcard must be exactly '*.suffix'")
      validateDnsLabels rest
      failIf ('.' ∉ rest)
        (.invalidSniName "wildcard suffix must contain a dot (e.g. *.example.com)")
      failIf (maxSniLen < (utf8 rest).length)
        (.invalidSniName (maxText "wildcard suffix too long" maxSniLen))
      pure (true, '*' :: '.' :: rest)
  | lower => do
      failIf ('*' ∈ lower) (.invalidSniName "wildcard only allowed as leading '*.'")
      validateDnsLabels lower
      failIf (isDnsName lower = false)
        (.invalidSniName ("invalid DNS name: ".toList ++ trimmed))
      pure (false, lower)

/-- Labels of at most 63 letters, digits and inner hyphens, with dots between them. -/
structure IsDnsName (name : Str) : Prop where
  length : (utf8 name).length ≤ maxSniLen
  labels : ∀ label ∈ name.splitOn '.', label ≠ [] ∧ (utf8 label).length ≤ 63 ∧
    label.head? ≠ some '-' ∧ label.getLast? ≠ some '-' ∧
      ∀ byte ∈ utf8 label, isLabelByte byte = true

theorem validateDnsLabels_eq_ok {name : Str} (h : validateDnsLabels name = .ok ()) :
    IsDnsName name := by
  simp only [validateDnsLabels, check_bind_eq_ok, failIf_eq_ok, not_or] at h
  obtain ⟨⟨-, hLength⟩, -, hLabels⟩ := h
  refine ⟨Nat.not_lt.mp hLength, fun label hLabel => ?_⟩
  have hCheck := forM_eq_ok.mp hLabels label hLabel
  simp only [validateDnsLabel, check_bind_eq_ok, failIf_eq_ok, not_or] at hCheck
  obtain ⟨⟨hNil, hShort⟩, ⟨hHead, hLast⟩, hBytes⟩ := hCheck
  exact ⟨hNil, Nat.not_lt.mp hShort, hHead, hLast, List.all_eq_true.mp (by simpa using hBytes)⟩

/-- A name in the form in which it is stored. -/
inductive Normal : Bool → Str → Prop where
  | exact {name : Str} (hName : IsDnsName name) (hStar : '*' ∉ name) : Normal false name
  | wildcard {suffix : Str} (hSuffix : IsDnsName suffix) (hStar : '*' ∉ suffix)
      (hDot : '.' ∈ suffix) : Normal true ('*' :: '.' :: suffix)

/-- What is stored is in the normal form, and it is the given name without its blanks and
in lower case. -/
theorem normalizeSniName_eq_ok {isDnsName : Str → Bool} {name normalized : Str} {wild : Bool}
    (h : normalizeSniName isDnsName name = .ok (wild, normalized)) :
    Normal wild normalized ∧ normalized = toAsciiLowercase (trim name) := by
  simp only [normalizeSniName, check_bind_eq_ok] at h
  obtain ⟨-, -, h⟩ := h
  split at h
  next rest hLower =>
    simp only [check_bind_eq_ok, failIf_eq_ok, not_or, not_not] at h
    obtain ⟨⟨-, hStar⟩, hLabels, hDot, -, hPair⟩ := h
    cases hPair
    exact ⟨.wildcard (validateDnsLabels_eq_ok hLabels) hStar hDot, hLower.symm⟩
  next =>
    simp only [check_bind_eq_ok, failIf_eq_ok] at h
    obtain ⟨hStar, hLabels, -, hPair⟩ := h
    cases hPair
    exact ⟨.exact (validateDnsLabels_eq_ok hLabels) hStar, rfl⟩

end Eggserve.Tls
