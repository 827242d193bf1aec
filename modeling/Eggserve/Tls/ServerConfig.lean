import Eggserve.Tls.SniName
import Mathlib.Data.Char
import Mathlib.Data.List.Lex

/-! The identities of a TLS server: the builder that checks them, the configuration built
from it and the resolver that picks one for a client. -/
namespace Eggserve.Tls
open Rust

abbrev Certificate := List UInt8
abbrev PrivateKey := List UInt8
abbrev Crl := List UInt8

/-- A certificate chain and the private key for it. -/
structure Credential where
  certs : List Certificate
  key : PrivateKey

/-- A chain with the key as the provider has loaded it. -/
structure CertifiedKey (σ : Type) where
  certs : List Certificate
  key : σ

/-- What rustls and its crypto provider do: the parser of DNS names, the keys, the trust
anchors and the verifiers of client certificates. -/
structure Rustls (σ ν : Type) where
  isDnsName : Str → Bool
  loadPrivateKey : PrivateKey → Except Str σ
  keysMatch : CertifiedKey σ → Except Str Unit
  addRoot : Certificate → Except Str Unit
  noClientAuth : ν
  clientVerifier : List Certificate → List Crl → Bool → Except Str ν

variable {σ ν : Type} (rustls : Rustls σ ν)

def Rustls.certified (credential : Credential) : Except TlsError (CertifiedKey σ) := do
  let signingKey ← (rustls.loadPrivateKey credential.key).mapError .invalidKey
  let certified := ⟨credential.certs, signingKey⟩
  (rustls.keysMatch certified).mapError .invalidKey
  pure certified

def validateKeyPair (credential : Credential) : Except TlsError Unit := do
  let _ ← rustls.certified credential
  pure ()

/-- The checks that every credential passes on its way into the builder. -/
def validateCredential (credential : Credential) : Except TlsError Unit := do
  failIf (credential.certs.isEmpty = true) .noCertificatesFound
  failIf (maxIdentityChain < credential.certs.length)
    (.invalidKey (maxText "certificate chain too long" maxIdentityChain))
  validateKeyPair rustls credential

/-- The items are what the PEM readers find in the two texts. -/
def parseIdentityPem (certItems : List (Except Str Certificate))
    (keyItems : List (Except Str PrivateKey)) : Except TlsError Credential := do
  let certs ← (certItems.mapM id).mapError .certReadError
  failIf (certs.isEmpty = true) .noCertificatesFound
  failIf (maxIdentityChain < certs.length)
    (.invalidKey (maxText "certificate chain too long" maxIdentityChain))
  let keys ← (keyItems.mapM id).mapError .keyReadError
  failIf (1 < keys.length) .multiplePrivateKeysFound
  let key ← okOr keys.getLast? .noPrivateKeyFound
  validateKeyPair rustls ⟨certs, key⟩
  pure ⟨certs, key⟩

inductive ClientAuthMode where
  | disabled
  | optional
  | required
  deriving DecidableEq

structure Identity where
  name : Str
  credential : Credential

structure TlsServerConfigBuilder where
  identities : List Identity
  default : Option Credential
  clientAuth : ClientAuthMode
  roots : List Certificate
  crls : List Crl
  http2 : Bool
  alpn : Option (List (List UInt8))

def validateAlpn (alpn : List (List UInt8)) : Except TlsError Unit := do
  failIf (maxAlpnProtocols < alpn.length)
    (.invalidAlpn (maxText "too many ALPN protocols" maxAlpnProtocols))
  forM alpn fun protocol =>
    failIf (protocol.isEmpty = true ∨ maxAlpnProtocolLen < protocol.length)
      (.invalidAlpn ("ALPN protocol length must be 1..=".toList ++ decimal maxAlpnProtocolLen))

def httpAlpnProtocols (http2 : Bool) : List (List UInt8) :=
  if http2 then [utf8 "h2", utf8 "http/1.1"] else [utf8 "http/1.1"]

namespace TlsServerConfigBuilder

/-- The argument is the feature that the crate is built with. -/
def new (http2 : Bool) : TlsServerConfigBuilder := ⟨[], none, .disabled, [], [], http2, none⟩

variable (builder : TlsServerConfigBuilder)

def withHttp2 (enabled : Bool) : TlsServerConfigBuilder :=
  { builder with
    http2 := enabled
    alpn := none }

def alpnProtocols (protocols : List (List UInt8)) : Except TlsError TlsServerConfigBuilder := do
  validateAlpn protocols
  pure { builder with alpn := some protocols }

def addIdentity (name : Str) (credential : Credential) :
    Except TlsError TlsServerConfigBuilder := do
  failIf (maxTlsIdentities ≤ builder.identities.length + builder.default.isSome.toNat)
    .tooManyIdentities
  let (_, normalized) ← normalizeSniName rustls.isDnsName name
  failIf (normalized ∈ builder.identities.map Identity.name) (.duplicateIdentity normalized)
  validateCredential rustls credential
  pure { builder with identities := builder.identities ++ [⟨normalized, credential⟩] }

def defaultIdentity (credential : Credential) : Except TlsError TlsServerConfigBuilder := do
  validateCredential rustls credential
  pure { builder with default := some credential }

def singleIdentity (credential : Credential) : Except TlsError TlsServerConfigBuilder :=
  builder.defaultIdentity rustls credential

def clientAuthDisabled : TlsServerConfigBuilder :=
  { builder with
    clientAuth := .disabled
    roots := []
    crls := [] }

/-- `client_auth_required` and `client_auth_optional`, which differ in the mode they set. -/
def withClientAuth (mode : ClientAuthMode) (roots : List Certificate) :
    Except TlsError TlsServerConfigBuilder := do
  failIf (roots.isEmpty = true) .trustRootsRequired
  failIf (maxTrustRoots < roots.length) .tooManyTrustRoots
  pure { builder with
    clientAuth := mode
    roots := roots }

def clientAuthRequired (roots : List Certificate) : Except TlsError TlsServerConfigBuilder :=
  builder.withClientAuth .required roots

def clientAuthOptional (roots : List Certificate) : Except TlsError TlsServerConfigBuilder :=
  builder.withClientAuth .optional roots

def withCrls (crls : List Crl) : Except TlsError TlsServerConfigBuilder := do
  failIf (maxCrls < crls.length) .tooManyCrls
  pure { builder with crls := crls }

end TlsServerConfigBuilder

/-- A map of names to keys, the last of them first. -/
structure SniResolver (σ : Type) where
  exact : List (Str × CertifiedKey σ)
  wildcards : List (Str × CertifiedKey σ)
  default : Option (CertifiedKey σ)

namespace SniResolver

/-- A wildcard stands for one label in front of its suffix. -/
def wildcard (resolver : SniResolver σ) (lower : Str) : Option (CertifiedKey σ) :=
  match splitOnce '.' lower with
  | some (label, suffix) =>
      if label ≠ [] ∧ '.' ∉ label then resolver.wildcards.lookup suffix else none
  | none => none

/-- The name is what the client asks for in its hello. -/
def resolve (resolver : SniResolver σ) : Option Str → Option (CertifiedKey σ)
  | none => resolver.default
  | some name =>
      if maxSniLen < (utf8 name).length then resolver.default
      else
        let lower := toAsciiLowercase name
        match resolver.exact.lookup lower with
        | some key => some key
        | none =>
            match resolver.wildcard lower with
            | some key => some key
            | none => resolver.default

end SniResolver

structure ServerConfig (σ ν : Type) where
  verifier : ν
  resolver : SniResolver σ
  alpnProtocols : List (List UInt8)
  maxEarlyDataSize : Nat

structure TlsServerConfig (σ ν : Type) where
  config : ServerConfig σ ν
  identities : List Str
  hasDefault : Bool
  clientAuth : ClientAuthMode
  alpn : List (List UInt8)

def buildClientVerifier (mode : ClientAuthMode) (roots : List Certificate) (crls : List Crl) :
    Except TlsError ν :=
  if mode = .disabled then .ok rustls.noClientAuth
  else do
    failIf (roots.isEmpty = true) .trustRootsRequired
    forM roots fun root => (rustls.addRoot root).mapError .invalidTrustRoots
    (rustls.clientVerifier roots crls (mode = .optional)).mapError .invalidTrustRoots

/-- One turn of the loop over the identities. -/
def SniResolver.insert (resolver : SniResolver σ) (identity : Identity) :
    Except TlsError (SniResolver σ) := do
  let key ← rustls.certified identity.credential
  match identity.name with
  | '*' :: '.' :: suffix =>
      pure { resolver with wildcards := resolver.wildcards ++ [(suffix, key)] }
  | name => pure { resolver with exact := (name, key) :: resolver.exact }

namespace TlsServerConfigBuilder

def buildDefault : Option Credential → Except TlsError (Option (CertifiedKey σ))
  | some credential => (rustls.certified credential).map some
  | none => .ok none

def build (builder : TlsServerConfigBuilder) : Except TlsError (TlsServerConfig σ ν) := do
  failIf (builder.identities.isEmpty = true ∧ builder.default.isNone = true) .noIdentities
  failIf (builder.clientAuth ≠ .disabled ∧ builder.roots.isEmpty = true) .trustRootsRequired
  let resolver ← builder.identities.foldlM (SniResolver.insert rustls) ⟨[], [], none⟩
  let default ← buildDefault rustls builder.default
  let verifier ← buildClientVerifier rustls builder.clientAuth builder.roots builder.crls
  let alpn := builder.alpn.getD (httpAlpnProtocols builder.http2)
  pure
    { config := ⟨verifier, { resolver with default := default }, alpn, 0⟩
      identities := (builder.identities.map Identity.name).mergeSort (· ≤ ·)
      hasDefault := default.isSome
      clientAuth := builder.clientAuth
      alpn := alpn }

/-! ## Runs of the builder -/

/-- The calls of an application on its builder. -/
inductive BuilderCall where
  | http2 (enabled : Bool)
  | alpnProtocols (protocols : List (List UInt8))
  | addIdentity (name : Str) (credential : Credential)
  | defaultIdentity (credential : Credential)
  | singleIdentity (credential : Credential)
  | clientAuthDisabled
  | clientAuthRequired (roots : List Certificate)
  | clientAuthOptional (roots : List Certificate)
  | withCrls (crls : List Crl)

def call (builder : TlsServerConfigBuilder) :
    BuilderCall → Except TlsError TlsServerConfigBuilder
  | .http2 enabled => .ok (builder.withHttp2 enabled)
  | .alpnProtocols protocols => builder.alpnProtocols protocols
  | .addIdentity name credential => builder.addIdentity rustls name credential
  | .defaultIdentity credential => builder.defaultIdentity rustls credential
  | .singleIdentity credential => builder.singleIdentity rustls credential
  | .clientAuthDisabled => .ok builder.clientAuthDisabled
  | .clientAuthRequired roots => builder.clientAuthRequired roots
  | .clientAuthOptional roots => builder.clientAuthOptional roots
  | .withCrls crls => builder.withCrls crls

/-- A call that fails has consumed the builder. -/
def run (http2 : Bool) (calls : List BuilderCall) : Except TlsError TlsServerConfigBuilder :=
  calls.foldlM (call rustls) (new http2)

/-- A credential that the provider takes. -/
structure Usable (credential : Credential) : Prop where
  chain : credential.certs ≠ [] ∧ credential.certs.length ≤ maxIdentityChain
  certified : ∃ key, rustls.certified credential = .ok key

/-- What a builder keeps. -/
structure Sound (builder : TlsServerConfigBuilder) : Prop where
  count : builder.identities.length ≤ maxTlsIdentities
  distinct : (builder.identities.map Identity.name).Nodup
  normal : ∀ identity ∈ builder.identities, ∃ wild, Normal wild identity.name
  usable : ∀ identity ∈ builder.identities, Usable rustls identity.credential
  default : ∀ credential ∈ builder.default, Usable rustls credential
  trusted : builder.clientAuth ≠ .disabled → builder.roots ≠ []
  roots : builder.roots.length ≤ maxTrustRoots
  crls : builder.crls.length ≤ maxCrls
  alpn : ∀ protocols ∈ builder.alpn, validateAlpn protocols = .ok ()

variable {rustls}

theorem validateKeyPair_eq_ok {credential : Credential} :
    validateKeyPair rustls credential = .ok () ↔ ∃ key, rustls.certified credential = .ok key := by
  simp only [validateKeyPair, bind_eq_ok, pure, Except.pure, and_true]

theorem validateCredential_eq_ok {credential : Credential} :
    validateCredential rustls credential = .ok () ↔ Usable rustls credential := by
  simp only [validateCredential, check_bind_eq_ok, failIf_eq_ok, validateKeyPair_eq_ok,
    List.isEmpty_iff, Nat.not_lt]
  exact ⟨fun ⟨hNil, hChain, hKey⟩ => ⟨⟨hNil, hChain⟩, hKey⟩,
    fun h => ⟨h.chain.1, h.chain.2, h.certified⟩⟩

/-- What is read from two PEM texts is taken by the builder. -/
theorem usable_parseIdentityPem {certItems : List (Except Str Certificate)}
    {keyItems : List (Except Str PrivateKey)} {credential : Credential}
    (h : parseIdentityPem rustls certItems keyItems = .ok credential) :
    Usable rustls credential := by
  obtain ⟨certs, -, h⟩ := bind_eq_ok.mp h
  obtain ⟨hNil, h⟩ := check_bind_eq_ok.mp h
  obtain ⟨hChain, h⟩ := check_bind_eq_ok.mp h
  obtain ⟨keys, -, h⟩ := bind_eq_ok.mp h
  obtain ⟨key, -, h⟩ := bind_eq_ok.mp (check_bind_eq_ok.mp h).2
  obtain ⟨hPair, hOk⟩ := check_bind_eq_ok.mp h
  cases hOk
  have hCheck : validateCredential rustls ⟨certs, key⟩ = .ok () :=
    check_bind_eq_ok.mpr ⟨hNil, check_bind_eq_ok.mpr ⟨hChain, hPair⟩⟩
  exact validateCredential_eq_ok.mp hCheck

theorem sound_new (http2 : Bool) : Sound rustls (new http2) where
  count := Nat.zero_le _
  distinct := List.nodup_nil
  normal _ hMem := by cases hMem
  usable _ hMem := by cases hMem
  default _ hMem := by cases hMem
  trusted h := absurd rfl h
  roots := Nat.zero_le _
  crls := Nat.zero_le _
  alpn _ hMem := by cases hMem

variable {builder after : TlsServerConfigBuilder}

theorem Sound.addIdentity (h : Sound rustls builder) {name : Str} {credential : Credential}
    (hCall : builder.addIdentity rustls name credential = .ok after) : Sound rustls after := by
  obtain ⟨hRoom, hCall⟩ := check_bind_eq_ok.mp hCall
  obtain ⟨⟨wild, normalized⟩, hName, hCall⟩ := bind_eq_ok.mp hCall
  obtain ⟨hDistinct, hCall⟩ := check_bind_eq_ok.mp hCall
  obtain ⟨hUsable, hAfter⟩ := check_bind_eq_ok.mp hCall
  cases hAfter
  have hFree := Nat.not_le.mp (failIf_eq_ok.mp hRoom)
  have hFresh := failIf_eq_ok.mp hDistinct
  have hNormal := (normalizeSniName_eq_ok hName).1
  exact
    { h with
      count := by
        simp only [List.length_append, List.length_singleton]
        omega
      distinct := by
        rw [List.map_append, List.map_singleton]
        refine List.nodup_append.mpr ⟨h.distinct, List.pairwise_singleton _ _, ?_⟩
        intro old hOld new hNew hSame
        rw [hSame, List.mem_singleton.mp hNew] at hOld
        exact hFresh hOld
      normal := by
        intro identity hMem
        rcases List.mem_append.mp hMem with hOld | hLast
        · exact h.normal identity hOld
        · rw [List.mem_singleton.mp hLast]
          exact ⟨wild, hNormal⟩
      usable := by
        intro identity hMem
        rcases List.mem_append.mp hMem with hOld | hLast
        · exact h.usable identity hOld
        · rw [List.mem_singleton.mp hLast]
          exact validateCredential_eq_ok.mp hUsable }

theorem Sound.defaultIdentity (h : Sound rustls builder) {credential : Credential}
    (hCall : builder.defaultIdentity rustls credential = .ok after) : Sound rustls after := by
  simp only [TlsServerConfigBuilder.defaultIdentity, check_bind_eq_ok] at hCall
  obtain ⟨hUsable, hAfter⟩ := hCall
  cases hAfter
  exact
    { h with
      default := by
        intro other hMem
        cases hMem
        exact validateCredential_eq_ok.mp hUsable }

theorem Sound.withClientAuth (h : Sound rustls builder) {mode : ClientAuthMode}
    {roots : List Certificate} (hCall : builder.withClientAuth mode roots = .ok after) :
    Sound rustls after := by
  simp only [TlsServerConfigBuilder.withClientAuth, check_bind_eq_ok, failIf_eq_ok,
    List.isEmpty_iff, Nat.not_lt] at hCall
  obtain ⟨hNil, hCount, hAfter⟩ := hCall
  cases hAfter
  exact
    { h with
      trusted := fun _ => hNil
      roots := hCount }

/-- Every call of the application keeps the builder sound. -/
theorem Sound.call (h : Sound rustls builder) {made : BuilderCall}
    (hCall : builder.call rustls made = .ok after) : Sound rustls after := by
  cases made with
  | http2 enabled =>
      cases hCall
      exact { h with alpn := fun _ hMem => by cases hMem }
  | alpnProtocols protocols =>
      obtain ⟨hAlpn, hAfter⟩ := check_bind_eq_ok.mp hCall
      cases hAfter
      exact { h with alpn := fun other hMem => by cases hMem; exact hAlpn }
  | addIdentity name credential => exact h.addIdentity hCall
  | defaultIdentity credential => exact h.defaultIdentity hCall
  | singleIdentity credential => exact h.defaultIdentity hCall
  | clientAuthDisabled =>
      cases hCall
      exact
        { h with
          trusted := fun hMode => absurd rfl hMode
          roots := Nat.zero_le _
          crls := Nat.zero_le _ }
  | clientAuthRequired roots => exact h.withClientAuth hCall
  | clientAuthOptional roots => exact h.withClientAuth hCall
  | withCrls crls =>
      obtain ⟨hCrls, hAfter⟩ := check_bind_eq_ok.mp hCall
      cases hAfter
      exact { h with crls := Nat.not_lt.mp (failIf_eq_ok.mp hCrls) }

theorem sound_of_run {http2 : Bool} {calls : List BuilderCall}
    (h : run rustls http2 calls = .ok builder) : Sound rustls builder :=
  foldlM_invariant (fun _ _ _ _ hBefore hCall => Sound.call hBefore hCall) (sound_new http2) h

end TlsServerConfigBuilder

end Eggserve.Tls
