import Eggserve.Tls.ServerConfig
import Mathlib.Data.List.Nodup

/-! Which identity a client gets. The names decide it, and not the order in which they were
configured. -/
namespace Eggserve.Tls
open Rust

variable {σ ν : Type} {rustls : Rustls σ ν}

/-- The identity is for exactly this name. -/
def Identity.Names (identity : Identity) (lower : Str) : Prop :=
  identity.name = lower ∧ '*' ∉ lower

/-- The identity is for all names with one label in front of a suffix, and this is one. -/
def Identity.Covers (identity : Identity) (lower : Str) : Prop :=
  ∃ label suffix, identity.name = '*' :: '.' :: suffix ∧ lower = label ++ '.' :: suffix ∧
    label ≠ [] ∧ '.' ∉ label

/-- The credential for what a client asks for: that of its name, else that of a wildcard,
else the default. -/
inductive Chosen (builder : TlsServerConfigBuilder) : Option Str → Option Credential → Prop where
  | named {name : Str} {identity : Identity} (hMem : identity ∈ builder.identities)
      (hNames : identity.Names (toAsciiLowercase name)) :
      Chosen builder (some name) (some identity.credential)
  | covered {name : Str} {identity : Identity} (hMem : identity ∈ builder.identities)
      (hCovers : identity.Covers (toAsciiLowercase name))
      (hLength : (utf8 name).length ≤ maxSniLen)
      (hNone : ∀ other ∈ builder.identities, ¬other.Names (toAsciiLowercase name)) :
      Chosen builder (some name) (some identity.credential)
  | unmatched {name : Str}
      (hNone : ∀ other ∈ builder.identities, ¬other.Names (toAsciiLowercase name))
      (hOpen : (utf8 name).length ≤ maxSniLen →
        ∀ other ∈ builder.identities, ¬other.Covers (toAsciiLowercase name)) :
      Chosen builder (some name) builder.default
  | unnamed : Chosen builder none builder.default

/-- The key is the one loaded for the credential. -/
def KeyOf (rustls : Rustls σ ν) (credential : Credential) (key : CertifiedKey σ) : Prop :=
  rustls.certified credential = .ok key

/-- The tables of the resolver hold the keys of the identities and no others. -/
structure SniResolver.Tables (rustls : Rustls σ ν) (identities : List Identity)
    (resolver : SniResolver σ) : Prop where
  exact : ∀ lower key, (lower, key) ∈ resolver.exact ↔ ∃ identity ∈ identities,
    identity.name = lower ∧ (∀ suffix, lower ≠ '*' :: '.' :: suffix) ∧
      KeyOf rustls identity.credential key
  wildcards : ∀ suffix key, (suffix, key) ∈ resolver.wildcards ↔ ∃ identity ∈ identities,
    identity.name = '*' :: '.' :: suffix ∧ KeyOf rustls identity.credential key

theorem KeyOf.unique {credential : Credential} {key other : CertifiedKey σ}
    (h : KeyOf rustls credential key) (hOther : KeyOf rustls credential other) : key = other :=
  Except.ok.inj (h.symm.trans hOther)

theorem tables_empty (default : Option (CertifiedKey σ)) :
    SniResolver.Tables rustls [] ⟨[], [], default⟩ where
  exact := by simp
  wildcards := by simp

/-- One identity goes into one of the two tables. -/
theorem SniResolver.Tables.insert {identities : List Identity} {resolver next : SniResolver σ}
    (h : resolver.Tables rustls identities) {identity : Identity}
    (hInsert : SniResolver.insert rustls resolver identity = .ok next) :
    next.Tables rustls (identities ++ [identity]) := by
  obtain ⟨key, hKey, hNext⟩ := bind_eq_ok.mp hInsert
  have hOnly (other : CertifiedKey σ) : KeyOf rustls identity.credential other ↔ other = key :=
    ⟨fun hOther => KeyOf.unique hOther hKey, fun hSame => hSame ▸ hKey⟩
  split at hNext
  next suffix hName =>
    cases hNext
    constructor
    · intro lower other
      rw [h.exact]
      simp only [List.mem_append, List.mem_singleton, or_and_right, exists_or, exists_eq_left]
      refine (or_iff_left fun ⟨hSame, hPlain, _⟩ => ?_).symm
      exact hPlain suffix (hSame ▸ hName)
    · intro other otherKey
      simp only [List.mem_append, List.mem_singleton, or_and_right, exists_or, exists_eq_left,
        h.wildcards, hName, hOnly, Prod.mk.injEq, List.cons.injEq, true_and]
      exact or_congr_right (and_congr_left' eq_comm)
  next hPlain =>
    cases hNext
    constructor
    · intro lower other
      simp only [List.mem_append, List.mem_cons, List.not_mem_nil, or_false, or_and_right, exists_or,
        exists_eq_left, h.exact, hOnly, Prod.mk.injEq]
      rw [or_comm]
      refine or_congr_right ⟨fun ⟨hSame, hKeys⟩ => ⟨hSame.symm, ?_, hKeys⟩, fun ⟨hSame, _, hKeys⟩ =>
        ⟨hSame.symm, hKeys⟩⟩
      intro suffix hWild
      exact hPlain suffix (hSame ▸ hWild)
    · intro suffix other
      rw [h.wildcards]
      simp only [List.mem_append, List.mem_singleton, or_and_right, exists_or, exists_eq_left]
      exact (or_iff_left fun ⟨hName, _⟩ => hPlain suffix hName).symm

theorem SniResolver.Tables.fold {identities front : List Identity} {resolver last : SniResolver σ}
    (h : resolver.Tables rustls front)
    (hFold : identities.foldlM (SniResolver.insert rustls) resolver = .ok last) :
    last.Tables rustls (front ++ identities) := by
  induction identities generalizing front resolver with
  | nil =>
      cases hFold
      rwa [List.append_nil]
  | cons identity rest ih =>
      obtain ⟨next, hInsert, hRest⟩ := bind_eq_ok.mp hFold
      rw [← List.singleton_append, ← List.append_assoc]
      exact ih (h.insert hInsert) hRest

/-- A table without two values for a name. -/
theorem lookup_eq_some_iff_mem {α β : Type} [BEq α] [LawfulBEq α] {table : List (α × β)} {a : α}
    (hOnly : ∀ b b', (a, b) ∈ table → (a, b') ∈ table → b = b') {b : β} :
    table.lookup a = some b ↔ (a, b) ∈ table := by
  constructor
  · intro h
    obtain ⟨front, back, hSplit, -⟩ := List.lookup_eq_some_iff.mp h
    rw [hSplit]
    exact List.mem_append_right _ (List.mem_cons_self ..)
  · intro hMem
    cases hLookup : table.lookup a with
    | none =>
        have hFree := List.lookup_eq_none_iff.mp hLookup (a, b) hMem
        simp at hFree
    | some found =>
        obtain ⟨front, back, hSplit, -⟩ := List.lookup_eq_some_iff.mp hLookup
        have hFound : (a, found) ∈ table := by
          rw [hSplit]
          exact List.mem_append_right _ (List.mem_cons_self ..)
        rw [hOnly found b hFound hMem]

section Resolver

variable {builder : TlsServerConfigBuilder} {resolver : SniResolver σ}

open TlsServerConfigBuilder (Sound)

theorem same_of_name (h : Sound rustls builder) {identity other : Identity}
    (hMem : identity ∈ builder.identities) (hOther : other ∈ builder.identities)
    (hName : identity.name = other.name) : identity = other :=
  List.inj_on_of_nodup_map h.distinct hMem hOther hName

/-- A stored name that does not begin a wildcard has no star at all. -/
theorem star_not_mem (h : Sound rustls builder) {identity : Identity}
    (hMem : identity ∈ builder.identities)
    (hPlain : ∀ suffix, identity.name ≠ '*' :: '.' :: suffix) : '*' ∉ identity.name := by
  obtain ⟨wild, hNormal⟩ := h.normal identity hMem
  generalize identity.name = name at hNormal hPlain
  cases hNormal with
  | exact hName hStar => exact hStar
  | @wildcard suffix hSuffix hStar hDot => exact absurd rfl (hPlain suffix)

theorem exact_lookup (h : Sound rustls builder) (hTables : resolver.Tables rustls builder.identities)
    {lower : Str} {key : CertifiedKey σ} :
    resolver.exact.lookup lower = some key ↔
      ∃ identity ∈ builder.identities, identity.Names lower ∧ KeyOf rustls identity.credential key := by
  rw [lookup_eq_some_iff_mem, hTables.exact]
  · constructor
    · rintro ⟨identity, hMem, rfl, hPlain, hKey⟩
      exact ⟨identity, hMem, ⟨rfl, star_not_mem h hMem hPlain⟩, hKey⟩
    · rintro ⟨identity, hMem, ⟨rfl, hStar⟩, hKey⟩
      exact ⟨identity, hMem, rfl, fun suffix hWild => hStar (by simp [hWild]), hKey⟩
  · intro first second hFirst hSecond
    obtain ⟨identity, hMem, hName, -, hKey⟩ := (hTables.exact _ _).mp hFirst
    obtain ⟨other, hOther, hOtherName, -, hOtherKey⟩ := (hTables.exact _ _).mp hSecond
    obtain rfl := same_of_name h hMem hOther (hName.trans hOtherName.symm)
    exact hKey.unique hOtherKey

theorem wildcard_lookup (h : Sound rustls builder)
    (hTables : resolver.Tables rustls builder.identities) {lower : Str} {key : CertifiedKey σ} :
    resolver.wildcard lower = some key ↔
      ∃ identity ∈ builder.identities, identity.Covers lower ∧
        KeyOf rustls identity.credential key := by
  have hLookup (suffix : Str) : resolver.wildcards.lookup suffix = some key ↔
      ∃ identity ∈ builder.identities, identity.name = '*' :: '.' :: suffix ∧
        KeyOf rustls identity.credential key := by
    rw [lookup_eq_some_iff_mem, hTables.wildcards]
    intro first second hFirst hSecond
    obtain ⟨identity, hMem, hName, hKey⟩ := (hTables.wildcards _ _).mp hFirst
    obtain ⟨other, hOther, hOtherName, hOtherKey⟩ := (hTables.wildcards _ _).mp hSecond
    obtain rfl := same_of_name h hMem hOther (hName.trans hOtherName.symm)
    exact hKey.unique hOtherKey
  constructor
  · intro hFound
    unfold SniResolver.wildcard at hFound
    split at hFound
    next label suffix hSplit =>
      split at hFound
      next hLabel =>
        obtain ⟨identity, hMem, hName, hKey⟩ := (hLookup suffix).mp hFound
        exact ⟨identity, hMem, ⟨label, suffix, hName, (splitOnce_eq_some.mp hSplit).1, hLabel⟩, hKey⟩
      next => cases hFound
    next => cases hFound
  · rintro ⟨identity, hMem, ⟨label, suffix, hName, hLower, hNil, hDot⟩, hKey⟩
    simp only [SniResolver.wildcard, splitOnce_eq_some.mpr ⟨hLower, hDot⟩]
    rw [if_pos ⟨hNil, hDot⟩]
    exact (hLookup suffix).mpr ⟨identity, hMem, hName, hKey⟩

/-- Two wildcards do not share a name. -/
theorem same_of_covers (h : Sound rustls builder) {identity other : Identity} {lower : Str}
    (hMem : identity ∈ builder.identities) (hOther : other ∈ builder.identities)
    (hCovers : identity.Covers lower) (hOtherCovers : other.Covers lower) : identity = other := by
  obtain ⟨label, suffix, hName, hLower, -, hDot⟩ := hCovers
  obtain ⟨otherLabel, otherSuffix, hOtherName, hOtherLower, -, hOtherDot⟩ := hOtherCovers
  have hFirst := splitOnce_append suffix hDot
  rw [← hLower, hOtherLower, splitOnce_append otherSuffix hOtherDot] at hFirst
  cases hFirst
  exact same_of_name h hMem hOther (hName.trans hOtherName.symm)

theorem length_of_names (h : Sound rustls builder) {identity : Identity} {name : Str}
    (hMem : identity ∈ builder.identities) (hNames : identity.Names (toAsciiLowercase name)) :
    (utf8 name).length ≤ maxSniLen := by
  obtain ⟨hName, hStar⟩ := hNames
  obtain ⟨wild, hNormal⟩ := h.normal identity hMem
  rw [hName] at hNormal
  rw [← length_toAsciiLowercase]
  generalize toAsciiLowercase name = lower at hNormal hStar
  cases hNormal with
  | exact hDns _ => exact hDns.length
  | wildcard _ _ _ => exact absurd (List.mem_cons_self ..) hStar

/-- There is one credential for what a client asks for. -/
theorem chosen_unique (h : Sound rustls builder) {hello : Option Str}
    {chosen other : Option Credential} (hChosen : Chosen builder hello chosen)
    (hOther : Chosen builder hello other) : other = chosen := by
  cases hChosen with
  | @named name identity hMem hNames =>
      cases hOther with
      | named hMem' hNames' => rw [same_of_name h hMem hMem' (hNames.1.trans hNames'.1.symm)]
      | covered _ _ _ hNone => exact absurd hNames (hNone _ hMem)
      | unmatched hNone _ => exact absurd hNames (hNone _ hMem)
  | @covered name identity hMem hCovers hLength hNone =>
      cases hOther with
      | named hMem' hNames' => exact absurd hNames' (hNone _ hMem')
      | covered hMem' hCovers' _ _ => rw [same_of_covers h hMem hMem' hCovers hCovers']
      | unmatched _ hOpen => exact absurd hCovers (hOpen hLength _ hMem)
  | @unmatched name hNone hOpen =>
      cases hOther with
      | named hMem' hNames' => exact absurd hNames' (hNone _ hMem')
      | covered hMem' hCovers' hLength _ => exact absurd hCovers' (hOpen hLength _ hMem')
      | unmatched _ _ => rfl
  | unnamed => cases hOther with | unnamed => rfl

/-- The resolver picks the key of that credential. -/
theorem resolve_chosen (h : Sound rustls builder) (hTables : resolver.Tables rustls builder.identities)
    (hDefault : Option.Rel (KeyOf rustls) builder.default resolver.default) (hello : Option Str) :
    ∃ chosen, Chosen builder hello chosen ∧
      Option.Rel (KeyOf rustls) chosen (resolver.resolve hello) := by
  cases hello with
  | none => exact ⟨_, .unnamed, hDefault⟩
  | some name =>
      have hUsable (identity : Identity) (hMem : identity ∈ builder.identities) :
          ∃ key, KeyOf rustls identity.credential key := (h.usable identity hMem).certified
      unfold SniResolver.resolve
      dsimp only
      by_cases hLong : maxSniLen < (utf8 name).length
      · rw [if_pos hLong]
        refine ⟨_, .unmatched (fun other hMem hNames => ?_) fun hShort => ?_, hDefault⟩
        · exact absurd (length_of_names h hMem hNames) (Nat.not_le.mpr hLong)
        · exact absurd hShort (Nat.not_le.mpr hLong)
      · rw [if_neg hLong]
        cases hExact : resolver.exact.lookup (toAsciiLowercase name) with
        | some key =>
            obtain ⟨identity, hMem, hNames, hKey⟩ := (exact_lookup h hTables).mp hExact
            exact ⟨_, .named hMem hNames, .some hKey⟩
        | none =>
            have hNone : ∀ other ∈ builder.identities, ¬other.Names (toAsciiLowercase name) := by
              intro other hMem hNames
              obtain ⟨key, hKey⟩ := hUsable other hMem
              rw [(exact_lookup h hTables).mpr ⟨other, hMem, hNames, hKey⟩] at hExact
              cases hExact
            cases hWild : resolver.wildcard (toAsciiLowercase name) with
            | some key =>
                obtain ⟨identity, hMem, hCovers, hKey⟩ := (wildcard_lookup h hTables).mp hWild
                exact ⟨_, .covered hMem hCovers (Nat.not_lt.mp hLong) hNone, .some hKey⟩
            | none =>
                refine ⟨_, .unmatched hNone fun _ other hMem hCovers => ?_, hDefault⟩
                obtain ⟨key, hKey⟩ := hUsable other hMem
                rw [(wildcard_lookup h hTables).mpr ⟨other, hMem, hCovers, hKey⟩] at hWild
                cases hWild

end Resolver

namespace TlsServerConfigBuilder

variable {builder : TlsServerConfigBuilder} {config : TlsServerConfig σ ν}

theorem buildDefault_eq_ok {default : Option Credential} {key : Option (CertifiedKey σ)}
    (h : buildDefault rustls default = .ok key) : Option.Rel (KeyOf rustls) default key := by
  cases default with
  | none =>
      cases h
      exact .none
  | some credential =>
      obtain ⟨loaded, hLoaded, rfl⟩ := map_eq_ok.mp h
      exact .some hLoaded

/-- What is built resolves with the keys of the identities. -/
theorem build_eq_ok (h : builder.build rustls = .ok config) :
    config.config.resolver.Tables rustls builder.identities ∧
      Option.Rel (KeyOf rustls) builder.default config.config.resolver.default := by
  obtain ⟨-, h⟩ := check_bind_eq_ok.mp h
  obtain ⟨-, h⟩ := check_bind_eq_ok.mp h
  obtain ⟨resolver, hFold, h⟩ := bind_eq_ok.mp h
  obtain ⟨default, hDefault, h⟩ := bind_eq_ok.mp h
  obtain ⟨verifier, -, h⟩ := bind_eq_ok.mp h
  cases h
  have hTables := (tables_empty none).fold hFold
  rw [List.nil_append] at hTables
  exact ⟨⟨hTables.exact, hTables.wildcards⟩, buildDefault_eq_ok hDefault⟩

/-- A provider that takes every key, and whose verifiers are the numbers of roots. -/
def anyKeys : Rustls PrivateKey Nat where
  isDnsName _ := true
  loadPrivateKey key := .ok key
  keysMatch _ := .ok ()
  addRoot _ := .ok ()
  noClientAuth := 0
  clientVerifier roots _ _ := .ok roots.length

/-- One identity for a name, one for the names below it, and a default. -/
def siteCalls : List BuilderCall :=
  [.addIdentity "Example.com" ⟨[[1]], [1]⟩, .addIdentity " *.example.COM" ⟨[[2]], [2]⟩,
    .defaultIdentity ⟨[[3]], [3]⟩]

def siteBuilder : TlsServerConfigBuilder where
  identities := [⟨"example.com", ⟨[[1]], [1]⟩⟩, ⟨"*.example.com", ⟨[[2]], [2]⟩⟩]
  default := some ⟨[[3]], [3]⟩
  clientAuth := .disabled
  roots := []
  crls := []
  http2 := true
  alpn := none

theorem run_siteCalls : run anyKeys true siteCalls = .ok siteBuilder := by
  rfl

/-- Every client is answered with the one credential that the configured names choose for
what it asks for, in whatever order the application has configured them. -/
theorem clients_get_their_identity {http2 : Bool} {calls : List BuilderCall}
    (hRun : run rustls http2 calls = .ok builder) (hBuild : builder.build rustls = .ok config)
    (hello : Option Str) :
    ∃ chosen, Chosen builder hello chosen ∧
      (∀ other, Chosen builder hello other → other = chosen) ∧
      Option.Rel (KeyOf rustls) chosen (config.config.resolver.resolve hello) := by
  have hSound := sound_of_run hRun
  obtain ⟨hTables, hDefault⟩ := build_eq_ok hBuild
  obtain ⟨chosen, hChosen, hKey⟩ := resolve_chosen hSound hTables hDefault hello
  exact ⟨chosen, hChosen, fun other hOther => chosen_unique hSound hChosen hOther, hKey⟩

/-- A name below the configured one gets the wildcard's credential. -/
theorem clients_get_their_identity_site :
    ∃ config, siteBuilder.build anyKeys = .ok config ∧
      ∃ chosen, Chosen siteBuilder (some "WWW.example.com") chosen ∧
        (∀ other, Chosen siteBuilder (some "WWW.example.com") other → other = chosen) ∧
        Option.Rel (KeyOf anyKeys) chosen
          (config.config.resolver.resolve (some "WWW.example.com")) :=
  ⟨_, rfl, clients_get_their_identity run_siteCalls rfl _⟩

theorem fold_insert_of_usable {identities : List Identity} {resolver : SniResolver σ}
    (h : ∀ identity ∈ identities, Usable rustls identity.credential) :
    ∃ last, identities.foldlM (SniResolver.insert rustls) resolver = .ok last := by
  induction identities generalizing resolver with
  | nil => exact ⟨resolver, rfl⟩
  | cons identity rest ih =>
      obtain ⟨key, hKey⟩ := (h identity (List.mem_cons_self ..)).certified
      have hInsert : ∃ next, SniResolver.insert rustls resolver identity = .ok next := by
        unfold SniResolver.insert
        rw [hKey]
        simp only [bind, Except.bind]
        split <;> exact ⟨_, rfl⟩
      obtain ⟨next, hNext⟩ := hInsert
      obtain ⟨last, hLast⟩ := @ih next fun other hMem => h other (List.mem_cons_of_mem _ hMem)
      exact ⟨last, bind_eq_ok.mpr ⟨next, hNext, hLast⟩⟩

/-- Why rustls refuses the trust roots of the application. -/
def RefusesTrust (rustls : Rustls σ ν) (builder : TlsServerConfigBuilder) (msg : Str) : Prop :=
  forM builder.roots rustls.addRoot = .error msg ∨
    forM builder.roots rustls.addRoot = .ok () ∧
      rustls.clientVerifier builder.roots builder.crls (builder.clientAuth = .optional) = .error msg

theorem forM_mapError {f : Certificate → Except Str Unit} {g : Str → TlsError}
    (roots : List Certificate) :
    (forM roots fun root => (f root).mapError g) = (forM roots f).mapError g := by
  induction roots with
  | nil => rfl
  | cons root rest ih =>
      simp only [List.forM_cons, ih]
      cases f root <;> rfl

theorem buildClientVerifier_eq_error (h : Sound rustls builder) {error : TlsError} :
    buildClientVerifier rustls builder.clientAuth builder.roots builder.crls = .error error ↔
      builder.clientAuth ≠ .disabled ∧
        ∃ msg, error = .invalidTrustRoots msg ∧ RefusesTrust rustls builder msg := by
  unfold buildClientVerifier
  by_cases hMode : builder.clientAuth = .disabled
  · simp [hMode]
  · rw [if_neg hMode]
    simp only [check_bind_eq_error, forM_mapError, failIf_eq_error, failIf_eq_ok, mapError_eq_error,
      mapError_eq_ok, List.isEmpty_iff, h.trusted hMode, false_and, not_false_eq_true, true_and,
      false_or, ne_eq, hMode, RefusesTrust]
    constructor
    · rintro (⟨msg, hMsg, rfl⟩ | ⟨hRoots, msg, hMsg, rfl⟩)
      · exact ⟨msg, rfl, .inl hMsg⟩
      · exact ⟨msg, rfl, .inr ⟨hRoots, hMsg⟩⟩
    · rintro ⟨msg, rfl, hMsg | ⟨hRoots, hMsg⟩⟩
      · exact .inl ⟨msg, hMsg, rfl⟩
      · exact .inr ⟨hRoots, msg, hMsg, rfl⟩

/-- The builder has checked everything else on the way: it fails at the end exactly where
nothing was configured, or where rustls refuses the trust roots. -/
theorem build_fails_iff {http2 : Bool} {calls : List BuilderCall}
    (hRun : run rustls http2 calls = .ok builder) (error : TlsError) :
    builder.build rustls = .error error ↔
      (builder.identities = [] ∧ builder.default = none ∧ error = .noIdentities) ∨
      ((builder.identities ≠ [] ∨ builder.default ≠ none) ∧ builder.clientAuth ≠ .disabled ∧
        ∃ msg, error = .invalidTrustRoots msg ∧ RefusesTrust rustls builder msg) := by
  have hSound := sound_of_run hRun
  obtain ⟨resolver, hFold⟩ :=
    @fold_insert_of_usable σ ν rustls builder.identities ⟨[], [], none⟩ hSound.usable
  have hDefault : ∃ key, buildDefault rustls builder.default = .ok key := by
    cases hCredential : builder.default with
    | none => exact ⟨none, rfl⟩
    | some credential =>
        obtain ⟨key, hKey⟩ := (hSound.default credential hCredential).certified
        exact ⟨some key, map_eq_ok.mpr ⟨key, hKey, rfl⟩⟩
  obtain ⟨default, hDefault⟩ := hDefault
  have hTrusted : ¬(builder.clientAuth ≠ .disabled ∧ builder.roots = []) := fun hEmpty =>
    hSound.trusted hEmpty.1 hEmpty.2
  rw [← buildClientVerifier_eq_error hSound]
  unfold build
  rw [check_bind_eq_error, check_bind_eq_error, failIf_eq_error, failIf_eq_error, failIf_eq_ok,
    failIf_eq_ok, hFold, hDefault]
  simp only [List.isEmpty_iff, Option.isNone_iff_eq_none, hTrusted, false_and, false_or,
    not_false_eq_true, true_and, bind, Except.bind]
  rw [not_and_or, and_assoc, @eq_comm TlsError .noIdentities error]
  refine or_congr_right (and_congr_right' ?_)
  cases buildClientVerifier rustls builder.clientAuth builder.roots builder.crls with
  | ok verifier => simp [pure, Except.pure]
  | error refused => simp only [Except.error.injEq]

/-- With an identity and without client authentication nothing fails. -/
theorem build_fails_iff_site :
    siteBuilder.build anyKeys = .error .noIdentities ↔
      (siteBuilder.identities = [] ∧ siteBuilder.default = none ∧
        TlsError.noIdentities = .noIdentities) ∨
      ((siteBuilder.identities ≠ [] ∨ siteBuilder.default ≠ none) ∧
        siteBuilder.clientAuth ≠ .disabled ∧
        ∃ msg, TlsError.noIdentities = .invalidTrustRoots msg ∧
          RefusesTrust anyKeys siteBuilder msg) :=
  build_fails_iff run_siteCalls .noIdentities

end TlsServerConfigBuilder

end Eggserve.Tls
