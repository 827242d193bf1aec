import Eggserve.Primitives.Authority
import Eggserve.Primitives.HeaderBlock
import Eggserve.Primitives.ProxyProtocol
import Eggserve.Rust.Lossy
import Eggserve.Rust.Split

/-! Metadata that a trusted proxy reports in header fields: `Forwarded`, or the
legacy `X-Forwarded-For`, `-Proto` and `-Host`. -/
namespace Eggserve.Primitives
open Rust

structure ForwardedConfig where
  standardEnabled : Bool
  legacyEnabled : Bool
  maxBytes : Nat
  maxElements : Nat
  deriving DecidableEq, Repr

def ForwardedConfig.isDisabled (config : ForwardedConfig) : Bool :=
  !config.standardEnabled && !config.legacyEnabled

inductive ForwardedRejection where
  | untrustedPeer
  | disabled
  | conflict
  | tooLarge
  | tooMany
  | invalid
  deriving DecidableEq, Repr

structure ForwardedEffective where
  client : Option SocketAddr
  scheme : Option Scheme
  authority : Option Authority
  provenance : ProxySourceKind
  deriving DecidableEq

/-- A `for` identifier. -/
inductive ForwardedFor where
  | unknown
  | obfuscated
  | ip (addr : IpAddr) (port : Option Nat)
  deriving DecidableEq

structure ForwardedElement where
  forwardFor : ForwardedFor
  proto : Option Scheme
  host : Option Authority
  deriving DecidableEq

/-- `join_header_values`: the lines of a list field as one. -/
def joinHeaderValues (values : List HeaderValue) : Str :=
  List.intercalate (", " : Str) (values.map fun value => fromUtf8Lossy value.bytes)

/-- The trimmed pieces between commas that are not empty. -/
def splitList (joined : Str) : List Str :=
  ((joined.splitOn ',').map trim).filter fun piece => !piece.isEmpty

/-! The pairs of an element. -/

/-- The text of a quoted string; the backslash escapes a quote or a backslash. -/
def unescapeQuoted : Str → Except ForwardedRejection Str
  | [] => .ok []
  | c :: rest =>
      if c = '\\' then
        match rest with
        | d :: rest =>
            if d = '"' ∨ d = '\\' then (unescapeQuoted rest).map (d :: ·) else .error .invalid
        | [] => .error .invalid
      else if c = '"' then .error .invalid
      else (unescapeQuoted rest).map (c :: ·)

def unquoteForwardedValue (value : Str) : Except ForwardedRejection Str :=
  let value := trim value
  if 2 ≤ value.length ∧ value.head? = some '"' ∧ value.getLast? = some '"' then
    unescapeQuoted value.tail.dropLast
  else if '"' ∈ value ∨ '\\' ∈ value then .error .invalid
  else .ok value

/-- The host in brackets at the front of a text, and what follows it. -/
def splitBracketed (value : Str) : Option (Str × Str) :=
  match value.tail.dropWhile (· ≠ ']') with
  | [] => none
  | _ :: rest => some (value.tail.takeWhile (· ≠ ']'), rest)

/-- An IPv6 address in brackets with an optional port. -/
def parseBracketedIp (value : Str) : Except ForwardedRejection (IpAddr × Option Nat) :=
  match splitBracketed value with
  | none => .error .invalid
  | some (host, rest) =>
      match parseIpv6 host with
      | none => .error .invalid
      | some addr =>
          match rest with
          | [] => .ok (.v6 addr, none)
          | c :: port =>
              if c = ':' then
                ((parsePortStrict port).map fun port => (IpAddr.v6 addr, some port)).mapError
                  fun _ => .invalid
              else .error .invalid

/-- `rsplit_once`: the two sides of the last occurrence. -/
def rsplitOnce (c : Char) (value : Str) : Option (Str × Str) :=
  if c ∈ value then some ((value.rdropWhile (· ≠ c)).dropLast, value.rtakeWhile (· ≠ c)) else none

def isObfuscatedChar (c : Char) : Bool :=
  asciiAlphabetic c.toNat || c.isDigit || c = '_' || c = '-' || c = '.'

def parseForwardedForIdentifier (value : Str) : Except ForwardedRejection ForwardedFor :=
  let value := trim value
  if value = [] then .error .invalid
  else if eqIgnoreAsciiCase value "unknown" then .ok .unknown
  else if value.head? = some '_' then
    if value.length = 1 ∨ value.all isObfuscatedChar = false then .error .invalid
    else .ok .obfuscated
  else if value.head? = some '[' then
    (parseBracketedIp value).map fun (addr, port) => .ip addr port
  else if 1 < value.count ':' then
    match parseIpv6 value with
    | some addr => .ok (.ip (.v6 addr) none)
    | none => .error .invalid
  else
    match rsplitOnce ':' value with
    | some (host, port) =>
        match parseIpv4 host with
        | some addr =>
            ((parsePortStrict port).map fun port => ForwardedFor.ip (.v4 addr) (some port)).mapError
              fun _ => .invalid
        | none => .error .invalid
    | none =>
        match parseIpv4 value with
        | some addr => .ok (.ip (.v4 addr) none)
        | none => .error .invalid

/-- The schemes that mean anything as an origin. -/
def schemeOf (value : Str) : Option Scheme :=
  let lower := value.map Char.toLower
  if lower = "http" then some .http else if lower = "https" then some .https else none

/-- What the pairs of an element have named so far. -/
structure ForwardedPairs where
  forwardFor : Option ForwardedFor
  proto : Option Scheme
  host : Option Authority
  deriving DecidableEq

/-- The key and the unquoted value of a pair. -/
def splitPair (pair : Str) : Except ForwardedRejection (Str × Str) := do
  failIf (trim pair = []) .invalid
  match splitn2 '=' (trim pair) with
  | [key, value] =>
      let text ← unquoteForwardedValue (trim value)
      return ((trim key).map Char.toLower, text)
  | _ => Except.error .invalid

/-- One turn of the loop over the pairs; unknown keys, other schemes and invalid
hosts are passed over. -/
def applyPair (named : ForwardedPairs) (pair : Str) : Except ForwardedRejection ForwardedPairs := do
  let (key, value) ← splitPair pair
  if key = "for" then
    let forwardFor ← parseForwardedForIdentifier value
    return { named with forwardFor := some forwardFor }
  else if key = "proto" then return { named with proto := (schemeOf value).or named.proto }
  else if key = "host" then
    return { named with host := (Authority.parse value).toOption.or named.host }
  else return named

def parseForwardedElement (raw : Str) : Except ForwardedRejection ForwardedElement := do
  let named ← (raw.splitOn ';').foldlM applyPair ⟨none, none, none⟩
  match named.forwardFor with
  | some forwardFor => return ⟨forwardFor, named.proto, named.host⟩
  | none => Except.error .invalid

/-! The chain. -/

/-- The loop for a scheme and an authority that the last element leaves open: the
elements from the right, until both are found. -/
def fillFromLeft : Option Scheme → Option Authority → List ForwardedElement →
    Option Scheme × Option Authority
  | scheme, authority, [] => (scheme, authority)
  | scheme, authority, element :: rest =>
      let scheme := scheme.or element.proto
      let authority := authority.or element.host
      if scheme.isSome ∧ authority.isSome then (scheme, authority)
      else fillFromLeft scheme authority rest

def clientOf : ForwardedFor → Option SocketAddr
  | .unknown => none
  | .obfuscated => none
  | .ip addr port => some ⟨addr, port.getD 0⟩

/-- The effective values of a chain with a last element. -/
def effectiveOf (elements : List ForwardedElement) (last : ForwardedElement) :
    ForwardedEffective :=
  let filled :=
    if last.proto.isNone ∨ last.host.isNone then
      fillFromLeft last.proto last.host elements.reverse
    else (last.proto, last.host)
  ⟨clientOf last.forwardFor, filled.1, filled.2, .forwarded⟩

def parseForwardedChain (joined : Str) (config : ForwardedConfig) :
    Except ForwardedRejection ForwardedEffective := do
  failIf (config.maxBytes < (utf8 joined).length) .tooLarge
  let rawElements := splitList joined
  failIf (rawElements = []) .invalid
  failIf (config.maxElements < rawElements.length) .tooMany
  let elements ← rawElements.mapM parseForwardedElement
  match elements.getLast? with
  | some last => return effectiveOf elements last
  | none => Except.error .invalid

/-! The legacy fields. -/

/-- Quotes around the whole text are dropped. -/
def stripQuotes (value : Str) : Str :=
  if 2 ≤ value.length ∧ value.head? = some '"' ∧ value.getLast? = some '"' then value.tail.dropLast
  else value

def parseXForwardedForEntry (value : Str) : Except ForwardedRejection SocketAddr :=
  let value := trim value
  if value = [] then .error .invalid
  else
    let unquoted := stripQuotes value
    if unquoted.head? = some '[' then
      (parseBracketedIp unquoted).map fun (addr, port) => ⟨addr, port.getD 0⟩
    else
      match parseIpv4 unquoted, parseIpv6 unquoted, rsplitOnce ':' unquoted with
      | some addr, _, _ => .ok ⟨.v4 addr, 0⟩
      | none, some addr, _ => .ok ⟨.v6 addr, 0⟩
      | none, none, some (host, port) =>
          if ':' ∈ host then .error .invalid
          else
            match parseIpv4 host with
            | some addr =>
                ((parsePortStrict port).map fun port => SocketAddr.mk (.v4 addr) port).mapError
                  fun _ => .invalid
            | none => .error .invalid
      | none, none, none => .error .invalid

def parseXForwardedProto (value : Str) : Except ForwardedRejection Scheme :=
  match schemeOf value with
  | some scheme => .ok scheme
  | none => .error .invalid

def parseXForwardedHost (value : Str) : Except ForwardedRejection Authority :=
  (Authority.parse (stripQuotes value)).mapError fun _ => .invalid

/-- One of the three lists: every entry is parsed, and the last one counts. -/
def parseLegacyList {α : Type} (parse : Str → Except ForwardedRejection α) (config : ForwardedConfig)
    (values : List HeaderValue) : Except ForwardedRejection (Option α) := do
  let joined := joinHeaderValues values
  if trim joined = [] then return none
  else
    let parts := splitList joined
    failIf (parts = []) .invalid
    failIf (config.maxElements < parts.length) .tooMany
    let entries ← parts.mapM parse
    return entries.getLast?

def parseLegacyForwarded (xff xfp xfh : List HeaderValue) (config : ForwardedConfig) :
    Except ForwardedRejection (Option ForwardedEffective) := do
  let client ← parseLegacyList parseXForwardedForEntry config xff
  let scheme ← parseLegacyList parseXForwardedProto config xfp
  let authority ← parseLegacyList parseXForwardedHost config xfh
  if client.isNone ∧ scheme.isNone ∧ authority.isNone then return none
  else return some ⟨client, scheme, authority, .legacyForwarded⟩

/-! The metadata of a request. -/

def forwardedName : HeaderName := ⟨"forwarded", by decide⟩

/-- The values of the two families. -/
structure ForwardedValues where
  forwarded : List HeaderValue
  xff : List HeaderValue
  xfp : List HeaderValue
  xfh : List HeaderValue
  deriving DecidableEq

namespace ForwardedValues

def of (headers : HeaderBlock) : ForwardedValues where
  forwarded := headers.getAll "forwarded"
  xff := headers.getAll "x-forwarded-for"
  xfp := headers.getAll "x-forwarded-proto"
  xfh := headers.getAll "x-forwarded-host"

def hasStandard (values : ForwardedValues) : Bool := !values.forwarded.isEmpty

def hasLegacy (values : ForwardedValues) : Bool :=
  !values.xff.isEmpty || !values.xfp.isEmpty || !values.xfh.isEmpty

/-- The values of the families that are enabled. -/
def relevant (values : ForwardedValues) (config : ForwardedConfig) : List HeaderValue :=
  (if config.standardEnabled then values.forwarded else []) ++
    if config.legacyEnabled then values.xff ++ values.xfp ++ values.xfh else []

/-- The octets of the relevant values. Values in memory never come near the
point where the sum of the source saturates. -/
def totalBytes (values : ForwardedValues) (config : ForwardedConfig) : Nat :=
  ((values.relevant config).map fun value => value.bytes.length).sum

end ForwardedValues

/-- Every rejection of a chain is reported as invalid, but for the number of its
elements. -/
def chainRejection : ForwardedRejection → ForwardedRejection
  | .tooMany => .tooMany
  | _ => .invalid

/-- The checks and the parser, for values of which a family is enabled and
present. -/
def deriveEnabled (values : ForwardedValues) (config : ForwardedConfig)
    (trustedPeer enabledStandard enabledLegacy : Bool) :
    Except ForwardedRejection (Option ForwardedEffective) := do
  failIf (trustedPeer = false) .untrustedPeer
  failIf (config.isDisabled = true) .disabled
  failIf (enabledStandard = true ∧ enabledLegacy = true) .conflict
  failIf (config.maxBytes < values.totalBytes config) .tooLarge
  if enabledStandard then
    ((parseForwardedChain (joinHeaderValues values.forwarded) config).map some).mapError
      chainRejection
  else parseLegacyForwarded values.xff values.xfp values.xfh config

def deriveForwardedEffective (headers : HeaderBlock) (config : ForwardedConfig)
    (trustedPeer : Bool) : Except ForwardedRejection (Option ForwardedEffective) :=
  let values := ForwardedValues.of headers
  let enabledStandard := values.hasStandard && config.standardEnabled
  let enabledLegacy := values.hasLegacy && config.legacyEnabled
  if enabledStandard = false ∧ enabledLegacy = false then .ok none
  else deriveEnabled values config trustedPeer enabledStandard enabledLegacy

/-! The elements of a list. -/

theorem mem_splitList {element joined : Str} (h : element ∈ splitList joined) :
    element ≠ [] ∧ trim element = element ∧ ',' ∉ element ∧ element ⊆ joined := by
  rw [splitList, List.mem_filter, List.mem_map] at h
  obtain ⟨⟨piece, hPiece, rfl⟩, hNonempty⟩ := h
  refine ⟨by simpa using hNonempty, trim_trim piece, ?_, ?_⟩
  · exact fun hComma => not_mem_of_mem_splitOn hPiece (trim_subset piece hComma)
  · exact fun c hc => mem_of_mem_splitOn hPiece (trim_subset piece hc)

/-- A text of blanks has no elements. -/
theorem splitList_of_blank {joined : Str} (h : trim joined = []) : splitList joined = [] := by
  rw [trim_eq_nil_iff] at h
  rw [splitList, List.filter_eq_nil_iff]
  intro element hElement
  obtain ⟨piece, hPiece, rfl⟩ := List.mem_map.mp hElement
  have hBlank : trim piece = [] :=
    trim_eq_nil_iff.mpr fun c hc => h c (mem_of_mem_splitOn hPiece hc)
  simp [hBlank]

/-! What is accepted. -/

theorem fillFromLeft_eq (scheme : Option Scheme) (authority : Option Authority)
    (elements : List ForwardedElement) :
    fillFromLeft scheme authority elements =
      (scheme.or (elements.findSome? (·.proto)), authority.or (elements.findSome? (·.host))) := by
  induction elements generalizing scheme authority with
  | nil => simp [fillFromLeft]
  | cons element rest ih =>
      simp only [fillFromLeft, ih, List.findSome?_cons]
      cases scheme <;> cases authority <;> cases element.proto <;> cases element.host <;> simp

/-- The rightmost scheme that an element names. -/
def lastProto (elements : List ForwardedElement) : Option Scheme :=
  elements.reverse.findSome? (·.proto)

def lastHost (elements : List ForwardedElement) : Option Authority :=
  elements.reverse.findSome? (·.host)

/-- The client is that of the last element; the other values are the rightmost
ones that any element names. -/
theorem effectiveOf_eq {elements : List ForwardedElement} {last : ForwardedElement}
    (h : elements.getLast? = some last) :
    effectiveOf elements last =
      ⟨clientOf last.forwardFor, lastProto elements, lastHost elements, .forwarded⟩ := by
  obtain ⟨front, rfl⟩ := List.getLast?_eq_some_iff.mp h
  simp only [effectiveOf, fillFromLeft_eq, lastProto, lastHost, List.reverse_append,
    List.reverse_singleton, List.singleton_append, List.findSome?_cons]
  cases last.proto <;> cases last.host <;> simp

theorem parseForwardedChain_eq_ok {joined : Str} {config : ForwardedConfig}
    {effective : ForwardedEffective} :
    parseForwardedChain joined config = .ok effective ↔
      (utf8 joined).length ≤ config.maxBytes ∧ (splitList joined).length ≤ config.maxElements ∧
        ∃ elements last, (splitList joined).mapM parseForwardedElement = .ok elements ∧
          elements.getLast? = some last ∧
          effective = ⟨clientOf last.forwardFor, lastProto elements, lastHost elements,
            .forwarded⟩ := by
  rw [parseForwardedChain, check_bind_eq_ok, check_bind_eq_ok, check_bind_eq_ok, failIf_eq_ok,
    failIf_eq_ok, failIf_eq_ok, not_lt, not_lt]
  constructor
  · rintro ⟨hBytes, -, hCount, hRest⟩
    obtain ⟨elements, hElements, hRest⟩ := bind_eq_ok.mp hRest
    cases hLast : elements.getLast? with
    | none =>
        rw [hLast] at hRest
        cases hRest
    | some last =>
        rw [hLast] at hRest
        cases hRest
        exact ⟨hBytes, hCount, elements, last, hElements, hLast, effectiveOf_eq hLast⟩
  · rintro ⟨hBytes, hCount, elements, last, hElements, hLast, rfl⟩
    have hNonempty : splitList joined ≠ [] := by
      intro hNil
      rw [hNil, mapM_eq_ok] at hElements
      cases hElements
      cases hLast
    refine ⟨hBytes, hNonempty, hCount, bind_eq_ok.mpr ⟨elements, hElements, ?_⟩⟩
    rw [hLast, ← effectiveOf_eq hLast]
    rfl

theorem parseLegacyList_eq_ok {α : Type} {parse : Str → Except ForwardedRejection α}
    {config : ForwardedConfig} {values : List HeaderValue} {entry : Option α}
    (h : parseLegacyList parse config values = .ok entry) :
    trim (joinHeaderValues values) = [] ∧ entry = none ∨
      (splitList (joinHeaderValues values)).length ≤ config.maxElements ∧
        ∃ entries, (splitList (joinHeaderValues values)).mapM parse = .ok entries ∧
          entry = entries.getLast? := by
  rw [parseLegacyList] at h
  split_ifs at h with hBlank
  · cases h
    exact Or.inl ⟨hBlank, rfl⟩
  · rw [check_bind_eq_ok, check_bind_eq_ok, failIf_eq_ok, failIf_eq_ok, not_lt] at h
    obtain ⟨-, hCount, hRest⟩ := h
    obtain ⟨entries, hEntries, hPure⟩ := bind_eq_ok.mp hRest
    cases hPure
    exact Or.inr ⟨hCount, entries, hEntries, rfl⟩

theorem parseLegacyForwarded_eq_ok {xff xfp xfh : List HeaderValue} {config : ForwardedConfig}
    {effective : ForwardedEffective}
    (h : parseLegacyForwarded xff xfp xfh config = .ok (some effective)) :
    parseLegacyList parseXForwardedForEntry config xff = .ok effective.client ∧
      parseLegacyList parseXForwardedProto config xfp = .ok effective.scheme ∧
      parseLegacyList parseXForwardedHost config xfh = .ok effective.authority ∧
      effective.provenance = .legacyForwarded := by
  rw [parseLegacyForwarded] at h
  obtain ⟨client, hClient, h⟩ := bind_eq_ok.mp h
  obtain ⟨scheme, hScheme, h⟩ := bind_eq_ok.mp h
  obtain ⟨authority, hAuthority, h⟩ := bind_eq_ok.mp h
  split_ifs at h
  · cases h
  · cases h
    exact ⟨hClient, hScheme, hAuthority, rfl⟩

/-- The family of a result is enabled and present, and the other one is not both. -/
inductive DerivedFrom (headers : HeaderBlock) (config : ForwardedConfig)
    (effective : ForwardedEffective) : Prop where
  | standard (hFamily : ((ForwardedValues.of headers).hasStandard && config.standardEnabled) = true)
      (hOther : ((ForwardedValues.of headers).hasLegacy && config.legacyEnabled) = false)
      (hChain : parseForwardedChain
        (joinHeaderValues (ForwardedValues.of headers).forwarded) config = .ok effective)
  | legacy (hFamily : ((ForwardedValues.of headers).hasLegacy && config.legacyEnabled) = true)
      (hOther : ((ForwardedValues.of headers).hasStandard && config.standardEnabled) = false)
      (hLists : parseLegacyForwarded (ForwardedValues.of headers).xff
        (ForwardedValues.of headers).xfp (ForwardedValues.of headers).xfh config =
          .ok (some effective))

theorem not_isDisabled {config : ForwardedConfig}
    (h : config.standardEnabled = true ∨ config.legacyEnabled = true) :
    config.isDisabled = false := by
  rcases h with h | h <;> simp [ForwardedConfig.isDisabled, h]

theorem deriveEnabled_eq_ok {values : ForwardedValues} {config : ForwardedConfig}
    {trustedPeer standard legacy : Bool} {effective : ForwardedEffective} :
    deriveEnabled values config trustedPeer standard legacy = .ok (some effective) ↔
      trustedPeer = true ∧ config.isDisabled = false ∧ (standard && legacy) = false ∧
        values.totalBytes config ≤ config.maxBytes ∧
        if standard then
          parseForwardedChain (joinHeaderValues values.forwarded) config = .ok effective
        else
          parseLegacyForwarded values.xff values.xfp values.xfh config = .ok (some effective) := by
  rw [deriveEnabled, check_bind_eq_ok, check_bind_eq_ok, check_bind_eq_ok, check_bind_eq_ok]
  cases standard <;> simp [mapError_eq_ok, map_eq_ok]

/-- What is accepted comes from a trusted peer, within the budget, and from one
family alone. -/
theorem deriveForwardedEffective_eq_ok {headers : HeaderBlock} {config : ForwardedConfig}
    {trustedPeer : Bool} {effective : ForwardedEffective} :
    deriveForwardedEffective headers config trustedPeer = .ok (some effective) ↔
      trustedPeer = true ∧ (ForwardedValues.of headers).totalBytes config ≤ config.maxBytes ∧
        DerivedFrom headers config effective := by
  simp only [deriveForwardedEffective]
  split_ifs with hAbsent
  · simp only [Except.ok.injEq, reduceCtorEq, false_iff]
    rintro ⟨-, -, hFrom⟩
    cases hFrom with
    | standard hFamily => simp [hAbsent.1] at hFamily
    | legacy hFamily => simp [hAbsent.2] at hFamily
  · rw [deriveEnabled_eq_ok]
    constructor
    · rintro ⟨hTrusted, -, hConflict, hBytes, hParse⟩
      refine ⟨hTrusted, hBytes, ?_⟩
      cases hStandard : (ForwardedValues.of headers).hasStandard && config.standardEnabled with
      | true =>
          rw [hStandard] at hParse hConflict
          exact .standard hStandard hConflict hParse
      | false =>
          rw [hStandard] at hParse
          exact .legacy (by simpa [hStandard] using hAbsent) hStandard hParse
    · rintro ⟨hTrusted, hBytes, hFrom⟩
      cases hFrom with
      | standard hFamily hOther hChain =>
          have hEnabled := not_isDisabled (Or.inl (Bool.and_eq_true_iff.mp hFamily).2)
          refine ⟨hTrusted, hEnabled, by simp [hOther], hBytes, ?_⟩
          rw [if_pos hFamily]
          exact hChain
      | legacy hFamily hOther hLists =>
          have hEnabled := not_isDisabled (Or.inr (Bool.and_eq_true_iff.mp hFamily).2)
          refine ⟨hTrusted, hEnabled, by simp [hOther], hBytes, ?_⟩
          rw [if_neg (by simp [hOther])]
          exact hLists

end Eggserve.Primitives
