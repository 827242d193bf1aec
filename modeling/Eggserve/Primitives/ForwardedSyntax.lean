import Eggserve.Primitives.Forwarded

/-! The grammar behind the forwarded fields, and that the parsers follow it. -/
namespace Eggserve.Primitives
open Rust

/-! Values. -/

/-- The inside of a quoted string and the text that it stands for. -/
inductive Unescapes : Str → Str → Prop where
  | nil : Unescapes [] []
  | plain {c : Char} {body text : Str} (hPlain : c ≠ '\\' ∧ c ≠ '"') (hRest : Unescapes body text) :
      Unescapes (c :: body) (c :: text)
  | escape {c : Char} {body text : Str} (hEscaped : c = '"' ∨ c = '\\')
      (hRest : Unescapes body text) : Unescapes ('\\' :: c :: body) (c :: text)

/-- A value: a quoted string, or a text without quotes and backslashes. -/
inductive IsValue : Str → Str → Prop where
  | quoted {body text : Str} (h : Unescapes body text) : IsValue ('"' :: (body ++ ['"'])) text
  | plain {value : Str} (hQuote : '"' ∉ value) (hBackslash : '\\' ∉ value) : IsValue value value

theorem unescapeQuoted_eq_ok {body text : Str} :
    unescapeQuoted body = .ok text ↔ Unescapes body text := by
  constructor
  · intro h
    fun_induction unescapeQuoted body generalizing text with
    | case1 =>
        cases h
        exact .nil
    | case2 d rest hEscaped ih =>
        obtain ⟨inner, hInner, rfl⟩ := map_eq_ok.mp h
        exact .escape hEscaped (ih hInner)
    | case3 => cases h
    | case4 => cases h
    | case5 => cases h
    | case6 c rest hBackslash hQuote ih =>
        obtain ⟨inner, hInner, rfl⟩ := map_eq_ok.mp h
        exact .plain ⟨hBackslash, hQuote⟩ (ih hInner)
  · intro h
    induction h with
    | nil => rfl
    | plain hPlain _ ih =>
        rw [unescapeQuoted.eq_def]
        simp only [if_neg hPlain.1, if_neg hPlain.2, ih]
        rfl
    | escape hEscaped _ ih =>
        rw [unescapeQuoted, if_pos rfl]
        simp only [if_pos hEscaped, ih]
        rfl

/-- A text of at least two characters with a quote at each end. -/
theorem quoted_iff {value : Str} :
    (2 ≤ value.length ∧ value.head? = some '"' ∧ value.getLast? = some '"') ↔
      ∃ body, value = '"' :: (body ++ ['"']) := by
  constructor
  · rintro ⟨hLength, hHead, hLast⟩
    obtain ⟨tail, rfl⟩ := List.head?_eq_some_iff.mp hHead
    have hTail : tail ≠ [] := by
      rintro rfl
      simp at hLength
    rw [List.getLast?_cons_of_ne_nil hTail] at hLast
    obtain ⟨body, rfl⟩ := List.getLast?_eq_some_iff.mp hLast
    exact ⟨body, rfl⟩
  · rintro ⟨body, rfl⟩
    refine ⟨by simp, rfl, ?_⟩
    rw [← List.cons_append, List.getLast?_concat]

theorem unquoteForwardedValue_eq_ok {value text : Str} :
    unquoteForwardedValue value = .ok text ↔ IsValue (trim value) text := by
  rw [unquoteForwardedValue]
  by_cases hQuoted : 2 ≤ (trim value).length ∧ (trim value).head? = some '"' ∧
      (trim value).getLast? = some '"'
  · obtain ⟨body, hBody⟩ := quoted_iff.mp hQuoted
    simp only [if_pos hQuoted]
    rw [hBody, List.tail_cons, List.dropLast_concat, unescapeQuoted_eq_ok]
    constructor
    · exact .quoted
    · intro h
      generalize hValue : '"' :: (body ++ ['"']) = value at h
      cases h with
      | quoted h =>
          rw [List.cons.injEq, List.append_left_inj] at hValue
          rwa [hValue.2]
      | plain hQuote => exact absurd (hValue ▸ List.mem_cons_self) hQuote
  · simp only [if_neg hQuoted]
    split_ifs with hSpecial
    · simp only [false_iff]
      intro h
      generalize trim value = value at h hQuoted hSpecial
      cases h with
      | quoted _ => exact hQuoted (quoted_iff.mpr ⟨_, rfl⟩)
      | plain hQuote hBackslash => exact hSpecial.elim hQuote hBackslash
    · rw [not_or] at hSpecial
      constructor
      · intro h
        cases h
        exact .plain hSpecial.1 hSpecial.2
      · intro h
        generalize trim value = value at h hSpecial
        cases h with
        | quoted _ => simp at hSpecial
        | plain => rfl

/-! Pairs. -/

/-- A pair with its lowercase key and the text of its value. -/
inductive IsPair (pair : Str) : Str → Str → Prop where
  | mk {name raw value : Str} (hPair : trim pair = name ++ '=' :: raw) (hName : '=' ∉ name)
      (hValue : IsValue (trim raw) value) : IsPair pair ((trim name).map Char.toLower) value

/-- A text is cut at its first separator, or has none. -/
theorem exists_splitn2 (c : Char) (s : Str) :
    (c ∉ s ∧ splitn2 c s = [s]) ∨
      ∃ first rest, s = first ++ c :: rest ∧ c ∉ first ∧ splitn2 c s = [first, rest] := by
  by_cases h : c ∈ s
  · obtain ⟨first, rest, rfl, hFirst⟩ := List.eq_append_cons_of_mem h
    exact Or.inr ⟨first, rest, rfl, hFirst, splitn2_append rest hFirst⟩
  · exact Or.inl ⟨h, splitn2_of_not_mem h⟩

theorem splitPair_eq_ok {pair key value : Str} :
    splitPair pair = .ok (key, value) ↔ IsPair pair key value := by
  rw [splitPair, check_bind_eq_ok, failIf_eq_ok]
  constructor
  · rintro ⟨-, h⟩
    rcases exists_splitn2 '=' (trim pair) with ⟨-, hSplit⟩ | ⟨name, raw, hPair, hName, hSplit⟩
    · rw [hSplit] at h
      cases h
    · rw [hSplit] at h
      obtain ⟨text, hText, hPure⟩ := bind_eq_ok.mp h
      cases hPure
      rw [unquoteForwardedValue_eq_ok, trim_trim] at hText
      exact .mk hPair hName hText
  · intro h
    cases h with
    | @mk name raw _ hPair hName hValue =>
        refine ⟨by simp [hPair], ?_⟩
        rw [hPair, splitn2_append raw hName]
        refine bind_eq_ok.mpr ⟨value, ?_, rfl⟩
        rwa [unquoteForwardedValue_eq_ok, trim_trim]

/-! Addresses and identifiers. -/

/-- An IP address with an optional port; in brackets, IPv6 only. -/
inductive IpText : Str → IpAddr → Option Nat → Prop where
  | v4 {text : Str} {addr : Ipv4Addr} (h : parseIpv4 text = some addr) : IpText text (.v4 addr) none
  | v4Port {host port : Str} {addr : Ipv4Addr} {number : Nat} (h : parseIpv4 host = some addr)
      (hPort : parsePortStrict port = .ok number) :
      IpText (host ++ ':' :: port) (.v4 addr) (some number)
  | v6 {text : Str} {addr : Ipv6Addr} (h : parseIpv6 text = some addr) : IpText text (.v6 addr) none
  | bracketed {host : Str} {addr : Ipv6Addr} (h : parseIpv6 host = some addr) :
      IpText ('[' :: (host ++ [']'])) (.v6 addr) none
  | bracketedPort {host port : Str} {addr : Ipv6Addr} {number : Nat}
      (h : parseIpv6 host = some addr) (hPort : parsePortStrict port = .ok number) :
      IpText ('[' :: (host ++ ']' :: ':' :: port)) (.v6 addr) (some number)

/-- A `for` identifier and what it stands for. -/
inductive IsIdentifier : Str → ForwardedFor → Prop where
  | unknown {text : Str} (h : eqIgnoreAsciiCase text "unknown" = true) : IsIdentifier text .unknown
  | obfuscated {name : Str} (hName : name ≠ []) (h : name.all isObfuscatedChar = true) :
      IsIdentifier ('_' :: name) .obfuscated
  | address {text : Str} {addr : IpAddr} {port : Option Nat} (h : IpText text addr port) :
      IsIdentifier text (.ip addr port)

theorem splitBracketed_eq_some {value host rest : Str} (h : splitBracketed value = some (host, rest)) :
    value.tail = host ++ ']' :: rest := by
  rw [splitBracketed] at h
  by_cases hClose : ']' ∈ value.tail
  · obtain ⟨first, behind, hTail, hFirst⟩ := List.eq_append_cons_of_mem hClose
    obtain ⟨hTake, hDrop⟩ := takeWhile_ne_append behind hFirst
    rw [hTail, hDrop, hTake] at h
    cases h
    exact hTail
  · have hNone : value.tail.dropWhile (· ≠ ']') = [] := by
      rw [List.dropWhile_eq_nil_iff]
      intro c hc
      simpa using fun hEq : c = ']' => hClose (hEq ▸ hc)
    rw [hNone] at h
    cases h

theorem parseBracketedIp_eq_ok {value : Str} (hOpen : value.head? = some '[') {addr : IpAddr}
    {port : Option Nat} (h : parseBracketedIp value = .ok (addr, port)) : IpText value addr port := by
  obtain ⟨tail, rfl⟩ := List.head?_eq_some_iff.mp hOpen
  rw [parseBracketedIp] at h
  cases hSplit : splitBracketed ('[' :: tail) with
  | none =>
      rw [hSplit] at h
      cases h
  | some parts =>
      obtain ⟨host, rest⟩ := parts
      have hTail := splitBracketed_eq_some hSplit
      rw [List.tail_cons] at hTail
      subst hTail
      simp only [hSplit] at h
      cases hHost : parseIpv6 host with
      | none =>
          rw [hHost] at h
          cases h
      | some found =>
          simp only [hHost] at h
          cases rest with
          | nil =>
              cases h
              exact .bracketed hHost
          | cons c digits =>
              by_cases hColon : c = ':'
              · subst hColon
                simp only [if_pos] at h
                rw [mapError_eq_ok] at h
                obtain ⟨number, hPort, hPair⟩ := map_eq_ok.mp h
                cases hPair
                exact .bracketedPort hHost hPort
              · simp only [if_neg hColon] at h
                cases h

theorem rsplitOnce_eq_some {c : Char} {value first last : Str}
    (h : rsplitOnce c value = some (first, last)) : value = first ++ c :: last := by
  obtain ⟨hMem, hParts⟩ := Option.ite_none_right_eq_some.mp h
  cases hParts
  have hCut := List.rdropWhile_append_rtakeWhile (p := (· ≠ c)) (l := value)
  have hNonempty : value.rdropWhile (· ≠ c) ≠ [] := by
    rw [ne_eq, List.rdropWhile_eq_nil_iff]
    intro hNone
    simpa using hNone c hMem
  have hLast : (value.rdropWhile (· ≠ c)).getLast hNonempty = c := by
    simpa using List.rdropWhile_last_not (· ≠ c) value hNonempty
  calc value
      = value.rdropWhile (· ≠ c) ++ value.rtakeWhile (· ≠ c) := hCut.symm
    _ = (value.rdropWhile (· ≠ c)).dropLast ++ c :: value.rtakeWhile (· ≠ c) := by
        conv_lhs => rw [← List.dropLast_append_getLast hNonempty, hLast]
        rw [List.append_assoc, List.singleton_append]

theorem parseForwardedForIdentifier_eq_ok {value : Str} {identifier : ForwardedFor}
    (h : parseForwardedForIdentifier value = .ok identifier) :
    IsIdentifier (trim value) identifier := by
  rw [parseForwardedForIdentifier] at h
  generalize trim value = text at h
  split_ifs at h with hEmpty hUnknown hUnderscore hBad hBracket hColons
  · cases h
    exact .unknown hUnknown
  · cases h
    obtain ⟨name, rfl⟩ := List.head?_eq_some_iff.mp hUnderscore
    rw [not_or, Bool.not_eq_false, List.all_cons, Bool.and_eq_true] at hBad
    refine .obfuscated ?_ hBad.2.2
    rintro rfl
    exact hBad.1 rfl
  · obtain ⟨⟨addr, port⟩, hParsed, rfl⟩ := map_eq_ok.mp h
    exact .address (parseBracketedIp_eq_ok hBracket hParsed)
  · cases hAddr : parseIpv6 text with
    | none =>
        rw [hAddr] at h
        cases h
    | some addr =>
        rw [hAddr] at h
        cases h
        exact .address (.v6 hAddr)
  · cases hSplit : rsplitOnce ':' text with
    | none =>
        simp only [hSplit] at h
        cases hAddr : parseIpv4 text with
        | none =>
            rw [hAddr] at h
            cases h
        | some addr =>
            rw [hAddr] at h
            cases h
            exact .address (.v4 hAddr)
    | some parts =>
        obtain ⟨host, digits⟩ := parts
        rw [rsplitOnce_eq_some hSplit]
        simp only [hSplit] at h
        cases hAddr : parseIpv4 host with
        | none =>
            rw [hAddr] at h
            cases h
        | some addr =>
            rw [hAddr, mapError_eq_ok] at h
            obtain ⟨number, hPort, hPair⟩ := map_eq_ok.mp h
            cases hPair
            exact .address (.v4Port hAddr hPort)

/-! Elements. -/

/-- The element has a pair with this key and with a value of which `what` holds. -/
def NamesWith (element key : Str) (what : Str → Prop) : Prop :=
  ∃ pair ∈ element.splitOn ';', ∃ value, IsPair pair key value ∧ what value

def NamesFor (element : Str) (identifier : ForwardedFor) : Prop :=
  NamesWith element "for" fun value => IsIdentifier (trim value) identifier

def NamesProto (element : Str) (scheme : Scheme) : Prop :=
  NamesWith element "proto" fun value => schemeOf value = some scheme

def NamesHost (element : Str) (authority : Authority) : Prop :=
  NamesWith element "host" fun value => Authority.parse value = .ok authority

/-- Every pair has a key and a value, every `for` is an identifier, and there is
one. -/
structure WellFormedElement (element : Str) : Prop where
  pairs : ∀ pair ∈ element.splitOn ';', ∃ key value, IsPair pair key value ∧
    (key = "for" → ∃ identifier, IsIdentifier (trim value) identifier)
  client : ∃ identifier, NamesFor element identifier

/-- What has been named so far stands in the element. -/
structure ForwardedPairs.NamedIn (named : ForwardedPairs) (element : Str) : Prop where
  forwardFor : ∀ identifier, named.forwardFor = some identifier → NamesFor element identifier
  proto : ∀ scheme, named.proto = some scheme → NamesProto element scheme
  host : ∀ authority, named.host = some authority → NamesHost element authority

/-- What one turn of the loop over the pairs does. -/
inductive Applied (named : ForwardedPairs) (pair : Str) : ForwardedPairs → Prop where
  | forwardFor {value : Str} {identifier : ForwardedFor} (hPair : IsPair pair "for" value)
      (hIdentifier : IsIdentifier (trim value) identifier) :
      Applied named pair { named with forwardFor := some identifier }
  | proto {value : Str} (hPair : IsPair pair "proto" value) :
      Applied named pair { named with proto := (schemeOf value).or named.proto }
  | host {value : Str} (hPair : IsPair pair "host" value) :
      Applied named pair { named with host := (Authority.parse value).toOption.or named.host }
  | other {key value : Str} (hPair : IsPair pair key value) (hKey : key ≠ "for") :
      Applied named pair named

theorem applyPair_eq_ok {named after : ForwardedPairs} {pair : Str}
    (h : applyPair named pair = .ok after) : Applied named pair after := by
  obtain ⟨⟨key, value⟩, hSplit, h⟩ := bind_eq_ok.mp h
  have hPair := splitPair_eq_ok.mp hSplit
  dsimp only at h
  split_ifs at h with hFor hProto hHost
  · obtain ⟨identifier, hIdentifier, hPure⟩ := bind_eq_ok.mp h
    cases hPure
    exact .forwardFor (hFor ▸ hPair) (parseForwardedForIdentifier_eq_ok hIdentifier)
  · cases h
    exact .proto (hProto ▸ hPair)
  · cases h
    exact .host (hHost ▸ hPair)
  · cases h
    exact .other hPair hFor

theorem ForwardedPairs.NamedIn.applied {element pair : Str} {named after : ForwardedPairs}
    (hPair : pair ∈ element.splitOn ';') (hNamed : named.NamedIn element)
    (h : Applied named pair after) : after.NamedIn element := by
  cases h with
  | forwardFor hIs hIdentifier =>
      refine ⟨fun identifier hSome => ?_, hNamed.proto, hNamed.host⟩
      cases hSome
      exact ⟨pair, hPair, _, hIs, hIdentifier⟩
  | @proto value hIs =>
      refine ⟨hNamed.forwardFor, fun scheme hSome => ?_, hNamed.host⟩
      rcases Option.or_eq_some_iff.mp hSome with hScheme | ⟨-, hOld⟩
      · exact ⟨pair, hPair, value, hIs, hScheme⟩
      · exact hNamed.proto scheme hOld
  | @host value hIs =>
      refine ⟨hNamed.forwardFor, hNamed.proto, fun authority hSome => ?_⟩
      rcases Option.or_eq_some_iff.mp hSome with hAuthority | ⟨-, hOld⟩
      · refine ⟨pair, hPair, value, hIs, ?_⟩
        cases hParse : Authority.parse value with
        | error e =>
            rw [hParse] at hAuthority
            cases hAuthority
        | ok found =>
            rw [hParse] at hAuthority
            cases hAuthority
            exact hParse
      · exact hNamed.host authority hOld
  | other => exact hNamed

/-- An element that is accepted is well formed, and what it gives stands in it. -/
theorem parseForwardedElement_eq_ok {element : Str} {parsed : ForwardedElement}
    (h : parseForwardedElement element = .ok parsed) :
    WellFormedElement element ∧
      ForwardedPairs.NamedIn ⟨some parsed.forwardFor, parsed.proto, parsed.host⟩ element := by
  obtain ⟨named, hFold, h⟩ := bind_eq_ok.mp h
  have hNamed : named.NamedIn element := by
    refine foldlM_invariant (P := fun named => named.NamedIn element) ?_ ?_ hFold
    · exact fun pair hPair before after hBefore hStep => hBefore.applied hPair (applyPair_eq_ok hStep)
    · exact ⟨by simp, by simp, by simp⟩
  cases hFor : named.forwardFor with
  | none =>
      simp only [hFor] at h
      cases h
  | some identifier =>
      simp only [hFor] at h
      cases h
      refine ⟨⟨fun pair hPair => ?_, identifier, hNamed.forwardFor _ hFor⟩, ?_⟩
      · obtain ⟨before, after, hStep⟩ := foldlM_turns hFold pair hPair
        cases applyPair_eq_ok hStep with
        | forwardFor hIs hIdentifier => exact ⟨_, _, hIs, fun _ => ⟨_, hIdentifier⟩⟩
        | proto hIs => exact ⟨_, _, hIs, fun hKey => absurd hKey (by decide)⟩
        | host hIs => exact ⟨_, _, hIs, fun hKey => absurd hKey (by decide)⟩
        | other hIs hKey => exact ⟨_, _, hIs, fun hFor => absurd hFor hKey⟩
      · exact ⟨fun _ hSome => hNamed.forwardFor _ (hFor.trans hSome), hNamed.proto, hNamed.host⟩

end Eggserve.Primitives
