import Eggserve.Primitives.Forwarded

/-! One trusted hop: the element that the trusted proxy appended stands
rightmost, and everything to its left was written by somebody who is not
trusted. -/
namespace Eggserve.Primitives
open Rust

/-- The rightmost element of a list field. -/
def rightmostElement (headers : HeaderBlock) (name : Str) : Option Str :=
  (splitList (joinHeaderValues (headers.getAll name))).getLast?

/-- The request is accepted, with metadata of the given family. -/
def AcceptedAs (kind : ProxySourceKind) (headers : HeaderBlock) (config : ForwardedConfig)
    (effective : ForwardedEffective) : Prop :=
  deriveForwardedEffective headers config true = .ok (some effective) ∧ effective.provenance = kind

/-- Any two accepted requests with this rightmost element get the same metadata. -/
def DecidedBy (element : Str) : Prop :=
  ∀ config first second firstEffective secondEffective,
    AcceptedAs .forwarded first config firstEffective →
    AcceptedAs .forwarded second config secondEffective →
    rightmostElement first "forwarded" = some element →
    rightmostElement second "forwarded" = some element →
      firstEffective.client = secondEffective.client ∧
        firstEffective.scheme = secondEffective.scheme ∧
        firstEffective.authority = secondEffective.authority

/-- Each of the legacy lists, taken separately, decides its value by its
rightmost element. -/
def LegacyDecided : Prop :=
  ∀ config first second firstEffective secondEffective,
    AcceptedAs .legacyForwarded first config firstEffective →
    AcceptedAs .legacyForwarded second config secondEffective →
      (rightmostElement first "x-forwarded-for" = rightmostElement second "x-forwarded-for" →
        firstEffective.client = secondEffective.client) ∧
      (rightmostElement first "x-forwarded-proto" = rightmostElement second "x-forwarded-proto" →
        firstEffective.scheme = secondEffective.scheme) ∧
      (rightmostElement first "x-forwarded-host" = rightmostElement second "x-forwarded-host" →
        firstEffective.authority = secondEffective.authority)

/-- The element names a scheme and an authority that are usable. -/
def NamesBoth (element : Str) : Prop :=
  ∃ parsed, parseForwardedElement element = .ok parsed ∧ parsed.proto.isSome = true ∧
    parsed.host.isSome = true

/-- A parsed list ends with what its last item parses to. -/
theorem getLast?_of_forall₂ {α β : Type} {r : α → β → Prop} {items : List α} {results : List β}
    (h : List.Forall₂ r items results) {item : α} (hLast : items.getLast? = some item) :
    ∃ result, results.getLast? = some result ∧ r item result := by
  rw [List.getLast?_eq_head?_reverse] at hLast ⊢
  obtain ⟨others, hReverse⟩ := List.head?_eq_some_iff.mp hLast
  rw [← List.forall₂_reverse_iff, hReverse] at h
  generalize results.reverse = reversed at h ⊢
  cases h with
  | cons hItem _ => exact ⟨_, rfl, hItem⟩

theorem getLast?_eq_none_of_forall₂ {α β : Type} {r : α → β → Prop} {items : List α}
    {results : List β} (h : List.Forall₂ r items results) (hLast : items.getLast? = none) :
    results.getLast? = none := by
  rw [List.getLast?_eq_none_iff] at hLast ⊢
  subst hLast
  cases h
  rfl

/-! The legacy lists. -/

/-- A legacy list gives what its rightmost element parses to. -/
theorem entry_of_rightmost {α : Type} {parse : Str → Except ForwardedRejection α}
    {config : ForwardedConfig} {values : List HeaderValue} {entry : Option α}
    (h : parseLegacyList parse config values = .ok entry) :
    entry = (splitList (joinHeaderValues values)).getLast?.bind fun last => (parse last).toOption := by
  rcases parseLegacyList_eq_ok h with ⟨hBlank, rfl⟩ | ⟨-, entries, hEntries, rfl⟩
  · rw [splitList_of_blank hBlank]
    rfl
  · rw [mapM_eq_ok] at hEntries
    cases hLast : (splitList (joinHeaderValues values)).getLast? with
    | none => exact getLast?_eq_none_of_forall₂ hEntries hLast
    | some last =>
        obtain ⟨result, hResult, hParse⟩ := getLast?_of_forall₂ hEntries hLast
        rw [hResult, Option.bind_some, hParse]
        rfl

theorem lists_of_acceptedAs {headers : HeaderBlock} {config : ForwardedConfig}
    {effective : ForwardedEffective} (h : AcceptedAs .legacyForwarded headers config effective) :
    parseLegacyForwarded (ForwardedValues.of headers).xff (ForwardedValues.of headers).xfp
      (ForwardedValues.of headers).xfh config = .ok (some effective) := by
  obtain ⟨hDerived, hKind⟩ := h
  obtain ⟨-, -, hFrom⟩ := deriveForwardedEffective_eq_ok.mp hDerived
  cases hFrom with
  | legacy _ _ hLists => exact hLists
  | standard _ _ hChain =>
      obtain ⟨-, -, _, _, -, -, rfl⟩ := parseForwardedChain_eq_ok.mp hChain
      cases hKind

theorem legacyDecided : LegacyDecided := by
  intro config first second firstEffective secondEffective hFirst hSecond
  obtain ⟨hClient, hScheme, hAuthority, -⟩ :=
    parseLegacyForwarded_eq_ok (lists_of_acceptedAs hFirst)
  obtain ⟨hClient', hScheme', hAuthority', -⟩ :=
    parseLegacyForwarded_eq_ok (lists_of_acceptedAs hSecond)
  refine ⟨fun hSame => ?_, fun hSame => ?_, fun hSame => ?_⟩
  · rw [entry_of_rightmost hClient, entry_of_rightmost hClient']
    exact congrArg (Option.bind · _) hSame
  · rw [entry_of_rightmost hScheme, entry_of_rightmost hScheme']
    exact congrArg (Option.bind · _) hSame
  · rw [entry_of_rightmost hAuthority, entry_of_rightmost hAuthority']
    exact congrArg (Option.bind · _) hSame

/-! The chain. -/

/-- What is accepted with a rightmost element has the client of that element,
and its scheme and authority as far as it names them. -/
theorem chain_of_acceptedAs {headers : HeaderBlock} {config : ForwardedConfig}
    {effective : ForwardedEffective} {element : Str}
    (h : AcceptedAs .forwarded headers config effective)
    (hRight : rightmostElement headers "forwarded" = some element) :
    ∃ parsed, parseForwardedElement element = .ok parsed ∧
      effective.client = clientOf parsed.forwardFor ∧
      (parsed.proto.isSome = true → effective.scheme = parsed.proto) ∧
      (parsed.host.isSome = true → effective.authority = parsed.host) := by
  obtain ⟨hDerived, hKind⟩ := h
  obtain ⟨-, -, hFrom⟩ := deriveForwardedEffective_eq_ok.mp hDerived
  cases hFrom with
  | legacy _ _ hLists =>
      rw [(parseLegacyForwarded_eq_ok hLists).2.2.2] at hKind
      cases hKind
  | standard _ _ hChain =>
      obtain ⟨-, -, elements, last, hElements, hLast, rfl⟩ := parseForwardedChain_eq_ok.mp hChain
      obtain ⟨parsed, hParsed, hElement⟩ := getLast?_of_forall₂ (mapM_eq_ok.mp hElements) hRight
      rw [hLast, Option.some.injEq] at hParsed
      subst hParsed
      obtain ⟨front, rfl⟩ := List.getLast?_eq_some_iff.mp hLast
      refine ⟨last, hElement, rfl, fun hProto => ?_, fun hHost => ?_⟩
      · obtain ⟨scheme, hScheme⟩ := Option.isSome_iff_exists.mp hProto
        simp [lastProto, hScheme]
      · obtain ⟨authority, hAuthority⟩ := Option.isSome_iff_exists.mp hHost
        simp [lastHost, hAuthority]

theorem decidedBy_of_namesBoth {element : Str} (h : NamesBoth element) : DecidedBy element := by
  obtain ⟨parsed, hParsed, hProto, hHost⟩ := h
  intro config first second firstEffective secondEffective hFirst hSecond hRight hRight'
  obtain ⟨left, hLeft, hClient, hScheme, hAuthority⟩ := chain_of_acceptedAs hFirst hRight
  obtain ⟨right, hRight, hClient', hScheme', hAuthority'⟩ := chain_of_acceptedAs hSecond hRight'
  rw [hParsed, Except.ok.injEq] at hLeft hRight
  subst hLeft
  subst hRight
  refine ⟨hClient.trans hClient'.symm, ?_, ?_⟩
  · rw [hScheme hProto, hScheme' hProto]
  · rw [hAuthority hHost, hAuthority' hHost]

/-! A field that puts an element of our own to the left of a given one. -/

/-- A character that a field value can hold. -/
def isLegalChar (c : Char) : Prop := 32 ≤ c.toNat ∧ c.toNat ≠ 127 ∨ c.toNat = 9

instance : DecidablePred isLegalChar := fun _ => inferInstanceAs (Decidable (_ ∨ _))

theorem isLegalChar_of_all {text : Str} (h : text.all (isLegalChar ·) = true) :
    ∀ c ∈ text, isLegalChar c := by
  simpa using h

theorem isLegalChar_of_mem_lossy {value : HeaderValue} {c : Char}
    (h : c ∈ fromUtf8Lossy value.bytes) : isLegalChar c := by
  by_cases hAscii : c.toNat < 128
  · have hByte := List.all_eq_true.mp value.valid _ (mem_fromUtf8Lossy_ascii h hAscii)
    have hNat := toNat_ofNat_of_ascii hAscii
    simp only [isValueByte, Bool.or_eq_true, Bool.and_eq_true, decide_eq_true_eq,
      UInt8.le_iff_toNat_le, ← UInt8.toNat_inj, ne_eq, hNat] at hByte
    exact hByte
  · left
    omega

theorem isLegalChar_of_mem_join {values : List HeaderValue} {c : Char}
    (h : c ∈ joinHeaderValues values) : isLegalChar c := by
  rw [joinHeaderValues] at h
  induction values with
  | nil => cases h
  | cons value rest ih =>
      cases rest with
      | nil =>
          rw [List.map_singleton, List.intercalate_singleton] at h
          exact isLegalChar_of_mem_lossy h
      | cons second rest =>
          rw [List.map_cons, List.map_cons, List.intercalate_cons_cons, List.append_assoc,
            List.mem_append, List.mem_append] at h
          rcases h with hValue | hComma | hRest
          · exact isLegalChar_of_mem_lossy hValue
          · rcases List.mem_cons.mp hComma with rfl | hComma
            · exact Or.inl (by decide)
            · rw [List.mem_singleton.mp hComma]
              exact Or.inl (by decide)
          · exact ih hRest

theorem all_isValueByte_utf8 {text : Str} (h : ∀ c ∈ text, isLegalChar c) :
    (utf8 text).all isValueByte = true := by
  rw [List.all_eq_true]
  intro b hb
  obtain ⟨c, hc, hEncoded⟩ := List.mem_flatMap.mp hb
  have hLegal := h c hc
  simp only [isValueByte, Bool.or_eq_true, Bool.and_eq_true, decide_eq_true_eq,
    UInt8.le_iff_toNat_le, ← UInt8.toNat_inj, ne_eq]
  by_cases hAscii : c.toNat < 128
  · rw [utf8EncodeChar_ascii hAscii, List.mem_singleton] at hEncoded
    rw [hEncoded, toNat_ofNat_of_ascii hAscii]
    exact hLegal
  · have hHigh := le_of_mem_utf8EncodeChar (Nat.not_lt.mp hAscii) hEncoded
    left
    constructor
    · simp only [UInt8.reduceToNat]
      omega
    · simp only [UInt8.reduceToNat]
      omega

theorem not_isOwsByte_of_mem {c : Char} {b : UInt8} (hc : isWhitespace c = false)
    (hb : b ∈ String.utf8EncodeChar c) : isOwsByte b = false := by
  simp only [isOwsByte, Bool.or_eq_false_iff, decide_eq_false_iff_not, ← UInt8.toNat_inj,
    UInt8.reduceToNat]
  by_cases hAscii : c.toNat < 128
  · rw [utf8EncodeChar_ascii hAscii, List.mem_singleton] at hb
    rw [hb, toNat_ofNat_of_ascii hAscii]
    simp only [isWhitespace, Bool.or_eq_false_iff, Bool.and_eq_false_iff,
      decide_eq_false_iff_not] at hc
    omega
  · have hHigh := le_of_mem_utf8EncodeChar (Nat.not_lt.mp hAscii) hb
    omega

/-- A text that neither starts nor ends with whitespace is a value as it stands. -/
theorem trimOws_utf8 {c d : Char} (mid : Str) (hc : isWhitespace c = false)
    (hd : isWhitespace d = false) :
    trimOws (utf8 (c :: (mid ++ [d]))) = utf8 (c :: (mid ++ [d])) := by
  have hFront : (utf8 (c :: (mid ++ [d]))).dropWhile isOwsByte = utf8 (c :: (mid ++ [d])) := by
    cases hBytes : String.utf8EncodeChar c with
    | nil =>
        have hPos := c.utf8Size_pos
        rw [← String.length_utf8EncodeChar, hBytes] at hPos
        exact absurd hPos (Nat.lt_irrefl 0)
    | cons b bs =>
        rw [utf8_cons, hBytes, List.cons_append]
        exact List.dropWhile_cons_of_neg
          (by rw [not_isOwsByte_of_mem hc (hBytes ▸ List.mem_cons_self)]; decide)
  rw [trimOws, hFront, List.rdropWhile_eq_self_iff]
  intro hNonempty
  rw [Bool.not_eq_true]
  apply not_isOwsByte_of_mem hd
  simp

/-- A single `Forwarded` field is accepted with the elements of its text. -/
theorem acceptedAs_of_text {value : HeaderValue} {text : Str} (hText : value.bytes = utf8 text)
    {config : ForwardedConfig} (hStandard : config.standardEnabled = true)
    (hLegacy : config.legacyEnabled = false) (hBytes : (utf8 text).length ≤ config.maxBytes)
    (hCount : (splitList text).length ≤ config.maxElements) {elements : List ForwardedElement}
    {last : ForwardedElement}
    (hElements : (splitList text).mapM parseForwardedElement = .ok elements)
    (hLast : elements.getLast? = some last) :
    AcceptedAs .forwarded [⟨forwardedName, value⟩] config
      ⟨clientOf last.forwardFor, lastProto elements, lastHost elements, .forwarded⟩ := by
  have hValues : ForwardedValues.of [⟨forwardedName, value⟩] = ⟨[value], [], [], []⟩ := rfl
  have hJoined : joinHeaderValues [value] = text := by
    rw [joinHeaderValues, List.map_singleton, List.intercalate_singleton, hText,
      fromUtf8Lossy_utf8]
  refine ⟨deriveForwardedEffective_eq_ok.mpr ⟨rfl, ?_, ?_⟩, rfl⟩
  · rw [hValues]
    simpa [ForwardedValues.totalBytes, ForwardedValues.relevant, hStandard, hLegacy, hText] using
      hBytes
  · apply DerivedFrom.standard
    · rw [hValues, hStandard]
      rfl
    · rw [hLegacy, Bool.and_false]
    · rw [hValues, hJoined]
      exact parseForwardedChain_eq_ok.mpr
        ⟨hBytes, hCount, elements, last, hElements, hLast, rfl⟩

/-- An element that stands to the left of another one: it starts and ends with
other than whitespace, and holds no comma. -/
structure LeftElement where
  text : Str
  parsed : ForwardedElement
  parses : parseForwardedElement text = .ok parsed
  noComma : ',' ∉ text
  trimmed : trim text = text
  nonempty : text ≠ []
  legal : ∀ c ∈ text, isLegalChar c

/-- Two elements with a comma between them are a list of two. -/
theorem splitList_pair {left right : Str} (hLeft : ',' ∉ left) (hRight : ',' ∉ right)
    (hLeftTrim : trim left = left) (hRightTrim : trim right = right) (hLeftNe : left ≠ [])
    (hRightNe : right ≠ []) : splitList (left ++ ',' :: right) = [left, right] := by
  have hSplit : (left ++ ',' :: right).splitOn ',' = [left, right] := by
    rw [List.splitOn_append_cons_self_of_not_mem hLeft, List.splitOn_eq_singleton hRight]
  rw [splitList, hSplit, List.map_cons, List.map_singleton, hLeftTrim, hRightTrim]
  simp [hLeftNe, hRightNe]

/-- A text of legal characters, without whitespace at its ends, as a field value. -/
def valueOfText (text : Str) (hLegal : ∀ c ∈ text, isLegalChar c)
    (hTrimmed : trimOws (utf8 text) = utf8 text) : HeaderValue :=
  ⟨utf8 text, all_isValueByte_utf8 hLegal, hTrimmed⟩

theorem trimOws_utf8_pair {left right : Str} (hLeft : trim left = left)
    (hRight : trim right = right) (hLeftNe : left ≠ []) (hRightNe : right ≠ []) :
    trimOws (utf8 (left ++ ',' :: right)) = utf8 (left ++ ',' :: right) := by
  obtain ⟨c, rest, rfl⟩ := List.exists_cons_of_ne_nil hLeftNe
  have hd := not_isWhitespace_getLast_trim (s := right) (by rwa [hRight])
  simp only [hRight] at hd
  rw [← List.dropLast_append_getLast hRightNe]
  have hShape : c :: rest ++ ',' :: (right.dropLast ++ [right.getLast hRightNe]) =
      c :: ((rest ++ ',' :: right.dropLast) ++ [right.getLast hRightNe]) := by
    simp
  rw [hShape]
  exact trimOws_utf8 _ (not_isWhitespace_head_trim hLeft) hd

/-- Whoever writes the elements to the left can put one of his own in front of
the rightmost one, and the request is still accepted. -/
theorem exists_accepted_with_left {base : HeaderBlock} {element : Str} {parsed : ForwardedElement}
    (hRight : rightmostElement base "forwarded" = some element)
    (hParsed : parseForwardedElement element = .ok parsed) (left : LeftElement) {room : Nat}
    (hRoom : (utf8 (left.text ++ ',' :: element)).length ≤ room) :
    ∃ headers, rightmostElement headers "forwarded" = some element ∧
      AcceptedAs .forwarded headers ⟨true, false, room, 2⟩
        ⟨clientOf parsed.forwardFor, parsed.proto.or left.parsed.proto,
          parsed.host.or left.parsed.host, .forwarded⟩ := by
  obtain ⟨hNonempty, hTrim, hComma, hSubset⟩ := mem_splitList (List.mem_of_getLast? hRight)
  have hLegal : ∀ c ∈ left.text ++ ',' :: element, isLegalChar c := by
    intro c hc
    rcases List.mem_append.mp hc with hLeft | hc
    · exact left.legal c hLeft
    · rcases List.mem_cons.mp hc with rfl | hElement
      · exact Or.inl (by decide)
      · exact isLegalChar_of_mem_join (hSubset hElement)
  have hList := splitList_pair left.noComma hComma left.trimmed hTrim left.nonempty hNonempty
  let value := valueOfText _ hLegal
    (trimOws_utf8_pair left.trimmed hTrim left.nonempty hNonempty)
  refine ⟨[⟨forwardedName, value⟩], ?_, ?_⟩
  · have hJoined : joinHeaderValues [value] = left.text ++ ',' :: element := by
      rw [joinHeaderValues, List.map_singleton, List.intercalate_singleton]
      exact fromUtf8Lossy_utf8 _
    show (splitList (joinHeaderValues [value])).getLast? = some element
    rw [hJoined, hList]
    rfl
  · have hElements : (splitList (left.text ++ ',' :: element)).mapM parseForwardedElement =
        .ok [left.parsed, parsed] := by
      rw [hList, mapM_eq_ok]
      exact .cons left.parses (.cons hParsed .nil)
    have hText : value.bytes = utf8 (left.text ++ ',' :: element) := rfl
    have hAccepted : AcceptedAs .forwarded [⟨forwardedName, value⟩] ⟨true, false, room, 2⟩ _ :=
      acceptedAs_of_text hText rfl rfl hRoom (by rw [hList]; rfl) hElements rfl
    have hProto : lastProto [left.parsed, parsed] = parsed.proto.or left.parsed.proto := by
      cases hp : parsed.proto <;> cases hl : left.parsed.proto <;> simp [lastProto, hp, hl]
    have hHost : lastHost [left.parsed, parsed] = parsed.host.or left.parsed.host := by
      cases hp : parsed.host <;> cases hl : left.parsed.host <;> simp [lastHost, hp, hl]
    rwa [hProto, hHost] at hAccepted

/-! The elements that a client sends to set what the trusted one leaves open. -/

def leftHttp : LeftElement where
  text := "for=_a;proto=http"
  parsed := ⟨.obfuscated, some .http, none⟩
  parses := by decide
  noComma := by decide
  trimmed := by decide
  nonempty := by decide
  legal := isLegalChar_of_all (by decide)

def leftHttps : LeftElement where
  text := "for=_a;proto=https"
  parsed := ⟨.obfuscated, some .https, none⟩
  parses := by decide
  noComma := by decide
  trimmed := by decide
  nonempty := by decide
  legal := isLegalChar_of_all (by decide)

def leftHost : LeftElement where
  text := "for=_a;host=a"
  parsed := ⟨.obfuscated, none, some ⟨"a", by decide⟩⟩
  parses := by decide
  noComma := by decide
  trimmed := by decide
  nonempty := by decide
  legal := isLegalChar_of_all (by decide)

/-- Two elements to the left that differ in what they name show through what the
rightmost one leaves open. -/
theorem agree_of_decidedBy {base : HeaderBlock} {element : Str} {parsed : ForwardedElement}
    (hDecided : DecidedBy element) (hRight : rightmostElement base "forwarded" = some element)
    (hParsed : parseForwardedElement element = .ok parsed) (first second : LeftElement) :
    parsed.proto.or first.parsed.proto = parsed.proto.or second.parsed.proto ∧
      parsed.host.or first.parsed.host = parsed.host.or second.parsed.host := by
  let room := max (utf8 (first.text ++ ',' :: element)).length
    (utf8 (second.text ++ ',' :: element)).length
  obtain ⟨headers, hHeaders, hAccepted⟩ :=
    exists_accepted_with_left hRight hParsed first (Nat.le_max_left _ _ : _ ≤ room)
  obtain ⟨headers', hHeaders', hAccepted'⟩ :=
    exists_accepted_with_left hRight hParsed second (Nat.le_max_right _ _ : _ ≤ room)
  exact (hDecided _ _ _ _ _ hAccepted hAccepted' hHeaders hHeaders').2

theorem namesBoth_of_decidedBy {base : HeaderBlock} {config : ForwardedConfig}
    {effective : ForwardedEffective} {element : Str}
    (hBase : AcceptedAs .forwarded base config effective)
    (hRight : rightmostElement base "forwarded" = some element) (hDecided : DecidedBy element) :
    NamesBoth element := by
  obtain ⟨parsed, hParsed, -⟩ := chain_of_acceptedAs hBase hRight
  refine ⟨parsed, hParsed, ?_, ?_⟩
  · have hAgree := (agree_of_decidedBy hDecided hRight hParsed leftHttp leftHttps).1
    cases hProto : parsed.proto with
    | some scheme => rfl
    | none =>
        rw [hProto] at hAgree
        cases hAgree
  · have hAgree := (agree_of_decidedBy hDecided hRight hParsed leftHttp leftHost).2
    cases hHost : parsed.host with
    | some authority => rfl
    | none =>
        rw [hHost] at hAgree
        cases hAgree

/-- An untrusted element never shows in the metadata exactly if the element of the
trusted proxy names both a scheme and an authority. -/
theorem single_hop_trusted_iff {base : HeaderBlock} {config : ForwardedConfig}
    {effective : ForwardedEffective} {element : Str}
    (hBase : AcceptedAs .forwarded base config effective)
    (hRight : rightmostElement base "forwarded" = some element) :
    DecidedBy element ∧ LegacyDecided ↔ NamesBoth element :=
  ⟨fun h => namesBoth_of_decidedBy hBase hRight h.1,
    fun h => ⟨decidedBy_of_namesBoth h, legacyDecided⟩⟩

/-- The element of a proxy that names the client only. -/
def clientOnly : HeaderBlock := [⟨forwardedName, ⟨utf8 "for=_b", by decide, by decide⟩⟩]

theorem clientOnly_accepted :
    AcceptedAs .forwarded clientOnly ⟨true, false, 4096, 16⟩ ⟨none, none, none, .forwarded⟩ :=
  ⟨by decide, rfl⟩

theorem clientOnly_rightmost :
    rightmostElement clientOnly "forwarded" = some ("for=_b" : Str) := by
  decide

theorem single_hop_trusted_iff_client_only :
    DecidedBy "for=_b" ∧ LegacyDecided ↔ NamesBoth "for=_b" :=
  single_hop_trusted_iff clientOnly_accepted clientOnly_rightmost

/-- The same element behind one that the client wrote. -/
def clientOnlyAfterHttp : HeaderBlock :=
  [⟨forwardedName, ⟨utf8 "for=_a;proto=http, for=_b", by decide, by decide⟩⟩]

def clientOnlyAfterHttps : HeaderBlock :=
  [⟨forwardedName, ⟨utf8 "for=_a;proto=https, for=_b", by decide, by decide⟩⟩]

/-- The client chooses the scheme. -/
theorem client_sets_scheme :
    AcceptedAs .forwarded clientOnlyAfterHttp ⟨true, false, 4096, 16⟩
        ⟨none, some .http, none, .forwarded⟩ ∧
      AcceptedAs .forwarded clientOnlyAfterHttps ⟨true, false, 4096, 16⟩
        ⟨none, some .https, none, .forwarded⟩ ∧
      rightmostElement clientOnlyAfterHttp "forwarded" = some ("for=_b" : Str) ∧
      rightmostElement clientOnlyAfterHttps "forwarded" = some ("for=_b" : Str) ∧
      ¬ DecidedBy "for=_b" := by
  have hHttp : AcceptedAs .forwarded clientOnlyAfterHttp ⟨true, false, 4096, 16⟩
      ⟨none, some .http, none, .forwarded⟩ := ⟨by decide, rfl⟩
  have hHttps : AcceptedAs .forwarded clientOnlyAfterHttps ⟨true, false, 4096, 16⟩
      ⟨none, some .https, none, .forwarded⟩ := ⟨by decide, rfl⟩
  have hRight : rightmostElement clientOnlyAfterHttp "forwarded" = some ("for=_b" : Str) := by
    decide
  have hRight' : rightmostElement clientOnlyAfterHttps "forwarded" = some ("for=_b" : Str) := by
    decide
  refine ⟨hHttp, hHttps, hRight, hRight', fun hDecided => ?_⟩
  have hScheme := (hDecided _ _ _ _ _ hHttp hHttps hRight hRight').2.1
  cases hScheme

end Eggserve.Primitives
