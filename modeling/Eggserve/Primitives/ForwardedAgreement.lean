import Eggserve.Primitives.ForwardedSyntax
import Eggserve.Rust.Panicking

/-! The address parsers of the two header families accept the same texts. -/
namespace Eggserve.Primitives
open Rust

/-! The parsers as they slice. -/

def parseBracketedIpSliced (value : Str) : Panicking ForwardedRejection (IpAddr × Option Nat) := do
  let close ← Panicking.ofExcept (okOr (find ']' value) .invalid)
  let host ← Panicking.ofMayPanic (slice value 1 close)
  let addr ← Panicking.ofExcept (okOr (parseIpv6 host) .invalid)
  let rest ← Panicking.ofMayPanic (slice value (close + 1) (utf8 value).length)
  match rest with
  | [] => return (.v6 addr, none)
  | c :: port =>
      if c = ':' then do
        let port ← Panicking.ofExcept ((parsePortStrict port).mapError fun _ => .invalid)
        return (.v6 addr, some port)
      else throw .invalid

def parseForwardedForIdentifierSliced (value : Str) :
    Panicking ForwardedRejection ForwardedFor :=
  let value := trim value
  if value = [] then throw .invalid
  else if eqIgnoreAsciiCase value "unknown" then return .unknown
  else if value.head? = some '_' then
    if value.length = 1 ∨ value.all isObfuscatedChar = false then throw .invalid
    else return .obfuscated
  else if value.head? = some '[' then do
    let (addr, port) ← parseBracketedIpSliced value
    return .ip addr port
  else if 1 < value.count ':' then
    match parseIpv6 value with
    | some addr => return .ip (.v6 addr) none
    | none => throw .invalid
  else
    match rsplitOnce ':' value with
    | some (host, port) =>
        match parseIpv4 host with
        | some addr => do
            let port ← Panicking.ofExcept ((parsePortStrict port).mapError fun _ => .invalid)
            return .ip (.v4 addr) (some port)
        | none => throw .invalid
    | none =>
        match parseIpv4 value with
        | some addr => return .ip (.v4 addr) none
        | none => throw .invalid

def parseXForwardedForEntrySliced (value : Str) : Panicking ForwardedRejection SocketAddr :=
  let value := trim value
  if value = [] then throw .invalid
  else
    let unquoted := stripQuotes value
    if unquoted.head? = some '[' then do
      let (addr, port) ← parseBracketedIpSliced unquoted
      return ⟨addr, port.getD 0⟩
    else
      match parseIpv4 unquoted, parseIpv6 unquoted, rsplitOnce ':' unquoted with
      | some addr, _, _ => return ⟨.v4 addr, 0⟩
      | none, some addr, _ => return ⟨.v6 addr, 0⟩
      | none, none, some (host, port) =>
          if ':' ∈ host then throw .invalid
          else
            match parseIpv4 host with
            | some addr => do
                let port ← Panicking.ofExcept ((parsePortStrict port).mapError fun _ => .invalid)
                return ⟨.v4 addr, port⟩
            | none => throw .invalid
      | none, none, none => throw .invalid

/-! The slices are within the text. -/

theorem parseBracketedIpSliced_eq {value : Str} (hOpen : value.head? = some '[') :
    parseBracketedIpSliced value = Panicking.ofExcept (parseBracketedIp value) := by
  obtain ⟨tail, rfl⟩ := List.head?_eq_some_iff.mp hOpen
  rw [parseBracketedIpSliced, parseBracketedIp]
  by_cases hClose : ']' ∈ tail
  · obtain ⟨host, rest, rfl, hHost⟩ := List.eq_append_cons_of_mem hClose
    have hOpenSize : '['.utf8Size = 1 := rfl
    have hCloseSize : ']'.utf8Size = 1 := rfl
    have hFind : find ']' ('[' :: (host ++ ']' :: rest)) = some (utf8 ('[' :: host)).length :=
      @find_append ']' ('[' :: host) rest (by simpa using hHost)
    have hInside : slice ('[' :: (host ++ ']' :: rest)) 1 (utf8 ('[' :: host)).length = some host := by
      simpa [hOpenSize] using slice_middle ['['] host (']' :: rest)
    have hBehind : slice ('[' :: (host ++ ']' :: rest)) ((utf8 ('[' :: host)).length + 1)
        (utf8 ('[' :: (host ++ ']' :: rest))).length = some rest := by
      simpa [hCloseSize, Nat.add_assoc] using slice_suffix ('[' :: host ++ [']']) rest
    have hSplit : splitBracketed ('[' :: (host ++ ']' :: rest)) = some (host, rest) := by
      obtain ⟨hTake, hDrop⟩ := takeWhile_ne_append rest hHost
      rw [splitBracketed, List.tail_cons, hDrop, hTake]
    rw [hFind, hSplit]
    simp only [okOr]
    rw [Panicking.ofExcept_ok_bind, hInside, Panicking.ofMayPanic_some_bind]
    cases parseIpv6 host with
    | none => rfl
    | some addr =>
        dsimp only
        rw [Panicking.ofExcept_ok_bind, hBehind, Panicking.ofMayPanic_some_bind]
        cases rest with
        | nil => rfl
        | cons c port =>
            dsimp only
            split_ifs
            · cases parsePortStrict port <;> rfl
            · rfl
  · have hFind : find ']' ('[' :: tail) = none := if_neg (by simpa using hClose)
    have hSplit : splitBracketed ('[' :: tail) = none := by
      have hDrop : tail.dropWhile (· ≠ ']') = [] := by
        rw [List.dropWhile_eq_nil_iff]
        intro c hc
        simpa using fun hEq : c = ']' => hClose (hEq ▸ hc)
      rw [splitBracketed, List.tail_cons, hDrop]
    rw [hFind, hSplit]
    rfl

theorem parseForwardedForIdentifierSliced_eq (value : Str) :
    parseForwardedForIdentifierSliced value =
      Panicking.ofExcept (parseForwardedForIdentifier value) := by
  rw [parseForwardedForIdentifierSliced, parseForwardedForIdentifier]
  generalize trim value = text
  dsimp only
  split_ifs with hEmpty hUnknown hUnderscore hBad hBracket hColons
  · rfl
  · rfl
  · rfl
  · rfl
  · rw [parseBracketedIpSliced_eq hBracket]
    cases parseBracketedIp text <;> rfl
  · cases parseIpv6 text <;> rfl
  · cases rsplitOnce ':' text with
    | none => cases parseIpv4 text <;> rfl
    | some parts =>
        obtain ⟨host, port⟩ := parts
        dsimp only
        cases parseIpv4 host with
        | none => rfl
        | some addr => cases parsePortStrict port <;> rfl

theorem parseXForwardedForEntrySliced_eq (value : Str) :
    parseXForwardedForEntrySliced value = Panicking.ofExcept (parseXForwardedForEntry value) := by
  rw [parseXForwardedForEntrySliced, parseXForwardedForEntry]
  generalize trim value = text
  dsimp only
  generalize stripQuotes text = unquoted
  split_ifs with hEmpty hBracket
  · rfl
  · rw [parseBracketedIpSliced_eq hBracket]
    cases parseBracketedIp unquoted <;> rfl
  · cases parseIpv4 unquoted with
    | some addr => rfl
    | none =>
        cases parseIpv6 unquoted with
        | some addr => rfl
        | none =>
            cases rsplitOnce ':' unquoted with
            | none => rfl
            | some parts =>
                obtain ⟨host, port⟩ := parts
                dsimp only
                split_ifs
                · rfl
                · cases parseIpv4 host with
                  | none => rfl
                  | some addr => cases parsePortStrict port <;> rfl

/-! Every text of an address is accepted. -/

theorem rsplitOnce_append {c : Char} {last : Str} (first : Str) (h : c ∉ last) :
    rsplitOnce c (first ++ c :: last) = some (first, last) := by
  have hReverse : (first ++ c :: last).reverse = last.reverse ++ c :: first.reverse := by simp
  obtain ⟨hTake, hDrop⟩ := takeWhile_ne_append first.reverse (by simpa using h : c ∉ last.reverse)
  rw [rsplitOnce, if_pos (List.mem_append_right first List.mem_cons_self), List.rdropWhile,
    List.rtakeWhile, hReverse, hDrop, hTake]
  simp

theorem rsplitOnce_eq_none {c : Char} {value : Str} (h : c ∉ value) : rsplitOnce c value = none :=
  if_neg h

theorem colon_not_mem_of_parsePortStrict {port : Str} {number : Nat}
    (h : parsePortStrict port = .ok number) : ':' ∉ port := by
  rw [parsePortStrict] at h
  split_ifs at h with hBad
  simp only [not_or, Bool.not_eq_false, isDigits, Bool.and_eq_true, List.all_eq_true] at hBad
  intro hMem
  exact absurd (hBad.1.2 ':' hMem) (by decide)

theorem ne_nil_of_parseIpv4 {text : Str} {addr : Ipv4Addr} (h : parseIpv4 text = some addr) :
    text ≠ [] := by
  rintro rfl
  have hNone : parseIpv4 [] = none := by decide
  rw [hNone] at h
  cases h

theorem ne_nil_of_parseIpv6 {text : Str} {addr : Ipv6Addr} (h : parseIpv6 text = some addr) :
    text ≠ [] := by
  rintro rfl
  have hNone : parseIpv6 [] = none := by decide
  rw [hNone] at h
  cases h

/-- A character that begins an address. -/
def IsFirstChar (c : Char) : Prop := IsIpv6Char c ∨ c = '['

instance (c : Char) : Decidable (IsFirstChar c) :=
  inferInstanceAs (Decidable (((_ : Bool) = true ∨ _ ∨ _) ∨ _))

theorem IsFirstChar.toLower_ne {c : Char} (h : IsFirstChar c) : c.toLower ≠ 'u' ∧ c ≠ '_' := by
  have hAscii : c.toNat < 128 := by
    rcases h with hAddress | rfl
    · exact hAddress.lt
    · decide
  have hAll : ∀ n < 128, IsFirstChar (Char.ofNat n) →
      (Char.ofNat n).toLower ≠ 'u' ∧ Char.ofNat n ≠ '_' := by decide +kernel
  have hChar := hAll c.toNat hAscii
  rw [Char.ofNat_toNat] at hChar
  exact hChar h

theorem bracket_not_addressChar : ¬IsIpv6Char '[' ∧ ¬IsIpv6Char ']' := by
  unfold IsIpv6Char
  decide

/-- The first character of a text whose front is an address without brackets. -/
theorem exists_first {host : Str} (hHost : host ≠ []) (hChars : ∀ c ∈ host, IsIpv6Char c)
    (rest : Str) : ∃ c tail, host ++ rest = c :: tail ∧ IsIpv6Char c := by
  cases host with
  | nil => exact absurd rfl hHost
  | cons c tail => exact ⟨c, tail ++ rest, rfl, hChars c List.mem_cons_self⟩

theorem head_ne_bracket {host : Str} (hHost : host ≠ []) (hChars : ∀ c ∈ host, IsIpv6Char c)
    (rest : Str) : (host ++ rest).head? ≠ some '[' := by
  obtain ⟨c, tail, hSplit, hFirst⟩ := exists_first hHost hChars rest
  rw [hSplit, List.head?_cons]
  intro hBracket
  exact bracket_not_addressChar.1 (Option.some.inj hBracket ▸ hFirst)

theorem IpText.head {text : Str} {addr : IpAddr} {port : Option Nat} (h : IpText text addr port) :
    ∃ c rest, text = c :: rest ∧ IsFirstChar c := by
  cases h with
  | v4 h =>
      obtain ⟨c, tail, hSplit, hFirst⟩ :=
        exists_first (ne_nil_of_parseIpv4 h) (fun c hc => (parseIpv4_chars h c hc).ipv6) []
      exact ⟨c, tail, by rw [← hSplit, List.append_nil], Or.inl hFirst⟩
  | v4Port h =>
      obtain ⟨c, tail, hSplit, hFirst⟩ :=
        exists_first (ne_nil_of_parseIpv4 h) (fun c hc => (parseIpv4_chars h c hc).ipv6) _
      exact ⟨c, tail, hSplit, Or.inl hFirst⟩
  | v6 h =>
      obtain ⟨c, tail, hSplit, hFirst⟩ := exists_first (ne_nil_of_parseIpv6 h) (parseIpv6_chars h) []
      exact ⟨c, tail, by rw [← hSplit, List.append_nil], Or.inl hFirst⟩
  | bracketed => exact ⟨'[', _, rfl, Or.inr rfl⟩
  | bracketedPort => exact ⟨'[', _, rfl, Or.inr rfl⟩

theorem IpText.not_unknown {text : Str} {addr : IpAddr} {port : Option Nat}
    (h : IpText text addr port) : eqIgnoreAsciiCase text "unknown" = false := by
  obtain ⟨c, rest, rfl, hFirst⟩ := h.head
  rw [eqIgnoreAsciiCase, decide_eq_false_iff_not]
  intro hEqual
  exact hFirst.toLower_ne.1 (List.cons.inj hEqual).1

theorem bracket_not_mem_of_parseIpv6 {host : Str} {addr : Ipv6Addr} (h : parseIpv6 host = some addr) :
    ']' ∉ host := fun hMem => bracket_not_addressChar.2 (parseIpv6_chars h ']' hMem)

theorem parseBracketedIp_bracketed {host : Str} {addr : Ipv6Addr} (h : parseIpv6 host = some addr) :
    parseBracketedIp ('[' :: (host ++ [']'])) = .ok (.v6 addr, none) := by
  obtain ⟨hTake, hDrop⟩ := takeWhile_ne_append [] (bracket_not_mem_of_parseIpv6 h)
  rw [parseBracketedIp, splitBracketed, List.tail_cons, hDrop, hTake]
  simp only [h]

theorem parseBracketedIp_bracketedPort {host port : Str} {addr : Ipv6Addr} {number : Nat}
    (h : parseIpv6 host = some addr) (hPort : parsePortStrict port = .ok number) :
    parseBracketedIp ('[' :: (host ++ ']' :: ':' :: port)) = .ok (.v6 addr, some number) := by
  obtain ⟨hTake, hDrop⟩ := takeWhile_ne_append (':' :: port) (bracket_not_mem_of_parseIpv6 h)
  rw [parseBracketedIp, splitBracketed, List.tail_cons, hDrop, hTake]
  simp only [h, hPort]
  rfl

theorem parseForwardedForIdentifier_ip {value : Str} {addr : IpAddr} {port : Option Nat} :
    parseForwardedForIdentifier value = .ok (.ip addr port) ↔ IpText (trim value) addr port := by
  constructor
  · intro h
    have hIdentifier := parseForwardedForIdentifier_eq_ok h
    generalize trim value = text at hIdentifier
    cases hIdentifier with
    | address h => exact h
  · intro h
    obtain ⟨c, rest, hText, hFirst⟩ := h.head
    have hUnderscore : (trim value).head? ≠ some '_' := by
      rw [hText, List.head?_cons]
      exact fun hEqual => hFirst.toLower_ne.2 (Option.some.inj hEqual)
    have hEmpty : trim value ≠ [] := by
      rw [hText]
      exact List.cons_ne_nil c rest
    rw [parseForwardedForIdentifier]
    simp only [if_neg hEmpty, h.not_unknown, Bool.false_eq_true, if_false, if_neg hUnderscore]
    generalize trim value = text at h
    cases h with
    | v4 h =>
        have hPlain := head_ne_bracket (ne_nil_of_parseIpv4 h)
          (fun c hc => (parseIpv4_chars h c hc).ipv6) []
        rw [List.append_nil] at hPlain
        have hColon := colon_not_mem_of_parseIpv4 h
        rw [if_neg hPlain, if_neg (by rw [List.count_eq_zero.mpr hColon]; decide),
          rsplitOnce_eq_none hColon]
        simp only [h]
    | @v4Port host port _ _ h hPort =>
        have hPlain := head_ne_bracket (ne_nil_of_parseIpv4 h)
          (fun c hc => (parseIpv4_chars h c hc).ipv6) (':' :: port)
        have hColons : (host ++ ':' :: port).count ':' = 1 := by
          rw [List.count_append, List.count_cons_self,
            List.count_eq_zero.mpr (colon_not_mem_of_parseIpv4 h),
            List.count_eq_zero.mpr (colon_not_mem_of_parsePortStrict hPort)]
        rw [if_neg hPlain, hColons, if_neg (by decide),
          rsplitOnce_append host (colon_not_mem_of_parsePortStrict hPort)]
        simp only [h, hPort]
        rfl
    | v6 h =>
        have hPlain := head_ne_bracket (ne_nil_of_parseIpv6 h) (parseIpv6_chars h) []
        rw [List.append_nil] at hPlain
        rw [if_neg hPlain, if_pos (Nat.lt_of_succ_le (colons_of_parseIpv6 h))]
        simp only [h]
    | bracketed h =>
        rw [List.head?_cons, if_pos rfl, parseBracketedIp_bracketed h]
        rfl
    | bracketedPort h hPort =>
        rw [List.head?_cons, if_pos rfl, parseBracketedIp_bracketedPort h hPort]
        rfl

theorem mem_of_mem_trim {c : Char} {s : Str} (h : c ∈ trim s) : c ∈ s :=
  (List.dropWhile_sublist _).subset ((List.rdropWhile_prefix _ _).subset h)

theorem stripQuotes_of_not_mem {value : Str} (h : '"' ∉ value) : stripQuotes value = value := by
  refine if_neg fun hQuoted => ?_
  obtain ⟨tail, rfl⟩ := List.head?_eq_some_iff.mp hQuoted.2.1
  exact h List.mem_cons_self

theorem parseXForwardedForEntry_ip {value : Str} (hQuote : '"' ∉ value) {addr : IpAddr} {port : Nat} :
    parseXForwardedForEntry value = .ok ⟨addr, port⟩ ↔
      ∃ found, IpText (trim value) addr found ∧ port = found.getD 0 := by
  have hText : '"' ∉ trim value := fun hMem => hQuote (mem_of_mem_trim hMem)
  rw [parseXForwardedForEntry, stripQuotes_of_not_mem hText]
  generalize trim value = text
  dsimp only
  constructor
  · intro h
    split_ifs at h with hEmpty hBracket
    · obtain ⟨⟨found, foundPort⟩, hParsed, hPair⟩ := map_eq_ok.mp h
      cases hPair
      exact ⟨foundPort, parseBracketedIp_eq_ok hBracket hParsed, rfl⟩
    · cases hV4 : parseIpv4 text with
      | some found =>
          rw [hV4] at h
          cases h
          exact ⟨none, .v4 hV4, rfl⟩
      | none =>
          cases hV6 : parseIpv6 text with
          | some found =>
              rw [hV4, hV6] at h
              cases h
              exact ⟨none, .v6 hV6, rfl⟩
          | none =>
              cases hSplit : rsplitOnce ':' text with
              | none =>
                  rw [hV4, hV6, hSplit] at h
                  cases h
              | some parts =>
                  obtain ⟨host, digits⟩ := parts
                  simp only [hV4, hV6, hSplit] at h
                  split_ifs at h
                  cases hHost : parseIpv4 host with
                  | none =>
                      rw [hHost] at h
                      cases h
                  | some found =>
                      rw [hHost, mapError_eq_ok] at h
                      obtain ⟨number, hPort, hPair⟩ := map_eq_ok.mp h
                      cases hPair
                      rw [rsplitOnce_eq_some hSplit]
                      exact ⟨some port, .v4Port hHost hPort, rfl⟩
  · rintro ⟨found, h, rfl⟩
    have hEmpty : text ≠ [] := by
      obtain ⟨c, rest, rfl, -⟩ := h.head
      exact List.cons_ne_nil c rest
    rw [if_neg hEmpty]
    cases h with
    | v4 h =>
        have hPlain := head_ne_bracket (ne_nil_of_parseIpv4 h)
          (fun c hc => (parseIpv4_chars h c hc).ipv6) []
        rw [List.append_nil] at hPlain
        rw [if_neg hPlain, h]
        rfl
    | @v4Port host port _ number h hPort =>
        have hPlain := head_ne_bracket (ne_nil_of_parseIpv4 h)
          (fun c hc => (parseIpv4_chars h c hc).ipv6) (':' :: port)
        have hHostColon := colon_not_mem_of_parseIpv4 h
        have hPortColon := colon_not_mem_of_parsePortStrict hPort
        have hV4 : parseIpv4 (host ++ ':' :: port) = none := by
          rw [Option.eq_none_iff_forall_ne_some]
          intro other hOther
          exact colon_not_mem_of_parseIpv4 hOther (List.mem_append_right host List.mem_cons_self)
        have hV6 : parseIpv6 (host ++ ':' :: port) = none := by
          rw [Option.eq_none_iff_forall_ne_some]
          intro other hOther
          have hColons := colons_of_parseIpv6 hOther
          rw [List.count_append, List.count_cons_self, List.count_eq_zero.mpr hHostColon,
            List.count_eq_zero.mpr hPortColon] at hColons
          omega
        rw [if_neg hPlain, hV4, hV6, rsplitOnce_append host hPortColon]
        simp only [if_neg hHostColon, h, hPort]
        rfl
    | v6 h =>
        have hPlain := head_ne_bracket (ne_nil_of_parseIpv6 h) (parseIpv6_chars h) []
        rw [List.append_nil] at hPlain
        have hV4 : parseIpv4 text = none := by
          rw [Option.eq_none_iff_forall_ne_some]
          intro other hOther
          have hColons := colons_of_parseIpv6 h
          rw [List.count_eq_zero.mpr (colon_not_mem_of_parseIpv4 hOther)] at hColons
          omega
        rw [if_neg hPlain, hV4, h]
        rfl
    | bracketed h =>
        rw [List.head?_cons, if_pos rfl, parseBracketedIp_bracketed h]
        rfl
    | bracketedPort h hPort =>
        rw [List.head?_cons, if_pos rfl, parseBracketedIp_bracketedPort h hPort]
        rfl

/-- No parser of an address panics, and apart from quotes, which only the legacy field
takes, both accept the same addresses. -/
theorem forwarded_addresses_agree :
    (∀ value : Str, (parseForwardedForIdentifierSliced value).run ≠ none ∧
      (parseXForwardedForEntrySliced value).run ≠ none) ∧
    ∀ value : Str, '"' ∉ value → ∀ (addr : IpAddr) (port : Nat),
      parseXForwardedForEntrySliced value = pure ⟨addr, port⟩ ↔
        ∃ found, parseForwardedForIdentifierSliced value = pure (.ip addr found) ∧
          port = found.getD 0 := by
  refine ⟨fun value => ⟨?_, ?_⟩, fun value hQuote addr port => ?_⟩
  · rw [parseForwardedForIdentifierSliced_eq]
    exact Option.some_ne_none _
  · rw [parseXForwardedForEntrySliced_eq]
    exact Option.some_ne_none _
  · rw [parseXForwardedForEntrySliced_eq, parseForwardedForIdentifierSliced_eq,
      Panicking.ofExcept_eq_pure, parseXForwardedForEntry_ip hQuote]
    simp only [Panicking.ofExcept_eq_pure, parseForwardedForIdentifier_ip]

/-- A bracketed address without a port. -/
theorem forwarded_addresses_agree_bracketed :
    parseXForwardedForEntrySliced " [::1] " = pure ⟨.v6 ⟨1⟩, 0⟩ ∧
      ∃ found, parseForwardedForIdentifierSliced " [::1] " = pure (.ip (.v6 ⟨1⟩) found) ∧
        0 = found.getD 0 := by
  have hEntry : parseXForwardedForEntrySliced " [::1] " = pure ⟨.v6 ⟨1⟩, 0⟩ := by
    rw [parseXForwardedForEntrySliced_eq, Panicking.ofExcept_eq_pure]
    decide
  exact ⟨hEntry,
    (forwarded_addresses_agree.2 " [::1] " (by decide) (.v6 ⟨1⟩) 0).mp hEntry⟩

end Eggserve.Primitives
