import Eggserve.Html.Tokenizer
import Eggserve.Primitives.Body
import Eggserve.Static.Service

/-! Directory listings as documents: how long one may be, and what a reader of HTML finds in
it. -/
namespace Eggserve.Static
open Rust Eggserve.Primitives Eggserve.Server Html

/-! Escaped text. -/

section

variable {numeric : Nat → Char}

/-- What the reader of an escaped character sees. Controls and the apostrophe are written as
numbers. -/
def shown (numeric : Nat → Char) (c : Char) : Char :=
  if c = '\'' ∨ isControl c = true then numeric c.toNat else c

/-- The places of escaped text: between tags, and between quotation marks. -/
inductive Escaping : Place → Prop where
  | data : Escaping .data
  | value (draft : Draft) (name front : Str) : Escaping (.value draft name (some '"') front)

theorem Escaping.put {place : Place} (h : Escaping place) (s : Str) : Escaping (place.put s).2 := by
  cases h with
  | data => exact .data
  | value draft name front => exact .value draft name (front ++ s)

/-- A character that is not part of markup stays in its place. -/
theorem Escaping.step {place : Place} (h : Escaping place) {c : Char} (hAmp : c ≠ '&')
    (hLess : c ≠ '<') (hQuote : c ≠ '"') :
    step numeric (.text place) c = ((place.put [c]).1, .text (place.put [c]).2) := by
  cases h with
  | data => simp only [Html.step, stepText, if_neg hAmp, if_neg hLess]
  | value => simp only [Html.step, stepText, if_neg hAmp, if_neg hQuote]

/-- A reference that is closed stands for its character. -/
theorem run_closed {place : Place} {name : Str} {meant : Char}
    (hName : run numeric (.reference place []) name = ([], .reference place name))
    (hMeant : resolve numeric name = some meant) :
    run numeric (.text place) ('&' :: (name ++ [';'])) =
      ((place.put [meant]).1, .text (place.put [meant]).2) := by
  have hOpen : step numeric (.text place) '&' = ([], .reference place []) := by
    simp only [step, stepText, if_true]
  have hClose : run numeric (.reference place name) [';'] =
      ((place.put [meant]).1, .text (place.put [meant]).2) := by
    simp only [run, step, stepReference, if_true, hMeant, Option.map_some, Option.getD_some,
      List.append_nil]
  have hBehind := run_append_of_eq hName hClose
  rw [run, hOpen]
  simp only [hBehind]
  rfl

theorem run_hash (place : Place) {more : Str}
    (h : ∀ c ∈ more, asciiAlphabetic c.toNat = true ∨ c.isDigit = true) :
    run numeric (.reference place []) ('#' :: more) = ([], .reference place ('#' :: more)) := by
  have hRest := @run_reference numeric place ['#'] more h
  have hHash : step numeric (.reference place []) '#' = ([], .reference place ['#']) := rfl
  rw [run, hHash]
  simp only [hRest]
  rfl

/-- The number of a control, in hexadecimal. -/
theorem number_upperHex {n : Nat} (h : n < 0xa0) :
    number 16 ((Nat.toDigits 16 n).map Char.toUpper) = some n ∧
      ∀ c ∈ (Nat.toDigits 16 n).map Char.toUpper,
        asciiAlphabetic c.toNat = true ∨ c.isDigit = true := by
  have hAll : ∀ n < 0xa0, number 16 ((Nat.toDigits 16 n).map Char.toUpper) = some n ∧
      ∀ c ∈ (Nat.toDigits 16 n).map Char.toUpper,
        asciiAlphabetic c.toNat = true ∨ c.isDigit = true := by decide +kernel
  exact hAll n h

theorem run_escapeChar {place : Place} (hPlace : Escaping place) (c : Char) :
    run numeric (.text place) (escapeChar c) =
      ((place.put [shown numeric c]).1, .text (place.put [shown numeric c]).2) := by
  unfold escapeChar
  split_ifs with hAmp hLess hGreater hQuote hSingle hPlain
  · subst hAmp
    exact @run_closed numeric place "amp" '&' rfl rfl
  · subst hLess
    exact @run_closed numeric place "lt" '<' rfl rfl
  · subst hGreater
    exact @run_closed numeric place "gt" '>' rfl rfl
  · subst hQuote
    exact @run_closed numeric place "quot" '"' rfl rfl
  · subst hSingle
    exact @run_closed numeric place "#x27" (numeric 0x27) rfl rfl
  · have hShown : shown numeric c = c := if_neg (not_or.mpr ⟨hSingle, by simpa using hPlain⟩)
    rw [hShown, run, hPlace.step hAmp hLess hQuote]
    simp only [run, List.append_nil]
  · have hControl : isControl c = true := by simpa using hPlain
    have hShown : shown numeric c = numeric c.toNat := if_pos (Or.inr hControl)
    have hSmall : c.toNat < 0xa0 := by
      simp only [isControl, Bool.or_eq_true, Bool.and_eq_true, decide_eq_true_eq] at hControl
      omega
    obtain ⟨hNumber, hDigits⟩ := number_upperHex hSmall
    have hName := @run_hash numeric place ('x' :: (Nat.toDigits 16 c.toNat).map Char.toUpper)
      (List.forall_mem_cons.mpr ⟨Or.inl (by decide), hDigits⟩)
    have hMeant : resolve numeric ('#' :: 'x' :: (Nat.toDigits 16 c.toNat).map Char.toUpper) =
        some (numeric c.toNat) := by
      rw [resolve, hNumber]
      rfl
    rw [hShown]
    exact run_closed hName hMeant

/-- Escaped text is read as text, whatever it is. -/
theorem run_htmlEscape {place : Place} (hPlace : Escaping place) (value : Str) :
    run numeric (.text place) (htmlEscape value) =
      ((place.put (value.map (shown numeric))).1,
        .text (place.put (value.map (shown numeric))).2) := by
  induction value generalizing place with
  | nil => cases hPlace <;> simp [htmlEscape, run, Place.put]
  | cons c value ih =>
      have hRest := run_append_of_eq (@run_escapeChar numeric _ hPlace c)
        (ih (hPlace.put [shown numeric c]))
      have hPut := place.put_append [shown numeric c] (value.map (shown numeric))
      rw [List.singleton_append] at hPut
      rw [htmlEscape, List.flatMap_cons, ← htmlEscape, hRest, List.map_cons, hPut]

/-! The escaped text itself. -/

/-- The plain reading of numbers gives the text back. -/
theorem map_shown_ofNat (value : Str) : value.map (shown Char.ofNat) = value := by
  conv_rhs => rw [← List.map_id value]
  refine List.map_congr_left fun c _ => ?_
  rw [shown, Char.ofNat_toNat, ite_self, id]

theorem htmlEscape_injective : Function.Injective htmlEscape := by
  intro s t h
  have hCharacters (value : Str) :
      (run Char.ofNat (.text .data) (htmlEscape value)).1 = value.map .character := by
    rw [run_htmlEscape .data, map_shown_ofNat]
    rfl
  have hMap : s.map Token.character = t.map Token.character := by
    rw [← hCharacters, h, hCharacters]
  exact List.map_injective_iff.mpr (fun _ _ hEq => Token.character.inj hEq) hMap

/-- A character that can neither end a value or a text nor break a line. -/
def Clean (c : Char) : Prop :=
  c ≠ '<' ∧ c ≠ '>' ∧ c ≠ '"' ∧ c ≠ '\'' ∧ isControl c = false

instance (c : Char) : Decidable (Clean c) :=
  inferInstanceAs (Decidable (_ ∧ _ ∧ _ ∧ _ ∧ _))

theorem clean_upperHex {n : Nat} (h : n < 0xa0) :
    ∀ c ∈ (Nat.toDigits 16 n).map Char.toUpper, Clean c ∧ c ≠ '&' := by
  have hAll : ∀ n < 0xa0, ∀ c ∈ (Nat.toDigits 16 n).map Char.toUpper, Clean c ∧ c ≠ '&' := by
    decide +kernel
  exact hAll n h

theorem lt_of_isControl {c : Char} (h : isControl c = true) : c.toNat < 0xa0 := by
  simp only [isControl, Bool.or_eq_true, Bool.and_eq_true, decide_eq_true_eq] at h
  omega

/-- An ampersand can only be in front. -/
theorem escapeChar_clean (c : Char) :
    (∀ d ∈ escapeChar c, Clean d) ∧ '&' ∉ (escapeChar c).tail := by
  unfold escapeChar
  split_ifs with hAmp hLess hGreater hQuote hSingle hPlain
  · decide
  · decide
  · decide
  · decide
  · decide
  · refine ⟨fun d hd => ?_, by simp⟩
    obtain rfl := List.mem_singleton.mp hd
    exact ⟨hLess, hGreater, hQuote, hSingle, by simpa using hPlain⟩
  · have hDigits := clean_upperHex (lt_of_isControl (by simpa using hPlain))
    constructor
    · intro d hd
      rw [List.mem_append, List.mem_append, List.mem_singleton] at hd
      rcases hd with (hFront | hDigit) | rfl
      · have hClean : ∀ d ∈ "&#x".toList, Clean d := by decide
        exact hClean d hFront
      · exact (hDigits d hDigit).1
      · decide
    · intro hMem
      have hTail : '&' ∈ ("#x".toList ++ (Nat.toDigits 16 c.toNat).map Char.toUpper) ++ [';'] := hMem
      rw [List.mem_append, List.mem_append, List.mem_singleton] at hTail
      rcases hTail with (hFront | hDigit) | hLast
      · exact absurd hFront (by decide)
      · exact (hDigits _ hDigit).2 rfl
      · exact absurd hLast (by decide)

theorem htmlEscape_clean {value : Str} {c : Char} (h : c ∈ htmlEscape value) : Clean c := by
  obtain ⟨d, -, hMem⟩ := List.mem_flatMap.mp h
  exact (escapeChar_clean d).1 c hMem

/-- Every ampersand begins the escape of a character. -/
theorem htmlEscape_ampersand {value front rest : Str} (h : htmlEscape value = front ++ '&' :: rest) :
    ∃ c, escapeChar c ≠ [c] ∧ escapeChar c <+: '&' :: rest := by
  induction value generalizing front with
  | nil => simp [htmlEscape] at h
  | cons c value ih =>
      rw [htmlEscape, List.flatMap_cons, ← htmlEscape, List.append_eq_append_iff] at h
      rcases h with ⟨later, hFront, hLater⟩ | ⟨piece, hHere, hRest⟩
      · exact ih hLater
      · cases piece with
        | nil => exact @ih [] hRest.symm
        | cons d piece =>
            rw [List.cons_append, List.cons.injEq] at hRest
            obtain ⟨rfl, hRest⟩ := hRest
            have hFirst : front = [] := by
              cases front with
              | nil => rfl
              | cons e front =>
                  refine absurd ?_ (escapeChar_clean c).2
                  rw [hHere]
                  simp
            subst hFirst
            refine ⟨c, fun hPlain => ?_, ?_⟩
            · rw [hPlain, List.nil_append, List.cons.injEq] at hHere
              rw [hHere.1] at hPlain
              exact absurd hPlain (by decide)
            · rw [hHere, hRest, List.nil_append]
              exact ⟨htmlEscape value, rfl⟩

/-! What a reader finds. -/

def slash (entry : ListingEntry) : Str := if entry.isDir then ['/'] else []

/-- A line of the listing, as tokens. -/
def linkTokens (numeric : Nat → Char) (entry : ListingEntry) : List Token :=
  [.startTag "li" [], .startTag "a" [("href", entry.href.map (shown numeric) ++ slash entry)]] ++
    (entry.name.map (shown numeric) ++ slash entry).map .character ++
      [.endTag "a", .endTag "li", .character '\n']

theorem run_listingLink (entry : ListingEntry) :
    run numeric (.text .data) (listingLink entry) =
      (linkTokens numeric entry, .text .data) := by
  have hOpen : run numeric (.text .data) "<li><a href=\"".toList =
      ([.startTag "li" []], .text (.value ⟨false, "a", []⟩ "href" (some '"') [])) := rfl
  have hHref := run_append_of_eq hOpen
    (@run_htmlEscape numeric _ (.value ⟨false, "a", []⟩ "href" []) entry.href)
  have hName := @run_htmlEscape numeric _ .data entry.name
  simp only [Place.put, List.nil_append, List.append_nil] at hHref hName
  rw [listingLink, linkTokens, slash]
  cases entry.isDir with
  | true =>
      have hQuote : run numeric
          (.text (.value ⟨false, "a", []⟩ "href" (some '"') (entry.href.map (shown numeric))))
          "/\">".toList =
            ([.startTag "a" [("href", entry.href.map (shown numeric) ++ ['/'])]], .text .data) := rfl
      have hEnd : run numeric (.text .data) "/</a></li>\n".toList =
          ([.character '/', .endTag "a", .endTag "li", .character '\n'], .text .data) := rfl
      have hLine := run_append_of_eq (run_append_of_eq (run_append_of_eq hHref hQuote) hName) hEnd
      simp only [if_true] at hLine ⊢
      rw [hLine]
      simp
  | false =>
      have hQuote : run numeric
          (.text (.value ⟨false, "a", []⟩ "href" (some '"') (entry.href.map (shown numeric))))
          "\">".toList =
            ([.startTag "a" [("href", entry.href.map (shown numeric))]], .text .data) := rfl
      have hEnd : run numeric (.text .data) "</a></li>\n".toList =
          ([.endTag "a", .endTag "li", .character '\n'], .text .data) := rfl
      have hLine := run_append_of_eq (run_append_of_eq (run_append_of_eq hHref hQuote) hName) hEnd
      simp only [Bool.false_eq_true, if_false] at hLine ⊢
      rw [hLine]
      simp

/-- The whole document. -/
def listingDocument (entries : List ListingEntry) : Str :=
  listingPrefix.toList ++ entries.flatMap listingLink ++ listingSuffix.toList

theorem run_links (entries : List ListingEntry) :
    run numeric (.text .data) (entries.flatMap listingLink) =
      (entries.flatMap (linkTokens numeric), .text .data) := by
  induction entries with
  | nil => rfl
  | cons entry entries ih => exact run_append_of_eq (run_listingLink entry) ih

def isLink : Token → Bool
  | .startTag name _ => name = "a"
  | _ => false

set_option maxRecDepth 4000 in
theorem run_listingPrefix :
    (run numeric (.text .data) listingPrefix.toList).2 = .text .data ∧
      (run numeric (.text .data) listingPrefix.toList).1.any isLink = false := by
  have hChars : listingPrefix.toList = _ :=
    String.toList_append.trans (congrArg₂ (· ++ ·) String.toList_ofList String.toList_ofList)
  rw [hChars]
  exact ⟨(rfl), (rfl)⟩

theorem run_listingSuffix :
    (run numeric (.text .data) listingSuffix.toList).2 = .text .data ∧
      (run numeric (.text .data) listingSuffix.toList).1.any isLink = false := by
  have hChars : listingSuffix.toList = _ := String.toList_ofList
  rw [hChars]
  exact ⟨(rfl), (rfl)⟩

/-- Nothing but the fixed parts and a line for each entry. -/
theorem tokenize_listingDocument (entries : List ListingEntry) :
    tokenize numeric (listingDocument entries) =
      tokenize numeric listingPrefix.toList ++ entries.flatMap (linkTokens numeric) ++
        tokenize numeric listingSuffix.toList := by
  have hLinks := @run_links numeric entries
  rw [listingDocument, tokenize, run_append, run_append, run_listingPrefix.1, hLinks,
    run_listingSuffix.1, tokenize, tokenize, run_listingPrefix.1, run_listingSuffix.1]
  simp only [finish, List.append_nil]

/-- The characters up to the next tag. -/
def leadingText : List Token → Str
  | .character c :: rest => c :: leadingText rest
  | _ => []

/-- The target and the text of every link. -/
def links : List Token → List (Str × Str)
  | [] => []
  | .startTag name attributes :: rest =>
      if name = "a" then ((attributes.lookup ("href" : Str)).getD [], leadingText rest) :: links rest
      else links rest
  | _ :: rest => links rest

theorem links_append_of_none {front : List Token} (h : front.any isLink = false)
    (rest : List Token) : links (front ++ rest) = links rest := by
  induction front with
  | nil => rfl
  | cons token front ih =>
      rw [List.any_cons, Bool.or_eq_false_iff] at h
      rw [List.cons_append, ← ih h.2]
      cases token with
      | startTag name attributes => exact if_neg (of_decide_eq_false h.1)
      | character => rfl
      | endTag => rfl
      | declaration => rfl

theorem leadingText_characters (s : Str) (name : Str) (rest : List Token) :
    leadingText (s.map .character ++ .endTag name :: rest) = s := by
  induction s with
  | nil => rfl
  | cons c s ih => exact congrArg (c :: ·) ih

/-- What the reader takes from the line of an entry. -/
def seenLink (numeric : Nat → Char) (entry : ListingEntry) : Str × Str :=
  (entry.href.map (shown numeric) ++ slash entry, entry.name.map (shown numeric) ++ slash entry)

theorem links_linkTokens (entry : ListingEntry) (rest : List Token) :
    links (linkTokens numeric entry ++ rest) = seenLink numeric entry :: links rest := by
  have hText := leadingText_characters (entry.name.map (shown numeric) ++ slash entry) "a"
    (.endTag "li" :: .character '\n' :: rest)
  have hNone : ((entry.name.map (shown numeric) ++ slash entry).map Token.character ++
      [Token.endTag "a", .endTag "li", .character '\n']).any isLink = false := by
    rw [List.any_append, List.any_map]
    simp [isLink, Function.comp_def]
  have hRest := links_append_of_none hNone rest
  rw [List.append_assoc] at hRest
  simp only [linkTokens, List.append_assoc, List.cons_append, List.nil_append, links] at hText hRest ⊢
  rw [if_neg (by decide), if_pos (by decide), hText, hRest]
  rfl

theorem links_flatMap (entries : List ListingEntry) (rest : List Token) :
    links (entries.flatMap (linkTokens numeric) ++ rest) =
      entries.map (seenLink numeric) ++ links rest := by
  induction entries with
  | nil => rfl
  | cons entry entries ih =>
      rw [List.flatMap_cons, List.append_assoc, links_linkTokens, ih]
      rfl

theorem no_link_in_prefix : (tokenize numeric listingPrefix.toList).any isLink = false := by
  rw [tokenize, run_listingPrefix.1, List.any_append, run_listingPrefix.2]
  rfl

theorem links_in_suffix : links (tokenize numeric listingSuffix.toList) = [] := by
  have hNone := links_append_of_none (@run_listingSuffix numeric).2 []
  rw [List.append_nil] at hNone
  have hFinish : finish (.text .data) = [] := rfl
  rw [tokenize, run_listingSuffix.1, hFinish, List.append_nil, hNone, links]

theorem links_listingDocument (entries : List ListingEntry) :
    links (tokenize numeric (listingDocument entries)) = entries.map (seenLink numeric) := by
  rw [tokenize_listingDocument, List.append_assoc, links_append_of_none no_link_in_prefix,
    links_flatMap, links_in_suffix, List.append_nil]

/-- What the standard does not take for the character of that number: zero, and the controls
that windows-1252 has other characters for. -/
def Replaced (c : Char) : Prop :=
  c.toNat = 0 ∨ 0x80 ≤ c.toNat ∧ c.toNat ≤ 0x9f ∧ c.toNat ∉ [0x81, 0x8d, 0x8f, 0x90, 0x9d]

instance (c : Char) : Decidable (Replaced c) := inferInstanceAs (Decidable (_ ∨ _))

theorem shown_standard_iff (c : Char) : shown standardNumeric c = c ↔ ¬Replaced c := by
  by_cases hSmall : c.toNat < 0xa0
  · have hAll : ∀ n < 0xa0, shown standardNumeric (Char.ofNat n) = Char.ofNat n ↔
        ¬Replaced (Char.ofNat n) := by decide +kernel
    have hChar := hAll c.toNat hSmall
    rwa [Char.ofNat_toNat] at hChar
  · have hPlain : ¬(c = '\'' ∨ isControl c = true) := by
      rintro (rfl | hControl)
      · exact hSmall (by decide)
      · exact hSmall (lt_of_isControl hControl)
    have hKept : ¬Replaced c := by
      unfold Replaced
      omega
    rw [shown, if_neg hPlain]
    exact iff_of_true rfl hKept

theorem map_shown_standard_iff (value : Str) :
    value.map (shown standardNumeric) = value ↔ ∀ c ∈ value, ¬Replaced c := by
  conv_lhs => rw [← List.map_id value, List.map_map]
  simp only [List.map_eq_map_iff, Function.comp_apply, id, shown_standard_iff]

end

/-! The bound. -/

/-- The sums are checked, and one that overflows is beyond every bound. -/
def beyond (maxResponseBytes : Nat) (length : Option Nat) : Bool :=
  length.all fun length => maxResponseBytes < length

def renderLinksChecked (machine : Machine) (maxResponseBytes : Nat) :
    List ListingEntry → Str → Except ServiceError Str
  | [], html => .ok html
  | entry :: entries, html =>
      let link := listingLink entry
      if beyond maxResponseBytes ((machine.checkedAdd (utf8 html).length (utf8 link).length).bind
          fun length => machine.checkedAdd length (utf8 listingSuffix).length) then
        .error (internal "directory listing exceeds configured bound")
      else renderLinksChecked machine maxResponseBytes entries (html ++ link)

def renderDirectoryListingChecked (machine : Machine) (entries : List ListingEntry)
    (maxResponseBytes : Nat) : Except ServiceError (List UInt8) :=
  if beyond maxResponseBytes
      (machine.checkedAdd (utf8 listingPrefix).length (utf8 listingSuffix).length) then
    .error (internal "directory listing exceeds configured bound")
  else do
    let html ← renderLinksChecked machine maxResponseBytes entries listingPrefix
    return utf8 (html ++ listingSuffix)

section

variable {machine : Machine} {maxResponseBytes : Nat}

theorem beyond_checkedAdd (hMax : maxResponseBytes ≤ machine.usizeMax) (a b : Nat) :
    beyond maxResponseBytes (machine.checkedAdd a b) = true ↔ maxResponseBytes < a + b := by
  rw [beyond, Machine.checkedAdd]
  split_ifs with hFits
  · simp
  · simp only [Option.all_none, true_iff]
    omega

theorem beyond_checkedAdd_two (hMax : maxResponseBytes ≤ machine.usizeMax) (a b c : Nat) :
    beyond maxResponseBytes ((machine.checkedAdd a b).bind fun length =>
      machine.checkedAdd length c) = true ↔ maxResponseBytes < a + b + c := by
  by_cases hFits : a + b ≤ machine.usizeMax
  · have hSome : machine.checkedAdd a b = some (a + b) := if_pos hFits
    rw [hSome, Option.bind_some, beyond_checkedAdd hMax]
  · have hNone : machine.checkedAdd a b = none := if_neg hFits
    rw [hNone, Option.bind_none, beyond]
    simp only [Option.all_none, true_iff]
    omega

/-- The loop appends all lines, or stops at the bound. -/
theorem renderLinksChecked_eq (hMax : maxResponseBytes ≤ machine.usizeMax)
    (entries : List ListingEntry) (html : Str)
    (h : (utf8 html).length + (utf8 listingSuffix).length ≤ maxResponseBytes) :
    renderLinksChecked machine maxResponseBytes entries html =
      if (utf8 (html ++ entries.flatMap listingLink)).length + (utf8 listingSuffix).length ≤
          maxResponseBytes then
        .ok (html ++ entries.flatMap listingLink)
      else .error (internal "directory listing exceeds configured bound") := by
  induction entries generalizing html with
  | nil =>
      rw [renderLinksChecked, List.flatMap_nil, List.append_nil, if_pos h]
  | cons entry entries ih =>
      rw [renderLinksChecked]
      simp only [beyond_checkedAdd_two hMax]
      by_cases hLink : maxResponseBytes <
          (utf8 html).length + (utf8 (listingLink entry)).length + (utf8 listingSuffix).length
      · rw [if_pos hLink, if_neg]
        rw [List.flatMap_cons, utf8_append, utf8_append, List.length_append, List.length_append]
        omega
      · have hNext : (utf8 (html ++ listingLink entry)).length + (utf8 listingSuffix).length ≤
            maxResponseBytes := by
          rw [utf8_append, List.length_append]
          omega
        rw [if_neg hLink, ih _ hNext, List.flatMap_cons, ← List.append_assoc]

theorem renderDirectoryListingChecked_eq (hMax : maxResponseBytes ≤ machine.usizeMax)
    (entries : List ListingEntry) :
    renderDirectoryListingChecked machine entries maxResponseBytes =
      if (utf8 (listingDocument entries)).length ≤ maxResponseBytes then
        .ok (utf8 (listingDocument entries))
      else .error (internal "directory listing exceeds configured bound") := by
  rw [renderDirectoryListingChecked]
  simp only [beyond_checkedAdd hMax]
  by_cases hFixed : maxResponseBytes < (utf8 listingPrefix).length + (utf8 listingSuffix).length
  · rw [if_pos hFixed, if_neg]
    rw [listingDocument, utf8_append, utf8_append, List.length_append, List.length_append]
    omega
  · have hLength : (utf8 (listingDocument entries)).length =
        (utf8 (listingPrefix.toList ++ entries.flatMap listingLink)).length +
          (utf8 listingSuffix).length := by
      rw [listingDocument, utf8_append _ listingSuffix.toList, List.length_append]
    rw [if_neg hFixed, renderLinksChecked_eq hMax _ _ (Nat.not_lt.mp hFixed), hLength]
    split_ifs
    · rw [listingDocument]
      rfl
    · rfl

end

/-- A listing is the whole document if that fits the bound. Escaping loses nothing and leaves
nothing that markup is made of, so a reader finds the entries and nothing else; but HTML has no
numbers for some controls, and takes those in a name for other characters. -/
theorem listing_read_back (machine : Machine) :
    (∀ (entries : List ListingEntry) (maxResponseBytes : Fin (machine.usizeMax + 1))
        (body : List UInt8),
      renderDirectoryListingChecked machine entries maxResponseBytes = .ok body ↔
        (utf8 (listingDocument entries)).length ≤ maxResponseBytes ∧
          body = utf8 (listingDocument entries)) ∧
    Function.Injective htmlEscape ∧
    (∀ (value : Str), ∀ c ∈ htmlEscape value, Clean c) ∧
    (∀ value front rest : Str, htmlEscape value = front ++ '&' :: rest →
      ∃ c, escapeChar c ≠ [c] ∧ escapeChar c <+: '&' :: rest) ∧
    (∀ (numeric : Nat → Char) (entries : List ListingEntry),
      tokenize numeric (listingDocument entries) =
          tokenize numeric listingPrefix.toList ++ entries.flatMap (linkTokens numeric) ++
            tokenize numeric listingSuffix.toList ∧
        links (tokenize numeric (listingDocument entries)) = entries.map (seenLink numeric)) ∧
    ∀ value : Str, value.map (shown Char.ofNat) = value ∧
      (value.map (shown standardNumeric) = value ↔ ∀ c ∈ value, ¬Replaced c) := by
  refine ⟨fun entries maxResponseBytes body => ?_, htmlEscape_injective,
    fun value c => htmlEscape_clean, fun value front rest => htmlEscape_ampersand,
    fun numeric entries => ⟨tokenize_listingDocument entries, links_listingDocument entries⟩,
    fun value => ⟨map_shown_ofNat value, map_shown_standard_iff value⟩⟩
  rw [renderDirectoryListingChecked_eq (Nat.le_of_lt_succ maxResponseBytes.isLt)]
  split_ifs with hFits
  · simp only [Except.ok.injEq, hFits, true_and]
    exact eq_comm
  · simp [hFits]

/-- A name with an ampersand. -/
theorem listing_read_back_ampersand :
    Clean 'b' ∧ ∃ c, escapeChar c ≠ [c] ∧ escapeChar c <+: ("&amp;b" : Str) := by
  have hRead := listing_read_back ⟨2 ^ 64 - 1, by decide⟩
  exact ⟨hRead.2.2.1 "a&b" 'b' (by decide), hRead.2.2.2.1 "a&b" "a" "amp;b" (by decide)⟩

/-- The file is named by the control `U+0080`, and its link shows a euro sign. -/
theorem control_read_back_as_euro :
    links (tokenize standardNumeric (listingDocument [⟨['\u0080'], "%C2%80", false⟩])) ≠
      [(("%C2%80" : Str), ['\u0080'])] := by
  rw [links_listingDocument]
  decide

end Eggserve.Static
