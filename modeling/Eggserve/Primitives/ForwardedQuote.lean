import Eggserve.Primitives.ForwardedSyntax
import Eggserve.Rust.Quote

/-! Separators in quoted strings. The parser of the `Forwarded` field cuts at
commas and semicolons before it looks at quotes; here its cuts are compared with
those of a reader that knows about quoted strings. -/
namespace Eggserve.Primitives
open Rust

/-- The elements of a reader that cuts outside quoted strings only. -/
def quotedElements (joined : Str) : List Str :=
  ((quoteCut (· == ',') .outside joined).map trim).filter fun piece => !piece.isEmpty

/-- The pairs of such a reader. -/
def quotedPairs (element : Str) : List Str := (quoteCut (· == ';') .outside element).map trim

/-- Both cut alike, and every value is the text of what stands in the field. -/
structure QuoteSound (joined : Str) : Prop where
  elements : quotedElements joined = splitList joined
  pairs : ∀ element ∈ splitList joined, quotedPairs element = (element.splitOn ';').map trim
  unescaped : ∀ element ∈ splitList joined, ∀ pair ∈ element.splitOn ';',
    ∃ key value, splitPair pair = .ok (key, value) ∧ IsPair pair key value

def isSeparator (c : Char) : Bool := c == ',' || c == ';'

/-- What stands in front of the first equals sign. -/
def pairName (piece : Str) : Str := (trim piece).takeWhile (· ≠ '=')

/-- A pair with a quote in its name that leaves a quoted string open. -/
def OpensQuote (piece : Str) : Prop :=
  '"' ∈ pairName piece ∧ QuoteState.outside.after piece ≠ .outside

instance : DecidablePred OpensQuote := fun _ => inferInstanceAs (Decidable (_ ∧ _))

/-! The cuts. -/

theorem comma_ne_quote (c : Char) (h : (c == ',') = true) : c ≠ '"' := by
  rw [beq_iff_eq.mp h]
  decide

theorem isSeparator_ne_quote (c : Char) (h : isSeparator c = true) : c ≠ '"' := by
  rw [isSeparator, Bool.or_eq_true, beq_iff_eq, beq_iff_eq] at h
  rcases h with rfl | rfl <;> decide

theorem semicolon_not_whitespace (c : Char) (h : isWhitespace c = true) : (c == ';') = false := by
  rw [beq_eq_false_iff_ne]
  rintro rfl
  exact absurd h (by decide)

theorem quotedElements_eq_iff (joined : Str) :
    quotedElements joined = splitList joined ↔ SeparatorsOutside (· == ',') .outside joined := by
  constructor
  · intro hSame
    apply separatorsOutside_of_free_pieces
    intro piece hPiece c hc
    rw [beq_eq_false_iff_ne]
    rintro rfl
    have hTrim := mem_trim (c := ',') (by decide) hc
    have hElement : trim piece ∈ quotedElements joined := by
      rw [quotedElements, List.mem_filter]
      refine ⟨List.mem_map_of_mem hPiece, ?_⟩
      simpa using List.ne_nil_of_mem hTrim
    rw [hSame] at hElement
    exact (mem_splitList hElement).2.2.1 hTrim
  · intro h
    rw [quotedElements, quoteCut_eq_splitOnP h, splitList, List.splitOn_eq_splitOnP]

theorem quotedPairs_eq_iff (element : Str) :
    quotedPairs element = (element.splitOn ';').map trim ↔
      SeparatorsOutside (· == ';') .outside element := by
  constructor
  · intro hSame
    apply separatorsOutside_of_free_pieces
    intro piece hPiece c hc
    rw [beq_eq_false_iff_ne]
    rintro rfl
    have hTrim := mem_trim (c := ';') (by decide) hc
    have hPair : trim piece ∈ quotedPairs element := List.mem_map_of_mem hPiece
    rw [hSame] at hPair
    obtain ⟨other, hOther, hEq⟩ := List.mem_map.mp hPair
    rw [← hEq] at hTrim
    exact not_mem_of_mem_splitOn hOther (trim_subset other hTrim)
  · intro h
    rw [quotedPairs, quoteCut_eq_splitOnP h, List.splitOn_eq_splitOnP]

/-- The semicolons of the elements are those of the pieces between commas. -/
theorem semicolonsOutside_iff (joined : Str) :
    (∀ element ∈ splitList joined, SeparatorsOutside (· == ';') .outside element) ↔
      ∀ piece ∈ joined.splitOn ',', SeparatorsOutside (· == ';') .outside piece := by
  constructor
  · intro h piece hPiece
    rw [← separatorsOutside_trim semicolon_not_whitespace]
    by_cases hBlank : trim piece = []
    · rw [hBlank]
      trivial
    · apply h
      rw [splitList, List.mem_filter]
      exact ⟨List.mem_map_of_mem hPiece, by simpa using hBlank⟩
  · intro h element hElement
    rw [splitList, List.mem_filter] at hElement
    obtain ⟨piece, hPiece, rfl⟩ := List.mem_map.mp hElement.1
    rw [separatorsOutside_trim semicolon_not_whitespace]
    exact h piece hPiece

/-- The cuts are alike exactly if all separators stand outside quoted strings. -/
theorem cuts_alike_iff (joined : Str) :
    (quotedElements joined = splitList joined ∧
      ∀ element ∈ splitList joined, quotedPairs element = (element.splitOn ';').map trim) ↔
      SeparatorsOutside isSeparator .outside joined := by
  have hSeparator : SeparatorsOutside isSeparator .outside joined ↔
      SeparatorsOutside (· == ',') .outside joined ∧
        SeparatorsOutside (· == ';') .outside joined := separatorsOutside_or
  simp only [quotedElements_eq_iff, quotedPairs_eq_iff]
  rw [hSeparator, semicolonsOutside_iff, List.splitOn_eq_splitOnP]
  refine and_congr_right fun hComma => ?_
  exact (separatorsOutside_splitOnP comma_ne_quote joined hComma).symm

/-! Pairs that are accepted. -/

theorem after_unescapes {body text : Str} (h : Unescapes body text) :
    QuoteState.inside.after body = .inside := by
  induction h with
  | nil => rfl
  | plain hPlain _ ih =>
      rw [QuoteState.after_cons, QuoteState.next, if_neg hPlain.1, if_neg hPlain.2, ih]
  | escape _ _ ih => exact ih

theorem after_value {raw value : Str} (h : IsValue raw value) :
    QuoteState.outside.after raw = .outside := by
  cases h with
  | quoted hBody =>
      have hOpen : QuoteState.outside.next '"' = .inside := rfl
      rw [QuoteState.after_cons, hOpen, QuoteState.after_append, after_unescapes hBody]
      rfl
  | plain hQuote _ => exact QuoteState.after_outside hQuote

/-- Whitespace around a text has no part in it. -/
theorem after_trim {s : Str} (h : QuoteState.outside.after (trim s) = .outside) :
    QuoteState.outside.after s = .outside := by
  obtain ⟨front, back, hSplit, hFront, hBack⟩ := exists_blank_trim s
  have hQuote : ∀ blank : Str, (∀ c ∈ blank, isWhitespace c = true) → '"' ∉ blank :=
    fun blank hBlank hMem => absurd (hBlank _ hMem) (by decide)
  rw [hSplit, QuoteState.after_append, QuoteState.after_append,
    QuoteState.after_outside (hQuote front hFront), h, QuoteState.after_outside (hQuote back hBack)]

/-- A pair without a quote in its name leaves nothing open. -/
theorem after_pair {piece key value : Str} (h : IsPair piece key value)
    (hName : '"' ∉ pairName piece) : QuoteState.outside.after piece = .outside := by
  apply after_trim
  cases h with
  | @mk name raw _ hPair hFirst hValue =>
      rw [pairName, hPair, (takeWhile_ne_append raw hFirst).1] at hName
      have hEquals : QuoteState.outside.next '=' = .outside := rfl
      rw [hPair, QuoteState.after_append, QuoteState.after_outside hName, QuoteState.after_cons,
        hEquals]
      exact after_trim (after_value hValue)

/-- The pieces between separators, cut in two steps. -/
theorem splitOnP_isSeparator (joined : Str) :
    joined.splitOnP isSeparator = (joined.splitOn ',').flatMap fun piece => piece.splitOn ';' := by
  rw [List.splitOn_eq_splitOnP]
  induction joined using split_induction (p := (· == ',')) with
  | hFree s hFree =>
      have hSame : ∀ c ∈ s, isSeparator c = (c == ';') := by
        intro c hc
        rw [isSeparator, hFree c hc, Bool.false_or]
      rw [List.splitOnP_eq_singleton hFree, List.flatMap_singleton, splitOnP_congr hSame,
        List.splitOn_eq_splitOnP]
  | hCut first c rest hFree hSep ih =>
      have hSame : ∀ c ∈ first, isSeparator c = (c == ';') := by
        intro c hc
        rw [isSeparator, hFree c hc, Bool.false_or]
      have hIs : isSeparator c = true := by
        rw [isSeparator, hSep, Bool.true_or]
      rw [List.splitOnP_append_cons_of_forall_mem hFree c hSep, List.flatMap_cons, ← ih,
        List.splitOnP_append_cons first rest hIs, splitOnP_congr hSame, List.splitOn_eq_splitOnP]

theorem IsPair.of_trim_eq {pair other key value : Str} (hTrim : trim pair = trim other)
    (h : IsPair pair key value) : IsPair other key value := by
  cases h with
  | mk hPair hName hValue => exact .mk (hTrim ▸ hPair) hName hValue

/-- Every piece of a text whose elements are accepted is blank or a pair. -/
theorem blank_or_pair {joined piece : Str}
    (hElements : ∀ element ∈ splitList joined, WellFormedElement element)
    (h : piece ∈ joined.splitOnP isSeparator) :
    trim piece = [] ∨ ∃ key value, IsPair piece key value := by
  rw [splitOnP_isSeparator, List.mem_flatMap] at h
  obtain ⟨segment, hSegment, hPiece⟩ := h
  have hTrimmed : ((trim segment).splitOnP (· == ';')).map trim =
      (segment.splitOnP (· == ';')).map trim :=
    elements_trimBlank semicolon_not_whitespace (fun _ h => h) segment
  rw [← List.splitOn_eq_splitOnP, ← List.splitOn_eq_splitOnP] at hTrimmed
  have hMem : trim piece ∈ ((trim segment).splitOn ';').map trim := by
    rw [hTrimmed]
    exact List.mem_map_of_mem hPiece
  obtain ⟨pair, hPair, hEq⟩ := List.mem_map.mp hMem
  by_cases hBlank : trim segment = []
  · rw [hBlank, List.splitOn_nil, List.mem_singleton] at hPair
    subst hPair
    exact Or.inl hEq.symm
  · have hElement : trim segment ∈ splitList joined := by
      rw [splitList, List.mem_filter]
      exact ⟨List.mem_map_of_mem hSegment, by simpa using hBlank⟩
    obtain ⟨key, value, hIs, -⟩ := (hElements _ hElement).pairs pair hPair
    exact Or.inr ⟨key, value, hIs.of_trim_eq hEq⟩

/-- A text that is accepted is cut alike by both readers, exactly if no pair but
the last has a name that leaves a quoted string open. -/
theorem quote_sound_iff {joined : Str} {config : ForwardedConfig} {effective : ForwardedEffective}
    (h : parseForwardedChain joined config = .ok effective) :
    QuoteSound joined ↔ ∀ piece ∈ (joined.splitOnP isSeparator).dropLast, ¬ OpensQuote piece := by
  obtain ⟨-, -, elements, last, hElements, -, -⟩ := parseForwardedChain_eq_ok.mp h
  have hFormed : ∀ element ∈ splitList joined, WellFormedElement element := by
    intro element hElement
    obtain ⟨parsed, hOk⟩ := mapM_item hElements element hElement
    exact (parseForwardedElement_eq_ok hOk).1
  have hPieces := separatorsOutside_iff_pieces isSeparator_ne_quote joined
  constructor
  · intro hSound piece hPiece hOpens
    exact hOpens.2 (hPieces.mp ((cuts_alike_iff joined).mp ⟨hSound.elements, hSound.pairs⟩) piece hPiece)
  · intro hClosed
    have hOutside : SeparatorsOutside isSeparator .outside joined := by
      apply hPieces.mpr
      intro piece hPiece
      rcases blank_or_pair hFormed (List.mem_of_mem_dropLast hPiece) with hBlank | ⟨key, value, hIs⟩
      · exact after_trim (by rw [hBlank]; rfl)
      · by_cases hName : '"' ∈ pairName piece
        · exact not_not.mp fun hOpen => hClosed piece hPiece ⟨hName, hOpen⟩
        · exact after_pair hIs hName
    obtain ⟨hSame, hPairs⟩ := (cuts_alike_iff joined).mpr hOutside
    refine ⟨hSame, hPairs, fun element hElement pair hPair => ?_⟩
    obtain ⟨key, value, hIs, -⟩ := (hFormed element hElement).pairs pair hPair
    exact ⟨key, value, splitPair_eq_ok.mpr hIs, hIs⟩

def quotedName : Str := "a\"=1;b\"=2;for=_x"

theorem quotedName_accepted :
    parseForwardedChain quotedName ⟨true, false, 4096, 16⟩ =
      .ok ⟨none, none, none, .forwarded⟩ := by
  decide

theorem quote_sound_iff_quoted_name :
    QuoteSound quotedName ↔
      ∀ piece ∈ (quotedName.splitOnP isSeparator).dropLast, ¬ OpensQuote piece :=
  quote_sound_iff quotedName_accepted

/-- The first semicolon stands in a quoted string, and the parser cuts there. -/
theorem quoted_semicolon_cut :
    parseForwardedChain quotedName ⟨true, false, 4096, 16⟩ =
        .ok ⟨none, none, none, .forwarded⟩ ∧
      quotedPairs quotedName = ["a\"=1;b\"=2", "for=_x"].map String.toList ∧
      (quotedName.splitOn ';').map trim = ["a\"=1", "b\"=2", "for=_x"].map String.toList ∧
      ¬ QuoteSound quotedName := by
  have hCut : quotedPairs quotedName = ["a\"=1;b\"=2", "for=_x"].map String.toList := by decide
  have hPlain : (quotedName.splitOn ';').map trim =
      ["a\"=1", "b\"=2", "for=_x"].map String.toList := by decide
  refine ⟨quotedName_accepted, hCut, hPlain, fun hSound => ?_⟩
  have hPairs := hSound.pairs quotedName (by decide)
  rw [hCut, hPlain] at hPairs
  exact absurd hPairs (by decide)

end Eggserve.Primitives
