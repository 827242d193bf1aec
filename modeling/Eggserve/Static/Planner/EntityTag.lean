import Eggserve.Rust.Integer

/-! Entity-tag lists. The code cuts a list at its commas and compares texts;
the reference reads it with the grammar of a quoted tag, in which a comma may
stand inside a tag. Both agree on every list the grammar accepts. -/
namespace Eggserve.Static
open Rust

/-- `&etag[2..]` after `starts_with("W/")`. -/
def stripWeak (etag : Str) : Str :=
  if "W/".toList <+: etag then etag.drop 2 else etag

/-- One element of the list against the current tag. -/
def elementMatches (current element : Str) : Bool :=
  let etag := trim element
  !etag.isEmpty && stripWeak current = stripWeak etag

/-- Weak comparison of an `If-None-Match` value with the current tag. -/
def evaluateIfNoneMatch (ifNoneMatch currentEtag : Str) : Bool :=
  let trimmed := trim ifNoneMatch
  if trimmed = "*" then true
  else (trimmed.splitOn ',').any (elementMatches currentEtag)

/-- Strong comparison: a weak current tag matches no listed tag. -/
def evaluateIfMatch (ifMatch : Str) (currentEtag : Option Str) : Bool :=
  let trimmed := trim ifMatch
  if trimmed = "*" then currentEtag.isSome
  else match currentEtag with
    | none => false
    | some current =>
        if "W/".toList <+: current then false
        else ((trimmed.splitOn ',').map trim).any
          fun candidate => !candidate.isEmpty && candidate = current

/-! The grammar. -/

structure EntityTag where
  weak : Bool
  tagText : Str
  deriving DecidableEq, Repr

/-- `OWS` of the list rule. -/
def isOws (c : Char) : Bool := c = ' ' || c = '\t'

/-- `etagc`: visible characters other than the quote, and everything beyond ASCII. -/
def isEtagc (c : Char) : Bool :=
  c.toNat = 0x21 || 0x23 ≤ c.toNat && c.toNat ≤ 0x7e || 0x80 ≤ c.toNat

/-- Where the reader of a list stands. -/
inductive TagState where
  | beforeTag
  | weakLetter
  | weakSlash
  | inTag (weak : Bool) (seen : Str)
  | afterTag
  deriving DecidableEq, Repr

/-- Read `#entity-tag`; `none` is a syntax error. -/
def readTags : TagState → Str → Option (List EntityTag)
  | .beforeTag, [] => some []
  | .afterTag, [] => some []
  | _, [] => none
  | .beforeTag, c :: rest =>
      if isOws c || c = ',' then readTags .beforeTag rest
      else if c = 'W' then readTags .weakLetter rest
      else if c = '"' then readTags (.inTag false []) rest
      else none
  | .weakLetter, c :: rest => if c = '/' then readTags .weakSlash rest else none
  | .weakSlash, c :: rest => if c = '"' then readTags (.inTag true []) rest else none
  | .inTag weak seen, c :: rest =>
      if c = '"' then (readTags .afterTag rest).map (⟨weak, seen⟩ :: ·)
      else if isEtagc c then readTags (.inTag weak (seen ++ [c])) rest
      else none
  | .afterTag, c :: rest =>
      if isOws c then readTags .afterTag rest
      else if c = ',' then readTags .beforeTag rest
      else none

theorem readTags_beforeTag (c : Char) (rest : Str) : readTags .beforeTag (c :: rest) =
    if isOws c || c = ',' then readTags .beforeTag rest
    else if c = 'W' then readTags .weakLetter rest
    else if c = '"' then readTags (.inTag false []) rest
    else none :=
  rfl

theorem readTags_weakLetter (c : Char) (rest : Str) : readTags .weakLetter (c :: rest) =
    if c = '/' then readTags .weakSlash rest else none :=
  rfl

theorem readTags_weakSlash (c : Char) (rest : Str) : readTags .weakSlash (c :: rest) =
    if c = '"' then readTags (.inTag true []) rest else none :=
  rfl

theorem readTags_inTag (weak : Bool) (seen : Str) (c : Char) (rest : Str) :
    readTags (.inTag weak seen) (c :: rest) =
      if c = '"' then (readTags .afterTag rest).map (⟨weak, seen⟩ :: ·)
      else if isEtagc c then readTags (.inTag weak (seen ++ [c])) rest
      else none :=
  rfl

theorem readTags_afterTag (c : Char) (rest : Str) : readTags .afterTag (c :: rest) =
    if isOws c then readTags .afterTag rest
    else if c = ',' then readTags .beforeTag rest
    else none :=
  rfl

def parseTagList (value : Str) : Option (List EntityTag) := readTags .beforeTag value

/-! Agreement. While the grammar reads a list, `part` is the text since the
last comma, the element the code will compare. -/

def weakMark (weak : Bool) : Str := if weak then "W/" else []

def quoted (text : Str) : Str := '"' :: (text ++ ['"'])

def Blank (s : Str) : Prop := ∀ c ∈ s, isOws c = true

/-- What the part can be in each state. A tag that holds a comma is cut, and
its pieces have at most one quote each. -/
def PartFits : TagState → Str → Prop
  | .beforeTag, part => Blank part
  | .weakLetter, part => ∃ blank, Blank blank ∧ part = blank ++ ['W']
  | .weakSlash, part => ∃ blank, Blank blank ∧ part = blank ++ weakMark true
  | .inTag weak seen, part =>
      '"' ∉ seen ∧
        (',' ∉ seen ∧ (∃ blank, Blank blank ∧ part = blank ++ (weakMark weak ++ '"' :: seen)) ∨
          ',' ∈ seen ∧ '"' ∉ part)
  | .afterTag, _ => True

theorem isWhitespace_of_isOws {c : Char} (h : isOws c = true) : isWhitespace c = true := by
  simp only [isOws, Bool.or_eq_true, decide_eq_true_eq] at h
  rcases h with rfl | rfl <;> decide

theorem Blank.whitespace {s : Str} (h : Blank s) : ∀ c ∈ s, isWhitespace c = true :=
  fun c hc => isWhitespace_of_isOws (h c hc)

theorem Blank.count_quote {s : Str} (h : Blank s) : s.count '"' = 0 := by
  rw [List.count_eq_zero]
  exact fun hMem => absurd (h _ hMem) (by decide)

theorem count_stripWeak (s : Str) : (stripWeak s).count '"' = s.count '"' := by
  rw [stripWeak]
  split
  · rename_i hPrefix
    obtain ⟨rest, rfl⟩ := hPrefix
    simp
  · rfl

/-- An element that matches has the two quotes of the current tag. -/
theorem elementMatches_count {current body part : Str} (hCurrent : stripWeak current = quoted body)
    (hQuote : '"' ∉ body) (h : part.count '"' ≠ 2) : elementMatches current part = false := by
  have hTwo : (quoted body).count '"' = 2 := by
    simp [quoted, List.count_eq_zero.mpr hQuote]
  rw [elementMatches, Bool.and_eq_false_iff]
  right
  rw [decide_eq_false_iff_not, hCurrent]
  intro hEq
  have hCount := count_stripWeak (trim part)
  rw [← hEq, hTwo, count_trim part (by decide)] at hCount
  exact h hCount.symm

theorem elementMatches_blank (current : Str) {part : Str} (h : Blank part) :
    elementMatches current part = false := by
  simp [elementMatches, trim_of_blank h.whitespace]

/-- An uncut tag matches exactly when its text does. -/
theorem elementMatches_quoted {current body blank : Str} (weak : Bool) (text : Str)
    (hCurrent : stripWeak current = quoted body) (hBlank : Blank blank) :
    elementMatches current (blank ++ (weakMark weak ++ quoted text)) = decide (text = body) := by
  have hTrim : trim (blank ++ (weakMark weak ++ quoted text)) = weakMark weak ++ quoted text := by
    rw [trim_blank_append _ hBlank.whitespace]
    cases weak with
    | false => exact trim_cons_concat text (by decide) (by decide)
    | true => exact trim_cons_concat ('/' :: '"' :: text) (by decide) (by decide)
  have hStrip : stripWeak (weakMark weak ++ quoted text) = quoted text := by
    cases weak <;> simp [stripWeak, weakMark, quoted]
  have hNonempty : (weakMark weak ++ quoted text).isEmpty = false := by simp [quoted]
  have hText : quoted body = quoted text ↔ text = body := by
    simp [quoted, eq_comm]
  simp only [elementMatches, hTrim, hStrip, hCurrent, hNonempty, hText, Bool.not_false,
    Bool.true_and]

/-- Closing a tag fixes the verdict on its last piece. -/
theorem elementMatches_closing {current body seen part : Str} {weak : Bool}
    (hCurrent : stripWeak current = quoted body) (hQuote : '"' ∉ body) (hComma : ',' ∉ body)
    (hFits : PartFits (.inTag weak seen) part) :
    elementMatches current (part ++ ['"']) = decide (seen = body) := by
  rcases hFits.2 with ⟨_, blank, hBlank, rfl⟩ | ⟨hCut, hNone⟩
  · have hPart : blank ++ (weakMark weak ++ '"' :: seen) ++ ['"'] =
        blank ++ (weakMark weak ++ quoted seen) := by simp [quoted]
    rw [hPart, elementMatches_quoted weak seen hCurrent hBlank]
  · have hSeen : seen ≠ body := fun hEq => hComma (hEq ▸ hCut)
    have hCount : (part ++ ['"']).count '"' = 1 := by simp [List.count_eq_zero.mpr hNone]
    rw [elementMatches_count hCurrent hQuote (by omega), decide_eq_false hSeen]

/-- A comma inside a tag cuts off a piece that is no tag. -/
theorem elementMatches_open {current body seen part : Str} {weak : Bool}
    (hCurrent : stripWeak current = quoted body) (hQuote : '"' ∉ body)
    (hFits : PartFits (.inTag weak seen) part) : elementMatches current part = false := by
  obtain ⟨hSeen, ⟨_, blank, hBlank, rfl⟩ | ⟨_, hNone⟩⟩ := hFits
  · have hCount : (blank ++ (weakMark weak ++ '"' :: seen)).count '"' = 1 := by
      cases weak <;> simp [weakMark, hBlank.count_quote, List.count_eq_zero.mpr hSeen]
    exact elementMatches_count hCurrent hQuote (by omega)
  · exact elementMatches_count hCurrent hQuote (by rw [List.count_eq_zero.mpr hNone]; omega)

/-- Blanks after a closed tag do not change its verdict. -/
theorem elementMatches_append_blank (current part : Str) {c : Char} (h : isOws c = true) :
    elementMatches current (part ++ [c]) = elementMatches current part := by
  rw [elementMatches, trim_append_blank part (isWhitespace_of_isOws h), elementMatches]

theorem any_splitOn_append {f : Str → Bool} {part : Str} (rest : Str) (h : ',' ∉ part) :
    ((part ++ ',' :: rest).splitOn ',').any f = (f part || (rest.splitOn ',').any f) := by
  rw [List.splitOn_append_cons_self_of_not_mem h, List.any_cons]

/-- The verdict on a tag that is already closed but whose part goes on. -/
def closedMatches (current : Str) : TagState → Str → Bool
  | .afterTag, part => elementMatches current part
  | _, _ => false

theorem not_mem_append_singleton {part : Str} {c : Char} (hPart : ',' ∉ part) (hc : c ≠ ',') :
    ',' ∉ part ++ [c] := by
  simp [hPart, hc.symm]

/-- Reading the rest from a state, the elements of the cut text match exactly when
a tag of the grammar does. -/
def SplitAgrees (current body rest : Str) (state : TagState) : Prop :=
  ∀ (part : Str) (tags : List EntityTag), PartFits state part → ',' ∉ part →
    readTags state rest = some tags →
    ((part ++ rest).splitOn ',').any (elementMatches current) =
      (closedMatches current state part || tags.any fun tag => tag.tagText = body)

section Split

variable {current body rest : Str} {c : Char}

theorem splitAgrees_nil (state : TagState) : SplitAgrees current body [] state := by
  intro part tags hFits hPart hRead
  rw [List.append_nil, List.splitOn_eq_singleton hPart, List.any_cons, List.any_nil,
    Bool.or_false]
  cases state with
  | beforeTag =>
      cases hRead
      simpa [closedMatches] using elementMatches_blank current hFits
  | afterTag =>
      cases hRead
      simp [closedMatches]
  | weakLetter => cases hRead
  | weakSlash => cases hRead
  | inTag weak seen => cases hRead

theorem splitAgrees_beforeTag (ih : ∀ state, SplitAgrees current body rest state) :
    SplitAgrees current body (c :: rest) .beforeTag := by
  intro part tags hFits hPart hRead
  rw [readTags_beforeTag] at hRead
  by_cases hc : c = ','
  · subst hc
    rw [any_splitOn_append rest hPart, elementMatches_blank current hFits]
    exact ih .beforeTag [] tags (by simp [PartFits, Blank]) (by simp) (by simpa using hRead)
  -- Any other character joins the part before it.
  rw [List.append_cons]
  have hPart' := not_mem_append_singleton hPart hc
  by_cases hOws : isOws c = true
  · have hBlank : Blank (part ++ [c]) := by
      intro d hd
      rcases List.mem_append.mp hd with hd | hd
      · exact hFits d hd
      · rwa [List.mem_singleton.mp hd]
    exact ih .beforeTag _ tags hBlank hPart' (by simpa [hOws] using hRead)
  rw [Bool.not_eq_true] at hOws
  simp only [hOws, hc, decide_false, Bool.or_self, Bool.false_eq_true, ↓reduceIte] at hRead
  split_ifs at hRead with hW hQ
  · subst hW
    exact ih .weakLetter _ tags ⟨part, hFits, rfl⟩ hPart' hRead
  · subst hQ
    exact ih (.inTag false []) _ tags
      ⟨by simp, .inl ⟨by simp, part, hFits, by simp [weakMark]⟩⟩ hPart' hRead

theorem splitAgrees_weakLetter (ih : ∀ state, SplitAgrees current body rest state) :
    SplitAgrees current body (c :: rest) .weakLetter := by
  rintro _ tags ⟨blank, hBlank, rfl⟩ hPart hRead
  rw [readTags_weakLetter] at hRead
  split_ifs at hRead with hc
  subst hc
  rw [List.append_cons]
  exact ih .weakSlash _ tags ⟨blank, hBlank, by simp [weakMark]⟩
    (not_mem_append_singleton hPart (by decide)) hRead

theorem splitAgrees_weakSlash (ih : ∀ state, SplitAgrees current body rest state) :
    SplitAgrees current body (c :: rest) .weakSlash := by
  rintro _ tags ⟨blank, hBlank, rfl⟩ hPart hRead
  rw [readTags_weakSlash] at hRead
  split_ifs at hRead with hc
  subst hc
  rw [List.append_cons]
  exact ih (.inTag true []) _ tags ⟨by simp, .inl ⟨by simp, blank, hBlank, by simp⟩⟩
    (not_mem_append_singleton hPart (by decide)) hRead

theorem splitAgrees_inTag (hCurrent : stripWeak current = quoted body) (hQuote : '"' ∉ body)
    (hComma : ',' ∉ body) (weak : Bool) (seen : Str)
    (ih : ∀ state, SplitAgrees current body rest state) :
    SplitAgrees current body (c :: rest) (.inTag weak seen) := by
  rintro part tags ⟨hSeen, hForm⟩ hPart hRead
  rw [readTags_inTag] at hRead
  split_ifs at hRead with hQ hEtagc
  · -- The tag closes here, and the verdict on it is fixed.
    subst hQ
    obtain ⟨tail, hTail, rfl⟩ := Option.map_eq_some_iff.mp hRead
    rw [List.append_cons, ih .afterTag _ tail trivial
      (not_mem_append_singleton hPart (by decide)) hTail]
    rw [closedMatches, elementMatches_closing hCurrent hQuote hComma ⟨hSeen, hForm⟩]
    simp [closedMatches]
  · have hSeen' : '"' ∉ seen ++ [c] := by simp [hSeen, Ne.symm hQ]
    by_cases hc : c = ','
    · subst hc
      rw [any_splitOn_append rest hPart, elementMatches_open hCurrent hQuote ⟨hSeen, hForm⟩]
      exact ih (.inTag weak _) [] tags ⟨hSeen', .inr ⟨by simp, by simp⟩⟩ (by simp) hRead
    · rw [List.append_cons]
      refine ih (.inTag weak _) _ tags ⟨hSeen', ?_⟩ (not_mem_append_singleton hPart hc) hRead
      rcases hForm with ⟨hIntact, blank, hBlank, rfl⟩ | ⟨hCut, hNone⟩
      · exact .inl ⟨not_mem_append_singleton hIntact hc, blank, hBlank, by simp⟩
      · exact .inr ⟨List.mem_append_left _ hCut, by simp [hNone, Ne.symm hQ]⟩

theorem splitAgrees_afterTag (ih : ∀ state, SplitAgrees current body rest state) :
    SplitAgrees current body (c :: rest) .afterTag := by
  intro part tags _ hPart hRead
  rw [readTags_afterTag] at hRead
  split_ifs at hRead with hOws hc
  · have hc : c ≠ ',' := by
      rintro rfl
      exact absurd hOws (by decide)
    rw [List.append_cons, ih .afterTag _ tags trivial (not_mem_append_singleton hPart hc) hRead]
    simp only [closedMatches, elementMatches_append_blank current part hOws]
  · subst hc
    rw [any_splitOn_append rest hPart]
    have hRest := ih .beforeTag [] tags (by simp [PartFits, Blank]) (by simp) hRead
    simp only [List.nil_append, closedMatches, Bool.false_or] at hRest
    rw [hRest, closedMatches]

end Split

/-- By induction on the unread text, for every state at once. -/
theorem readTags_split {current body : Str} (hCurrent : stripWeak current = quoted body)
    (hQuote : '"' ∉ body) (hComma : ',' ∉ body) (rest : Str) (state : TagState) :
    SplitAgrees current body rest state := by
  induction rest generalizing state with
  | nil => exact splitAgrees_nil state
  | cons c rest ih =>
      cases state with
      | beforeTag => exact splitAgrees_beforeTag ih
      | weakLetter => exact splitAgrees_weakLetter ih
      | weakSlash => exact splitAgrees_weakSlash ih
      | inTag weak seen => exact splitAgrees_inTag hCurrent hQuote hComma weak seen ih
      | afterTag => exact splitAgrees_afterTag ih

/-- On a list that the grammar accepts, cutting at commas and reading tags
give the same weak comparison. -/
theorem evaluateIfNoneMatch_of_grammar {current body value : Str} {tags : List EntityTag}
    (hCurrent : stripWeak current = quoted body) (hQuote : '"' ∉ body) (hComma : ',' ∉ body)
    (hStar : trim value ≠ "*") (hRead : parseTagList (trim value) = some tags) :
    evaluateIfNoneMatch value current = tags.any fun tag => tag.tagText = body := by
  have hSplit := readTags_split hCurrent hQuote hComma (trim value) .beforeTag [] tags
    (by simp [PartFits, Blank]) (by simp) hRead
  simp only [List.nil_append, closedMatches, Bool.false_or] at hSplit
  rw [evaluateIfNoneMatch, if_neg hStar, hSplit]

end Eggserve.Static
