import Eggserve.Rust.Net

/-! A tokenizer of HTML. It reads one character at a time, so that the tokens of a text are
those of its pieces, each read from the state that the piece before it left. References are
read when a semicolon closes them; any other ampersand stands for itself. -/
namespace Html
open Rust

inductive Token where
  | character (c : Char)
  | startTag (name : Str) (attributes : List (Str × Str))
  | endTag (name : Str)
  | declaration (text : Str)
  deriving DecidableEq, Repr

/-- A tag that is not complete. -/
structure Draft where
  closing : Bool
  name : Str
  attributes : List (Str × Str)
  deriving DecidableEq, Repr

def Draft.addAttribute (draft : Draft) (name value : Str) : Draft :=
  { draft with attributes := draft.attributes ++ [(name, value)] }

def Draft.token (draft : Draft) : Token :=
  if draft.closing then .endTag draft.name else .startTag draft.name draft.attributes

/-- Where characters and references may stand. -/
inductive Place where
  | data
  | value (draft : Draft) (name : Str) (quote : Option Char) (value : Str)
  deriving DecidableEq, Repr

inductive State where
  | text (place : Place)
  | reference (place : Place) (name : Str)
  | tagOpen
  | endTagOpen
  | tagName (draft : Draft)
  | beforeAttributeName (draft : Draft)
  | attributeName (draft : Draft) (name : Str)
  | afterAttributeName (draft : Draft) (name : Str)
  | beforeValue (draft : Draft) (name : Str)
  | afterValue (draft : Draft)
  | selfClosing (draft : Draft)
  | declaration (text : Str)
  deriving DecidableEq, Repr

/-- Tokens that are complete, and the state behind them. -/
abbrev Outcome := List Token × State

def isBlank (c : Char) : Bool := c = ' ' || c = '\t' || c = '\n' || c = '\x0c'

/-! References. -/

/-- The number of a nonempty string of digits. -/
def number (radix : Nat) (digits : Str) : Option Nat :=
  if digits ≠ [] ∧ digits.all (fun c => (toDigit radix c).isSome) then
    some (bigEndian radix (digits.filterMap (toDigit radix)))
  else none

/-- What the standard makes of the C1 controls: they are taken for windows-1252. -/
def windows1252 : List Char :=
  ['\u20ac', '\u0081', '\u201a', '\u0192', '\u201e', '\u2026', '\u2020', '\u2021',
   '\u02c6', '\u2030', '\u0160', '\u2039', '\u0152', '\u008d', '\u017d', '\u008f',
   '\u0090', '\u2018', '\u2019', '\u201c', '\u201d', '\u2022', '\u2013', '\u2014',
   '\u02dc', '\u2122', '\u0161', '\u203a', '\u0153', '\u009d', '\u017e', '\u0178']

/-- The character of a numeric reference. Zero and what is no character are replaced. -/
def standardNumeric (n : Nat) : Char :=
  if n = 0 ∨ ¬n.isValidChar then '\ufffd'
  else if 0x80 ≤ n then windows1252.getD (n - 0x80) (Char.ofNat n)
  else Char.ofNat n

/-- The entities of the characters that markup is made of. -/
def entities : List (Str × Char) :=
  [("amp", '&'), ("lt", '<'), ("gt", '>'), ("quot", '"'), ("apos", '\'')]

section

variable (numeric : Nat → Char)

/-- What stands between the ampersand and the semicolon. -/
def resolve : Str → Option Char
  | '#' :: 'x' :: digits => (number 16 digits).map numeric
  | '#' :: 'X' :: digits => (number 16 digits).map numeric
  | '#' :: digits => (number 10 digits).map numeric
  | name => entities.lookup name

def isReferenceChar (name : Str) (c : Char) : Bool :=
  asciiAlphabetic c.toNat || c.isDigit || c = '#' && name.isEmpty

/-! The states. -/

def Place.put (place : Place) (s : Str) : List Token × Place :=
  match place with
  | .data => (s.map .character, .data)
  | .value draft name quote front => ([], .value draft name quote (front ++ s))

def stepText (place : Place) (c : Char) : Outcome :=
  let keep : Outcome := ((place.put [c]).1, .text (place.put [c]).2)
  if c = '&' then ([], .reference place [])
  else
    match place with
    | .data => if c = '<' then ([], .tagOpen) else keep
    | .value draft name (some quote) value =>
        if c = quote then ([], .afterValue (draft.addAttribute name value)) else keep
    | .value draft name none value =>
        if isBlank c then ([], .beforeAttributeName (draft.addAttribute name value))
        else if c = '>' then ([(draft.addAttribute name value).token], .text .data)
        else keep

def stepReference (place : Place) (name : Str) (c : Char) : Outcome :=
  if c = ';' then
    let meant := ((resolve numeric name).map ([·])).getD ('&' :: name ++ [';'])
    ((place.put meant).1, .text (place.put meant).2)
  else if isReferenceChar name c then ([], .reference place (name ++ [c]))
  else
    let flushed := place.put ('&' :: name)
    let (tokens, state) := stepText flushed.2 c
    (flushed.1 ++ tokens, state)

/-- A tag is complete. -/
def emit (draft : Draft) : Outcome := ([draft.token], .text .data)

def stepBeforeAttributeName (draft : Draft) (c : Char) : Outcome :=
  if isBlank c then ([], .beforeAttributeName draft)
  else if c = '/' then ([], .selfClosing draft)
  else if c = '>' then emit draft
  else ([], .attributeName draft [c.toLower])

/-- A comment ends at `-->`, any other declaration at `>`. -/
def declarationEnds (text : Str) : Bool :=
  !("--".toList).isPrefixOf text || 4 ≤ text.length && ("--".toList).isSuffixOf text

def step (state : State) (c : Char) : Outcome :=
  match state with
  | .text place => stepText place c
  | .reference place name => stepReference numeric place name c
  | .tagOpen =>
      if c = '!' ∨ c = '?' then ([], .declaration [])
      else if c = '/' then ([], .endTagOpen)
      else if asciiAlphabetic c.toNat then ([], .tagName ⟨false, [c.toLower], []⟩)
      else
        let (tokens, state) := stepText .data c
        (.character '<' :: tokens, state)
  | .endTagOpen =>
      if asciiAlphabetic c.toNat then ([], .tagName ⟨true, [c.toLower], []⟩)
      else if c = '>' then ([], .text .data)
      else ([], .declaration [c])
  | .tagName draft =>
      if isBlank c then ([], .beforeAttributeName draft)
      else if c = '/' then ([], .selfClosing draft)
      else if c = '>' then emit draft
      else ([], .tagName { draft with name := draft.name ++ [c.toLower] })
  | .beforeAttributeName draft => stepBeforeAttributeName draft c
  | .attributeName draft name =>
      if isBlank c then ([], .afterAttributeName draft name)
      else if c = '/' then ([], .selfClosing (draft.addAttribute name []))
      else if c = '>' then emit (draft.addAttribute name [])
      else if c = '=' then ([], .beforeValue draft name)
      else ([], .attributeName draft (name ++ [c.toLower]))
  | .afterAttributeName draft name =>
      if c = '=' then ([], .beforeValue draft name)
      else if isBlank c then ([], .afterAttributeName draft name)
      else stepBeforeAttributeName (draft.addAttribute name []) c
  | .beforeValue draft name =>
      if isBlank c then ([], .beforeValue draft name)
      else if c = '"' ∨ c = '\'' then ([], .text (.value draft name (some c) []))
      else stepText (.value draft name none []) c
  | .afterValue draft => stepBeforeAttributeName draft c
  | .selfClosing draft => if c = '>' then emit draft else stepBeforeAttributeName draft c
  | .declaration text =>
      if c = '>' ∧ declarationEnds text then ([.declaration text], .text .data)
      else ([], .declaration (text ++ [c]))

def run (state : State) : Str → Outcome
  | [] => ([], state)
  | c :: rest =>
      let (tokens, next) := step numeric state c
      let (others, last) := run next rest
      (tokens ++ others, last)

/-- The end of the text. A tag that is not complete is dropped. -/
def finish : State → List Token
  | .reference place name => (place.put ('&' :: name)).1
  | .tagOpen => [.character '<']
  | .endTagOpen => [.character '<', .character '/']
  | .declaration text => [.declaration text]
  | _ => []

def tokenize (text : Str) : List Token :=
  (run numeric (.text .data) text).1 ++ finish (run numeric (.text .data) text).2

/-! Runs. -/

variable {numeric}

theorem run_append (state : State) (s t : Str) :
    run numeric state (s ++ t) =
      ((run numeric state s).1 ++ (run numeric (run numeric state s).2 t).1,
        (run numeric (run numeric state s).2 t).2) := by
  induction s generalizing state with
  | nil => rfl
  | cons c s ih =>
      rw [List.cons_append]
      simp only [run, ih, List.append_assoc]

/-- A text that is read as given, and one behind it. -/
theorem run_append_of_eq {state mid last : State} {s t : Str} {tokens others : List Token}
    (hFirst : run numeric state s = (tokens, mid)) (hSecond : run numeric mid t = (others, last)) :
    run numeric state (s ++ t) = (tokens ++ others, last) := by
  rw [run_append, hFirst, hSecond]

theorem Place.put_append (place : Place) (s t : Str) :
    place.put (s ++ t) = ((place.put s).1 ++ ((place.put s).2.put t).1, ((place.put s).2.put t).2) := by
  cases place with
  | data => simp [Place.put]
  | value draft name quote front => simp [Place.put]

/-- The name of a reference is gathered. -/
theorem run_reference (place : Place) (name more : Str)
    (h : ∀ c ∈ more, asciiAlphabetic c.toNat = true ∨ c.isDigit = true) :
    run numeric (.reference place name) more = ([], .reference place (name ++ more)) := by
  induction more generalizing name with
  | nil => rw [run, List.append_nil]
  | cons c more ih =>
      have hName : isReferenceChar name c = true := by
        rw [isReferenceChar, Bool.or_eq_true, Bool.or_eq_true]
        exact Or.inl (h c List.mem_cons_self)
      have hSemicolon : c ≠ ';' := by
        rintro rfl
        exact absurd (h ';' List.mem_cons_self) (by decide)
      have hRest := ih (name ++ [c]) fun d hd => h d (List.mem_cons_of_mem c hd)
      simp only [run, step, stepReference, if_neg hSemicolon, hName, if_true, hRest]
      rw [List.append_assoc]
      rfl

end

end Html
