import Eggserve.Static.Path.Decode

/-! Component splitting, slash normalization and per-component validation.
Normalization keeps dot segments: the validator alone refuses them, so the
two are always used together. The platform hazards are refused everywhere,
not only on Windows. -/
namespace Eggserve.Static
open Rust

/-- Whether dotfile components are admitted while a target is parsed. -/
inductive DotfilePolicy where
  | denied
  | allow
  deriving DecidableEq, Repr

structure PathPolicy where
  dotfiles : DotfilePolicy := .denied
  rejectBackslash : Bool := true
  deriving DecidableEq, Repr

/-- A single ASCII letter followed by a colon. -/
def hasWindowsDrivePrefix (component : Str) : Bool :=
  match utf8 component with
  | first :: second :: _ => asciiAlphabetic first.toNat && second = 0x3a
  | _ => false

def reservedNames : List Str :=
  ["CON", "PRN", "AUX", "NUL",
    "COM1", "COM2", "COM3", "COM4", "COM5", "COM6", "COM7", "COM8", "COM9",
    "LPT1", "LPT2", "LPT3", "LPT4", "LPT5", "LPT6", "LPT7", "LPT8", "LPT9"]

def stripTrailingDots (s : Str) : Str := s.rdropWhile (· = '.')

/-- The comparison is case-insensitive and looks at the name before the first dot. -/
def isWindowsReservedName (component : Str) : Bool :=
  let base := (component.splitOn '.').headD []
  let name := stripTrailingDots base
  if name.isEmpty then false
  else decide (name.map Char.toUpper ∈ reservedNames)

def checkComponent (component : Str) : Except PathRejection Unit := do
  failIf (hasWindowsDrivePrefix component) .windowsPrefixDenied
  failIf (':' ∈ component) .windowsAlternateStreamDenied
  failIf (isWindowsReservedName component) .windowsReservedNameDenied
  failIf (component.getLast? = some '.' ∨ component.getLast? = some ' ') .windowsReservedNameDenied

/-- Refuse a component whose further decoding is a dot segment. The decoder
runs only when an escape is left, and its failures do not matter here. -/
def checkSecondDecode (component : Str) : Except PathRejection Unit :=
  if '%' ∈ component then
    match percentDecode component with
    | .ok decoded => do
        failIf (decoded = ".") .currentComponent
        failIf (decoded = "..") .parentComponent
    | .error _ => .ok ()
  else .ok ()

/-- The body of the loop of `validate_components`. -/
def validateComponent (policy : PathPolicy) (component : Str) : Except PathRejection Unit := do
  failIf (component.isEmpty) .empty
  failIf ('\x00' ∈ component) .nulByte
  failIf (component.any fun c => asciiControl c.toNat) .controlCharacter
  failIf ('/' ∈ component) .separatorAmbiguity
  failIf (component = ".") .currentComponent
  failIf (component = "..") .parentComponent
  failIf (policy.rejectBackslash ∧ '\\' ∈ component) .separatorAmbiguity
  failIf (policy.dotfiles = .denied ∧ component.head? = some '.') .dotfileDenied
  checkSecondDecode component
  checkComponent component

def validateComponents (components : List Str) (policy : PathPolicy) :
    Except PathRejection Unit :=
  forM components (validateComponent policy)

/-- The non-empty components of a path; empty segments are dropped. -/
def splitComponents (path : Str) : List Str :=
  (path.splitOn '/').filter (fun segment => !segment.isEmpty)

/-- The loop of `normalize_path`; the flag is `prev_was_slash`. -/
def collapseSlashes : Bool → Str → Str
  | _, [] => []
  | prevWasSlash, c :: rest =>
      if c = '/' then
        if prevWasSlash then collapseSlashes true rest
        else '/' :: collapseSlashes true rest
      else c :: collapseSlashes false rest

/-- Collapse duplicate slashes and strip leading slashes. Dot segments survive. -/
def normalizePath (path : Str) : Str :=
  if path = "/" then []
  else collapseSlashes false (path.dropWhile (· = '/'))

/-- What every component of a confined path is. -/
structure ConfinedComponent (policy : PathPolicy) (component : Str) : Prop where
  nonempty : component ≠ []
  no_nul : '\x00' ∉ component
  no_control : ∀ c ∈ component, asciiControl c.toNat = false
  no_slash : '/' ∉ component
  not_current : component ≠ "."
  not_parent : component ≠ ".."
  not_encoded_current : percentDecode component ≠ .ok "."
  not_encoded_parent : percentDecode component ≠ .ok ".."
  no_colon : ':' ∉ component
  not_reserved : (component.takeWhile (· ≠ '.')).map Char.toUpper ∉ reservedNames
  no_trailing_dot : component.getLast? ≠ some '.'
  no_trailing_space : component.getLast? ≠ some ' '
  no_backslash : policy.rejectBackslash = true → '\\' ∉ component
  no_dotfile : policy.dotfiles = .denied → component.head? ≠ some '.'

theorem headD_splitOn (c : Char) (s : Str) :
    (s.splitOn c).headD [] = s.takeWhile (· ≠ c) := by
  induction s with
  | nil => rfl
  | cons d rest ih =>
      rw [List.splitOn_cons_eq_if_modifyHead]
      by_cases h : d = c
      · simp [h]
      · cases hs : rest.splitOn c with
        | nil => simp at hs
        | cons first others =>
            rw [hs] at ih
            simpa [h] using ih

/-- The base name has no dot of its own, so stripping dots does nothing to it. -/
theorem isWindowsReservedName_eq (component : Str) :
    isWindowsReservedName component =
      decide ((component.takeWhile (· ≠ '.')).map Char.toUpper ∈ reservedNames) := by
  have hStrip : stripTrailingDots (component.takeWhile (· ≠ '.')) =
      component.takeWhile (· ≠ '.') := by
    rw [stripTrailingDots, List.rdropWhile_eq_self_iff]
    intro hne hLast
    have hMem := List.mem_takeWhile_imp (List.getLast_mem hne)
    simp_all
  rw [isWindowsReservedName]
  simp only [headD_splitOn, hStrip]
  cases h : component.takeWhile (· ≠ '.') with
  | nil => decide
  | cons c rest => simp

theorem colon_mem_of_hasWindowsDrivePrefix {component : Str}
    (h : hasWindowsDrivePrefix component = true) : ':' ∈ component := by
  rw [hasWindowsDrivePrefix] at h
  split at h
  · rename_i first second rest hBytes
    simp only [Bool.and_eq_true, decide_eq_true_eq] at h
    have hMem : (0x3a : UInt8) ∈ utf8 component := by simp [hBytes, h.2]
    obtain ⟨c, hc, hCode⟩ := (mem_utf8_ascii (by decide)).mp hMem
    rwa [char_eq_of_toNat (d := ':') hCode] at hc
  · exact absurd h Bool.false_ne_true

theorem checkComponent_eq_ok {component : Str} :
    checkComponent component = .ok () ↔
      ':' ∉ component ∧ (component.takeWhile (· ≠ '.')).map Char.toUpper ∉ reservedNames ∧
        component.getLast? ≠ some '.' ∧ component.getLast? ≠ some ' ' := by
  simp only [checkComponent, check_bind_eq_ok, failIf_eq_ok, isWindowsReservedName_eq,
    decide_eq_true_eq, not_or]
  constructor
  · rintro ⟨_, hColon, hReserved, hLast⟩
    exact ⟨hColon, hReserved, hLast⟩
  · rintro ⟨hColon, hReserved, hLast⟩
    exact ⟨fun h => hColon (colon_mem_of_hasWindowsDrivePrefix h), hColon, hReserved, hLast⟩

/-- Skipping the decoder when no escape is left changes nothing: such a
component decodes to itself or not at all. -/
theorem checkSecondDecode_eq_ok {component : Str} (hCurrent : component ≠ ".")
    (hParent : component ≠ "..") :
    checkSecondDecode component = .ok () ↔
      percentDecode component ≠ .ok "." ∧ percentDecode component ≠ .ok ".." := by
  by_cases hPercent : '%' ∈ component
  · cases hDecode : percentDecode component with
    | error e => simp [checkSecondDecode, hPercent, hDecode]
    | ok decoded => simp [checkSecondDecode, hPercent, hDecode, check_bind_eq_ok]
  · simp only [checkSecondDecode, hPercent, ↓reduceIte, true_iff, ne_eq,
      percentDecode_of_no_percent hPercent, not_and]
    exact ⟨fun h => absurd h.symm hCurrent, fun h => absurd h.symm hParent⟩

/-- The eight rules of the validator, no more and no fewer. -/
theorem validateComponent_eq_ok {policy : PathPolicy} {component : Str} :
    validateComponent policy component = .ok () ↔ ConfinedComponent policy component := by
  simp only [validateComponent, check_bind_eq_ok, failIf_eq_ok, checkComponent_eq_ok]
  constructor
  · rintro ⟨hEmpty, hNul, hControl, hSlash, hCurrent, hParent, hBackslash, hDotfile, hSecond,
      hColon, hReserved, hDot, hSpace⟩
    obtain ⟨hEncodedCurrent, hEncodedParent⟩ :=
      (checkSecondDecode_eq_ok hCurrent hParent).mp hSecond
    exact {
      nonempty := by simpa using hEmpty
      no_nul := hNul
      no_control := by simpa using hControl
      no_slash := hSlash
      not_current := hCurrent
      not_parent := hParent
      not_encoded_current := hEncodedCurrent
      not_encoded_parent := hEncodedParent
      no_colon := hColon
      not_reserved := hReserved
      no_trailing_dot := hDot
      no_trailing_space := hSpace
      no_backslash := fun hPolicy hMem => hBackslash ⟨hPolicy, hMem⟩
      no_dotfile := fun hPolicy hHead => hDotfile ⟨hPolicy, hHead⟩ }
  · intro h
    refine ⟨by simpa using h.nonempty, h.no_nul, by simpa using h.no_control, h.no_slash,
      h.not_current, h.not_parent, fun hb => h.no_backslash hb.1 hb.2,
      fun hd => h.no_dotfile hd.1 hd.2, ?_, h.no_colon, h.not_reserved, h.no_trailing_dot,
      h.no_trailing_space⟩
    exact (checkSecondDecode_eq_ok h.not_current h.not_parent).mpr
      ⟨h.not_encoded_current, h.not_encoded_parent⟩

theorem validateComponents_eq_ok {policy : PathPolicy} {components : List Str} :
    validateComponents components policy = .ok () ↔
      ∀ component ∈ components, ConfinedComponent policy component := by
  rw [validateComponents, forM_eq_ok]
  exact forall₂_congr fun _ _ => validateComponent_eq_ok

/-! Splitting and normalization. -/

/-- A leading slash only adds an empty segment, which is dropped. -/
@[simp] theorem splitComponents_cons_slash (path : Str) :
    splitComponents ('/' :: path) = splitComponents path := by
  simp [splitComponents, List.splitOn_cons_eq_if_modifyHead]

theorem not_infix_tail {c : Char} {path : Str} (h : ¬['/', '/'] <:+: c :: path) :
    ¬['/', '/'] <:+: path :=
  fun hInfix => h (List.infix_cons hInfix)

theorem head_ne_of_not_infix {path : Str} (h : ¬['/', '/'] <:+: '/' :: path) :
    path.head? ≠ some '/' := by
  intro hHead
  obtain ⟨rest, rfl⟩ := List.head?_eq_some_iff.mp hHead
  exact h (List.IsPrefix.isInfix ⟨rest, rfl⟩)

/-- Text without a doubled slash is left alone by the collapsing loop. The flag
matters only for the first character. -/
theorem collapseSlashes_eq_self {prevWasSlash : Bool} {path : Str}
    (hHead : prevWasSlash = true → path.head? ≠ some '/') (h : ¬['/', '/'] <:+: path) :
    collapseSlashes prevWasSlash path = path := by
  induction path generalizing prevWasSlash with
  | nil => rfl
  | cons c rest ih =>
      rw [collapseSlashes]
      by_cases hc : c = '/'
      · subst hc
        have hFlag : prevWasSlash = false := by
          cases prevWasSlash with
          | false => rfl
          | true => exact absurd rfl (hHead rfl)
        simp only [hFlag, ↓reduceIte, Bool.false_eq_true]
        rw [ih (fun _ => head_ne_of_not_infix h) (not_infix_tail h)]
      · simp only [hc, ↓reduceIte]
        rw [ih (fun hFlag => absurd hFlag Bool.false_ne_true) (not_infix_tail h)]

/-- The collapsing loop leaves no doubled slash, nor a first slash after a slash. -/
theorem collapseSlashes_spec (prevWasSlash : Bool) (path : Str) :
    ¬['/', '/'] <:+: collapseSlashes prevWasSlash path ∧
      (prevWasSlash = true → (collapseSlashes prevWasSlash path).head? ≠ some '/') := by
  induction path generalizing prevWasSlash with
  | nil => simp [collapseSlashes]
  | cons c rest ih =>
      rw [collapseSlashes]
      by_cases hc : c = '/'
      · obtain ⟨hInfix, hHead⟩ := ih true
        cases prevWasSlash with
        | true => simpa [hc] using ⟨hInfix, hHead rfl⟩
        | false =>
            simp only [hc, ↓reduceIte, Bool.false_eq_true, false_implies, and_true]
            rw [List.infix_cons_iff, not_or]
            refine ⟨?_, hInfix⟩
            rintro ⟨tail, hTail⟩
            apply hHead rfl
            rw [← (List.cons.inj hTail).2]
            rfl
      · obtain ⟨hInfix, _⟩ := ih false
        simp only [hc, ↓reduceIte, List.head?_cons, Option.some.injEq, ne_eq, not_false_eq_true,
          implies_true, and_true]
        rw [List.infix_cons_iff, not_or]
        refine ⟨?_, hInfix⟩
        rintro ⟨tail, hTail⟩
        exact hc (List.cons.inj hTail).1.symm

theorem head_collapseSlashes (path : Str) : (collapseSlashes false path).head? = path.head? := by
  cases path with
  | nil => rfl
  | cons c rest => by_cases hc : c = '/' <;> simp [collapseSlashes, hc]

/-- A normalized path may be rooted again without creating a doubled slash. -/
theorem not_infix_cons_normalizePath (path : Str) : ¬['/', '/'] <:+: '/' :: normalizePath path := by
  rw [normalizePath]
  split_ifs with hRoot
  · decide
  · rw [List.infix_cons_iff, not_or]
    refine ⟨?_, (collapseSlashes_spec false _).1⟩
    rintro ⟨tail, hTail⟩
    have hHead : (collapseSlashes false (path.dropWhile (· = '/'))).head? = some '/' := by
      rw [← (List.cons.inj hTail).2]
      rfl
    rw [head_collapseSlashes] at hHead
    have hStop := List.head?_dropWhile_not (· = '/') path
    simp [hHead] at hStop

/-- On a rooted path without doubled slashes, normalization only drops the root. -/
theorem normalizePath_cons_slash {path : Str} (h : ¬['/', '/'] <:+: '/' :: path) :
    normalizePath ('/' :: path) = path := by
  have hHead := head_ne_of_not_infix h
  have hDrop : path.dropWhile (· = '/') = path := by
    cases path with
    | nil => rfl
    | cons c rest => exact List.dropWhile_cons_of_neg (by simpa using hHead)
  rw [normalizePath]
  split_ifs with hRoot
  · simpa using hRoot.symm
  · rw [List.dropWhile_cons_of_pos (by simp), hDrop]
    exact collapseSlashes_eq_self (fun hFlag => absurd hFlag Bool.false_ne_true) (not_infix_tail h)

theorem collapseSlashes_sublist (prevWasSlash : Bool) (path : Str) :
    (collapseSlashes prevWasSlash path).Sublist path := by
  induction path generalizing prevWasSlash with
  | nil => exact List.Sublist.refl _
  | cons c rest ih =>
      rw [collapseSlashes]
      split_ifs with hc hPrev
      · exact (ih true).cons c
      · rw [hc]
        exact (ih true).cons_cons '/'
      · exact (ih false).cons_cons c

theorem normalizePath_sublist_of_slash (path : Str) :
    (normalizePath ('/' :: path)).Sublist path := by
  rw [normalizePath]
  split_ifs
  · exact List.nil_sublist _
  · rw [List.dropWhile_cons_of_pos (by simp)]
    exact (collapseSlashes_sublist false _).trans (List.dropWhile_sublist _)

end Eggserve.Static
