import Eggserve.Primitives.ResponseStream
import Eggserve.Rust.Distinct
import Eggserve.Rust.Split

/-! The names announced with the head: how a declaration is built, and its text in the `Trailer`
field. -/
namespace Eggserve.Primitives
open Rust

/-- The errors of a declaration: those of a block, and two that a block cannot have. -/
inductive TrailerDeclarationError where
  | invalidHeader (error : HeaderError)
  | validation (error : TrailerValidationError)
  | invalidLimits (message : Str)
  deriving DecidableEq

def nonEmptyMessage : Str := "trailer declaration must be non-empty"

def maxTrailerFields : Nat := 32

def maxTrailerBytes : Nat := 8 * 1024

namespace TrailerDeclaration

/-- The loop of `validate_names`: the lowered names seen so far, the names that stay, and their
bytes. -/
def collectNames (seen : List Str) (unique : List HeaderName) (bytes : Nat) :
    List HeaderName → Except TrailerDeclarationError (List HeaderName × Nat)
  | [] => .ok (unique, bytes)
  | name :: rest => do
      let lower := name.text.map Char.toLower
      failIf (isForbiddenTrailerField lower = true) (.validation (.forbiddenField lower))
      if lower ∈ seen then collectNames seen unique bytes rest
      else
        collectNames (lower :: seen) (unique ++ [name])
          (saturatingAdd bytes (utf8 name.text).length) rest

theorem isForbiddenTrailerField_lower (name : Str) :
    isForbiddenTrailerField (name.map Char.toLower) = isForbiddenTrailerField name := by
  have hLower : (name.map Char.toLower).map Char.toLower = name.map Char.toLower := by
    rw [List.map_map]
    exact congrArg (name.map ·) (funext toLower_toLower)
  rw [isForbiddenTrailerField, hLower, ← isForbiddenTrailerField]

/-- The names that stay of those not seen before. -/
def fresh (seen : List Str) (names : List HeaderName) : List HeaderName :=
  (names.filter fun name => decide (name.text.map Char.toLower ∈ seen) = false).eraseDupsBy
    fun a b => a.is b.text

def nameBytes (names : List HeaderName) : List Nat := names.map fun name => (utf8 name.text).length

theorem fresh_cons (seen : List Str) (name : HeaderName) (names : List HeaderName) :
    fresh seen (name :: names) =
      if name.text.map Char.toLower ∈ seen then fresh seen names
      else name :: fresh (name.text.map Char.toLower :: seen) names := by
  have hSeen : (fun other : HeaderName =>
      decide ((decide (other.text.map Char.toLower ∈ seen) || other.is name.text) = false)) =
        fun other => decide (decide
          (other.text.map Char.toLower ∈ name.text.map Char.toLower :: seen) = false) := by
    funext other
    simp [HeaderName.is, eqIgnoreAsciiCase, and_comm]
  have hStep := @eraseDupsBy_filter_cons _ (fun a b : HeaderName => a.is b.text)
    (fun other => decide (other.text.map Char.toLower ∈ seen)) name names
  rw [hSeen] at hStep
  simp only [decide_eq_true_eq] at hStep
  exact hStep

theorem collectNames_eq_ok {names : List HeaderName} {seen : List Str} {unique : List HeaderName}
    {bytes : Nat} {result : List HeaderName × Nat} :
    collectNames seen unique bytes names = .ok result ↔
      (∀ name ∈ names, isForbiddenTrailerField name.text = false) ∧
        result = (unique ++ fresh seen names,
          (nameBytes (fresh seen names)).foldl saturatingAdd bytes) := by
  induction names generalizing seen unique bytes with
  | nil =>
      rw [collectNames, Except.ok.injEq, eq_comm]
      simp [fresh, nameBytes]
  | cons name names ih =>
      rw [collectNames, check_bind_eq_ok, failIf_eq_ok, isForbiddenTrailerField_lower, fresh_cons,
        List.forall_mem_cons, Bool.not_eq_true, and_assoc]
      refine and_congr_right fun _ => ?_
      split_ifs with hSeen
      · exact ih
      · rw [ih]
        simp [nameBytes]

theorem fresh_nil (names : List HeaderName) :
    fresh [] names = names.eraseDupsBy fun a b => a.is b.text := by
  rw [fresh, List.filter_eq_self.mpr (by simp)]

/-- A sum that saturates stays within a limit exactly when the sum does. -/
theorem foldl_saturatingAdd_le {limit : Nat} (hLimit : limit < u64Max) (lengths : List Nat)
    (bytes : Nat) : lengths.foldl saturatingAdd bytes ≤ limit ↔ bytes + lengths.sum ≤ limit := by
  induction lengths generalizing bytes with
  | nil => rw [List.foldl_nil, List.sum_nil, Nat.add_zero]
  | cons length lengths ih =>
      rw [List.foldl_cons, ih, saturatingAdd, List.sum_cons]
      omega

theorem eraseDupsBy_ne_nil {names : List HeaderName} (h : names ≠ []) :
    names.eraseDupsBy (fun a b => a.is b.text) ≠ [] := by
  cases names with
  | nil => exact absurd rfl h
  | cons name names =>
      rw [List.eraseDupsBy_cons]
      exact List.cons_ne_nil _ _

theorem mem_of_collectNames {names : List HeaderName} {result : List HeaderName × Nat}
    (h : collectNames [] [] 0 names = .ok result) :
    (names ≠ [] → result.1 ≠ []) ∧
      ∀ name ∈ result.1, isForbiddenTrailerField name.text = false := by
  obtain ⟨hAllowed, rfl⟩ := collectNames_eq_ok.mp h
  dsimp only
  rw [List.nil_append, fresh_nil]
  exact ⟨eraseDupsBy_ne_nil, fun name hName => hAllowed name ((eraseDupsBy_sublist _).subset hName)⟩

def validateNames (names : List HeaderName) :
    Except TrailerDeclarationError TrailerDeclaration :=
  if hEmpty : names = [] then .error (.invalidLimits nonEmptyMessage)
  else
    match h : collectNames [] [] 0 names with
    | .error e => .error e
    | .ok (unique, bytes) =>
        if unique.length > maxTrailerFields then
          .error (.validation (.tooManyFields unique.length maxTrailerFields))
        else if bytes > maxTrailerBytes then
          .error (.validation (.tooLarge bytes maxTrailerBytes))
        else .ok ⟨unique, (mem_of_collectNames h).1 hEmpty, (mem_of_collectNames h).2⟩

/-! The constructors. -/

def new (names : List HeaderName) : Except TrailerDeclarationError TrailerDeclaration :=
  validateNames names

/-- The body of the loop of `from_names`. -/
def parseName (raw : Str) : Except TrailerDeclarationError HeaderName := do
  let text := trim raw
  failIf (text = []) (.invalidLimits nonEmptyMessage)
  (HeaderName.new text).mapError .invalidHeader

def fromNames (names : List Str) : Except TrailerDeclarationError TrailerDeclaration := do
  let parsed ← names.mapM parseName
  validateNames parsed

def parseHeaderValue (value : Str) : Except TrailerDeclarationError TrailerDeclaration := do
  let parts := ((value.splitOn ',').map trim).filter fun part => !part.isEmpty
  failIf (parts = []) (.invalidLimits nonEmptyMessage)
  fromNames parts

/-- The text of the `Trailer` field. -/
def headerValue (declaration : TrailerDeclaration) : Str :=
  List.intercalate (", " : Str) (declaration.names.map (·.text))

/-- There is no other way to a declaration. -/
inductive Built (declaration : TrailerDeclaration) : Prop where
  | new (names : List HeaderName) (h : new names = .ok declaration)
  | fromNames (names : List Str) (h : fromNames names = .ok declaration)
  | parseHeaderValue (value : Str) (h : parseHeaderValue value = .ok declaration)

/-! What validation accepts. -/

theorem validateNames_eq_ok {names : List HeaderName} {declaration : TrailerDeclaration} :
    validateNames names = .ok declaration ↔
      names ≠ [] ∧ (∀ name ∈ names, isForbiddenTrailerField name.text = false) ∧
        declaration.names = names.eraseDupsBy (fun a b => a.is b.text) ∧
        declaration.names.length ≤ maxTrailerFields ∧
        (nameBytes declaration.names).sum ≤ maxTrailerBytes := by
  have hBytes := @foldl_saturatingAdd_le maxTrailerBytes (by decide)
    (nameBytes (names.eraseDupsBy fun a b => a.is b.text)) 0
  rw [Nat.zero_add] at hBytes
  unfold validateNames
  split_ifs with hEmpty
  · simp [hEmpty]
  · split
    · rename_i e hCollect
      refine ⟨nofun, fun ⟨_, hAllowed, _⟩ => ?_⟩
      rw [collectNames_eq_ok.mpr ⟨hAllowed, rfl⟩] at hCollect
      cases hCollect
    · rename_i unique bytes hCollect
      obtain ⟨hAllowed, hResult⟩ := collectNames_eq_ok.mp hCollect
      rw [List.nil_append, fresh_nil] at hResult
      obtain ⟨rfl, rfl⟩ := Prod.mk.inj hResult
      obtain ⟨kept, hKept, hFree⟩ := declaration
      split_ifs with hCount hSize
      · refine ⟨nofun, ?_⟩
        rintro ⟨-, -, rfl, hLe, -⟩
        exact absurd hLe (Nat.not_le.mpr hCount)
      · refine ⟨nofun, ?_⟩
        rintro ⟨-, -, rfl, -, hLe⟩
        exact absurd (hBytes.mpr hLe) (Nat.not_le.mpr hSize)
      · rw [Except.ok.injEq, TrailerDeclaration.mk.injEq]
        constructor
        · rintro rfl
          exact ⟨hEmpty, hAllowed, rfl, Nat.not_lt.mp hCount, hBytes.mp (Nat.not_lt.mp hSize)⟩
        · exact fun h => h.2.2.1.symm

theorem Built.valid {declaration : TrailerDeclaration} (h : Built declaration) :
    ∃ names, validateNames names = .ok declaration := by
  have hFromNames {names : List Str} (h : TrailerDeclaration.fromNames names = .ok declaration) :
      ∃ names, validateNames names = .ok declaration := by
    obtain ⟨parsed, -, hValid⟩ := bind_eq_ok.mp h
    exact ⟨parsed, hValid⟩
  cases h with
  | new names h => exact ⟨names, h⟩
  | fromNames names h => exact hFromNames h
  | parseHeaderValue value h => exact hFromNames (check_bind_eq_ok.mp h).2

/-- What holds of every declaration that was built. -/
structure Bounded (declaration : TrailerDeclaration) : Prop where
  distinct : declaration.names.Pairwise fun a b => a.is b.text = false
  allowed : ∀ name ∈ declaration.names, isForbiddenTrailerField name.text = false
  count : declaration.names.length ≤ 32
  bytes : (declaration.names.map fun name => (utf8 name.text).length).sum ≤ 8 * 1024

theorem is_comm (a b : HeaderName) : a.is b.text = b.is a.text := eqIgnoreAsciiCase_comm _ _

theorem Built.bounded {declaration : TrailerDeclaration} (h : Built declaration) :
    Bounded declaration := by
  obtain ⟨names, hNames⟩ := h.valid
  obtain ⟨-, -, hKept, hCount, hBytes⟩ := validateNames_eq_ok.mp hNames
  refine ⟨?_, declaration.allowed, hCount, hBytes⟩
  rw [hKept]
  exact (pairwise_eraseDupsBy names).imp fun {a b} hDistinct => by rwa [is_comm]

/-- A declaration is built again from its own names. -/
theorem Bounded.validateNames_names {declaration : TrailerDeclaration} (h : Bounded declaration) :
    validateNames declaration.names = .ok declaration := by
  refine validateNames_eq_ok.mpr ⟨declaration.nonempty, declaration.allowed, ?_, h.count, h.bytes⟩
  exact (eraseDupsBy_of_pairwise (h.distinct.imp fun {a b} hDistinct => by rwa [is_comm])).symm

/-! The text of a declaration. -/

theorem free_of_token_ascii : ∀ n < 128, isTokenByte (UInt8.ofNat n) = true →
    isWhitespace (Char.ofNat n) = false ∧ Char.ofNat n ≠ ',' := by
  decide

theorem free_of_mem {name : HeaderName} {c : Char} (h : c ∈ name.text) :
    isWhitespace c = false ∧ c ≠ ',' := by
  obtain ⟨hAscii, hToken⟩ := name.isTokenByte_of_mem h
  have hFree := free_of_token_ascii c.toNat hAscii hToken
  rwa [Char.ofNat_toNat] at hFree

theorem trim_name (name : HeaderName) : trim name.text = name.text :=
  trim_of_no_blank fun _ hc => (free_of_mem hc).1

theorem parseName_text (name : HeaderName) : parseName name.text = .ok name := by
  rw [parseName, trim_name]
  exact check_bind_eq_ok.mpr
    ⟨failIf_eq_ok.mpr name.valid.1, mapError_eq_ok.mpr name.new_text⟩

theorem intercalate_comma_blank (first : Str) (others : List Str) :
    List.intercalate (", " : Str) (first :: others) =
      List.intercalate [','] (first :: others.map fun part => ' ' :: part) := by
  have hLiteral : (", " : Str) = [',', ' '] := rfl
  rw [hLiteral]
  induction others generalizing first with
  | nil => rfl
  | cons second others ih =>
      have hBlank (back : List Str) : List.intercalate [','] ((' ' :: second) :: back) =
          ' ' :: List.intercalate [','] (second :: back) := by
        cases back with
        | nil => simp
        | cons part back => simp only [List.intercalate_cons_cons, List.cons_append]
      rw [List.intercalate_cons_cons, ih, List.map_cons, List.intercalate_cons_cons, hBlank]
      simp only [List.append_assoc, List.cons_append, List.nil_append]

/-- The pieces between the commas are the names, behind a blank each but the first. -/
theorem splitOn_headerValue (declaration : TrailerDeclaration) :
    (declaration.headerValue.splitOn ',').map trim = declaration.names.map (·.text) := by
  have hNonempty := declaration.nonempty
  rw [headerValue]
  generalize declaration.names = names at hNonempty
  cases names with
  | nil => exact absurd rfl hNonempty
  | cons name names =>
      have hComma : ∀ part ∈ name.text :: (names.map (·.text)).map (fun part => ' ' :: part),
          ',' ∉ part := by
        refine List.forall_mem_cons.mpr ⟨fun hMem => (free_of_mem hMem).2 rfl, ?_⟩
        rw [List.map_map, List.forall_mem_map]
        intro other _ hMem
        rcases List.mem_cons.mp hMem with hBlank | hMem
        · exact absurd hBlank (by decide)
        · exact (free_of_mem hMem).2 rfl
      have hTrim (other : HeaderName) : trim (' ' :: other.text) = other.text :=
        (@trim_blank_append [' '] other.text (by decide)).trans (trim_name other)
      rw [List.map_cons, intercalate_comma_blank,
        List.splitOn_intercalate ',' hComma (List.cons_ne_nil _ _), List.map_cons, List.map_map,
        List.map_map, trim_name]
      exact congrArg (name.text :: ·) (List.map_congr_left fun other _ => hTrim other)

/-- The text of a declaration is read as the declaration. -/
theorem Bounded.parse_headerValue {declaration : TrailerDeclaration} (h : Bounded declaration) :
    parseHeaderValue declaration.headerValue = .ok declaration := by
  have hParsed : (declaration.names.map (·.text)).mapM parseName = .ok declaration.names := by
    refine mapM_eq_ok.mpr ?_
    rw [List.forall₂_map_left_iff, List.forall₂_same]
    exact fun name _ => parseName_text name
  have hNonempty : declaration.names.map (·.text) ≠ [] :=
    fun hNil => declaration.nonempty (List.map_eq_nil_iff.mp hNil)
  have hNamed : (declaration.names.map (·.text)).filter (fun part => !part.isEmpty) =
      declaration.names.map (·.text) := by
    rw [List.filter_eq_self, List.forall_mem_map]
    intro name _
    simpa using name.valid.1
  rw [parseHeaderValue, splitOn_headerValue, hNamed]
  exact check_bind_eq_ok.mpr ⟨failIf_eq_ok.mpr hNonempty,
    bind_eq_ok.mpr ⟨_, hParsed, h.validateNames_names⟩⟩

/-- Of names that differ in case only, the first stays. -/
theorem names_of_fromNames {names : List Str} {declaration : TrailerDeclaration}
    (h : TrailerDeclaration.fromNames names = .ok declaration) :
    declaration.names.map (·.text) = (names.map trim).eraseDupsBy eqIgnoreAsciiCase := by
  obtain ⟨parsed, hParsed, hValid⟩ := bind_eq_ok.mp h
  have hTexts : names.map trim = parsed.map (·.text) := by
    have hItems := mapM_eq_ok.mp hParsed
    clear hParsed hValid h
    induction hItems with
    | nil => rfl
    | @cons raw name names parsed hName _ ih =>
        have hText := HeaderName.text_of_new (mapError_eq_ok.mp (check_bind_eq_ok.mp hName).2)
        rw [List.map_cons, List.map_cons, ih, hText]
  rw [hTexts, eraseDupsBy_map, (validateNames_eq_ok.mp hValid).2.2.1]
  rfl

end TrailerDeclaration

end Eggserve.Primitives
