import Eggserve.Primitives.RequestHead

/-! The accessors of a request target slice it at its offsets. Both constructors place the
offsets around the path and the query of the same text. -/
namespace Eggserve.Primitives
open Rust

namespace RequestTarget

/-- `path()`. -/
def pathSlice (target : RequestTarget) : MayPanic Str :=
  slice target.raw target.pathStart target.pathEnd

/-- `query()`. -/
def querySlice (target : RequestTarget) : MayPanic (Option Str) :=
  match target.queryStart with
  | none => some none
  | some start => (slice target.raw start (utf8 target.raw).length).map some

/-- `path_and_query()`. -/
def pathAndQuerySlice (target : RequestTarget) : MayPanic Str :=
  slice target.raw target.pathStart (utf8 target.raw).length

/-- The part behind the first mark. An empty one is none. -/
def queryOf (text : Str) : Option Str :=
  if (text.dropWhile (· ≠ '?')).tail = [] then none else some (text.dropWhile (· ≠ '?')).tail

/-- The offsets stand around the parts of a text that is the end of the target. -/
structure Locates (target : RequestTarget) (front text : Str) : Prop where
  raw : target.raw = front ++ text
  start : target.pathStart = (utf8 front).length
  stop : target.pathEnd = (utf8 front).length + (utf8 (text.takeWhile (· ≠ '?'))).length
  query : target.queryStart =
    if target.pathEnd < (utf8 target.raw).length ∧ target.pathEnd + 1 < (utf8 target.raw).length then
      some (target.pathEnd + 1)
    else none

/-- What the accessors give of a text. -/
structure Reads (target : RequestTarget) (text : Str) : Prop where
  path : target.pathSlice = some (text.takeWhile (· ≠ '?'))
  query : target.querySlice = some (queryOf text)
  pathAndQuery : target.pathAndQuerySlice = some text

/-- A text is its path, with nothing, a mark, or a mark and the query behind it. -/
theorem split_text (text : Str) :
    text = text.takeWhile (· ≠ '?') ∧ queryOf text = none ∨
      text = text.takeWhile (· ≠ '?') ++ ['?'] ∧ queryOf text = none ∨
        ∃ query, queryOf text = some query ∧ text = text.takeWhile (· ≠ '?') ++ '?' :: query := by
  have hSplit := List.takeWhile_append_dropWhile (p := (· ≠ '?')) (l := text)
  unfold queryOf
  cases hRest : text.dropWhile (· ≠ '?') with
  | nil =>
      rw [hRest, List.append_nil] at hSplit
      exact Or.inl ⟨hSplit.symm, if_pos rfl⟩
  | cons mark query =>
      obtain rfl : mark = '?' := by
        have hMark := List.head?_dropWhile_not (· ≠ '?') text
        rw [hRest] at hMark
        simpa using hMark
      rw [hRest] at hSplit
      rw [List.tail_cons]
      by_cases hEmpty : query = []
      · subst hEmpty
        exact Or.inr (Or.inl ⟨hSplit.symm, if_pos rfl⟩)
      · exact Or.inr (Or.inr ⟨query, if_neg hEmpty, hSplit.symm⟩)

theorem utf8_length_pos {s : Str} (h : s ≠ []) : 0 < (utf8 s).length := by
  rw [List.length_pos_iff]
  exact fun hNil => h (utf8_injective (hNil.trans utf8_nil.symm))

theorem Locates.reads {target : RequestTarget} {front text : Str} (h : Locates target front text) :
    Reads target text := by
  obtain ⟨hRaw, hStart, hStop, hQuery⟩ := h
  have hLength : (utf8 target.raw).length = (utf8 front).length + (utf8 text).length := by
    rw [hRaw, utf8_append, List.length_append]
  refine ⟨?_, ?_, ?_⟩
  · have hSplit := List.takeWhile_append_dropWhile (p := (· ≠ '?')) (l := text)
    have hSlice := slice_middle front (text.takeWhile (· ≠ '?')) (text.dropWhile (· ≠ '?'))
    rw [hSplit, ← hRaw, ← hStop, ← hStart] at hSlice
    exact hSlice
  · rcases split_text text with ⟨hText, hNone⟩ | ⟨hText, hNone⟩ | ⟨query, hSome, hText⟩
    · have hBytes := congrArg (fun s => (utf8 s).length) hText
      have hStart : target.queryStart = none := by
        rw [hQuery, if_neg (by omega)]
      rw [querySlice, hStart, hNone]
    · have hBytes := congrArg (fun s => (utf8 s).length) hText
      have hMark : (utf8 ['?']).length = 1 := rfl
      simp only [utf8_append, List.length_append] at hBytes
      have hStart : target.queryStart = none := by
        rw [hQuery, if_neg (by omega)]
      rw [querySlice, hStart, hNone]
    · have hMark : (utf8 (front ++ text.takeWhile (· ≠ '?') ++ ['?'])).length =
          target.pathEnd + 1 := by
        rw [hStop, utf8_append, utf8_append, List.length_append, List.length_append]
        rfl
      have hParts : target.raw = front ++ text.takeWhile (· ≠ '?') ++ ['?'] ++ query := by
        rw [hRaw]
        conv_lhs => rw [hText]
        simp only [List.append_assoc, List.singleton_append]
      have hLong : 0 < (utf8 query).length := by
        refine utf8_length_pos ?_
        rintro rfl
        unfold queryOf at hSome
        split_ifs at hSome with hTail
        exact hTail (Option.some.inj hSome)
      have hAll : (utf8 target.raw).length = target.pathEnd + 1 + (utf8 query).length := by
        rw [hParts, utf8_append, List.length_append, hMark]
      have hStart : target.queryStart = some (target.pathEnd + 1) := by
        rw [hQuery, if_pos (by omega)]
      have hSlice := slice_suffix (front ++ text.takeWhile (· ≠ '?') ++ ['?']) query
      rw [← hParts, hMark] at hSlice
      rw [querySlice, hStart, hSome]
      exact congrArg (Option.map some) hSlice
  · rw [pathAndQuerySlice, hRaw, hStart]
    exact slice_suffix front text

theorem locates_parseOriginForm (raw : Str) : Locates (parseOriginForm raw) [] raw where
  raw := rfl
  start := rfl
  stop := by
    rw [utf8_nil, List.length_nil, Nat.zero_add]
    exact originPathEnd_eq raw
  query := rfl

theorem locates_fromAbsoluteComponents {scheme pathAndQuery : Str} {authority : Authority}
    {target : RequestTarget}
    (h : fromAbsoluteComponents scheme authority pathAndQuery = .ok target) :
    ∃ front, Locates target front (if pathAndQuery.isEmpty then ['/'] else pathAndQuery) ∧
      parse (if pathAndQuery.isEmpty then ['/'] else pathAndQuery) =
        .ok (parseOriginForm (if pathAndQuery.isEmpty then ['/'] else pathAndQuery)) := by
  unfold fromAbsoluteComponents at h
  split at h
  · cases h
  · rename_i hRejected
    split at h
    · cases h
    · rename_i hBlank
      dsimp only at h
      rw [Bool.not_eq_true, any_utf8_ascii asciiControl_or_asciiWhitespace_lt,
        List.any_eq_false] at hBlank
      by_cases hRoot : (if pathAndQuery.isEmpty then ['/'] else pathAndQuery).head? = some '/'
      · rw [if_neg (not_not.mpr hRoot)] at h
        obtain rfl := Except.ok.inj h
        refine ⟨_, ⟨rfl, rfl, rfl, rfl⟩, parse_eq_ok.mpr ⟨?_, hRoot, ?_, rfl⟩⟩
        · intro c hc
          split_ifs at hc
          · rw [List.mem_singleton.mp hc]
            decide
          · simpa using hBlank c hc
        · split_ifs
          · decide
          · exact fun hDouble => hRejected (Or.inr hDouble)
      · rw [if_pos hRoot] at h
        cases h

/-- The parts of a target that a text was parsed into. -/
structure Partitioned (target : RequestTarget) (path : Str) (query : Option Str) : Prop where
  ofPath : target.pathSlice = some path
  ofQuery : target.querySlice = some query
  rooted : path.head? = some '/'
  single : ¬['/', '/'] <+: path
  clean : ∀ c ∈ path, c ≠ '?' ∧ asciiControl c.toNat = false ∧ asciiWhitespace c.toNat = false
  whole : target.raw = path ∧ query = none ∨ target.raw = path ++ ['?'] ∧ query = none ∨
    ∃ q, query = some q ∧ target.raw = path ++ '?' :: q

theorem partitioned_of_parse {raw : Str} {target : RequestTarget} (h : parse raw = .ok target) :
    Partitioned target (raw.takeWhile (· ≠ '?')) (queryOf raw) := by
  obtain ⟨hClean, hRoot, hDouble, rfl⟩ := parse_eq_ok.mp h
  have hReads := (locates_parseOriginForm raw).reads
  have hPrefix := List.takeWhile_prefix (· ≠ '?') (l := raw)
  refine ⟨hReads.path, hReads.query, ?_, fun hPath => hDouble (hPath.trans hPrefix),
    fun c hc => ⟨by simpa using List.mem_takeWhile_imp hc, hClean c (hPrefix.subset hc)⟩,
    split_text raw⟩
  cases raw with
  | nil => cases hRoot
  | cons c rest =>
      obtain rfl := Option.some.inj hRoot
      rfl

/-- A parsed target is cut at its first question mark, and a target from components has the parts
that parsing its path and query gives. -/
theorem targets_are_partitioned :
    (∀ raw target, parse raw = .ok target → ∃ path query, Partitioned target path query) ∧
    (∀ scheme authority pathAndQuery target,
      fromAbsoluteComponents scheme authority pathAndQuery = .ok target →
        ∃ parsed path query,
          parse (if pathAndQuery.isEmpty then ['/'] else pathAndQuery) = .ok parsed ∧
            Partitioned parsed path query ∧
              target.pathSlice = some path ∧ target.querySlice = some query) := by
  refine ⟨fun raw target h => ⟨_, _, partitioned_of_parse h⟩, ?_⟩
  intro scheme authority pathAndQuery target h
  obtain ⟨front, hLocates, hParse⟩ := locates_fromAbsoluteComponents h
  exact ⟨_, _, _, hParse, partitioned_of_parse hParse, hLocates.reads.path, hLocates.reads.query⟩

/-- U+0085 is a control character outside ASCII, and a path may have it. -/
theorem control_in_path :
    ∃ target, parse ['/', '\u0085'] = .ok target ∧
      ∃ path, target.pathSlice = some path ∧ ∃ c ∈ path, 0x80 ≤ c.toNat ∧ c.toNat ≤ 0x9f := by
  have hParse : parse ['/', '\u0085'] = .ok (parseOriginForm ['/', '\u0085']) :=
    parse_eq_ok.mpr ⟨by decide, rfl, by decide, rfl⟩
  exact ⟨_, hParse, _, (partitioned_of_parse hParse).ofPath, '\u0085', by decide, by decide⟩

theorem targets_are_partitioned_absolute :
    ∃ target, fromAbsoluteComponents "http" ⟨"[::1]:80", by decide +kernel⟩ "/é?b" = .ok target ∧
      ∃ parsed path query, parse "/é?b" = .ok parsed ∧ Partitioned parsed path query ∧
        target.pathSlice = some path ∧ target.querySlice = some query := by
  obtain ⟨target, hTarget⟩ : ∃ target,
      fromAbsoluteComponents "http" ⟨"[::1]:80", by decide +kernel⟩ "/é?b" = .ok target := ⟨_, rfl⟩
  exact ⟨target, hTarget, targets_are_partitioned.2 _ _ "/é?b" target hTarget⟩

end RequestTarget

end Eggserve.Primitives
