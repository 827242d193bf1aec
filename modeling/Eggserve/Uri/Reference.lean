import Mathlib.Data.List.TakeDrop
import Mathlib.Data.List.TakeWhile

/-! The components of a URI reference. The generic syntax splits any text into them: a
fragment behind the first number sign, a query behind the first question mark before it,
a scheme before a colon that no slash precedes, and an authority behind two slashes. -/
namespace Uri

structure Reference where
  scheme : Option (List Char)
  authority : Option (List Char)
  path : List Char
  query : Option (List Char)
  fragment : Option (List Char)
  deriving DecidableEq, Repr

/-- What stands behind the mark in a text that begins with it. -/
def behind (mark : Char) : List Char → Option (List Char)
  | [] => none
  | c :: rest => if c = mark then some rest else none

/-- The scheme and what follows it. A scheme is not empty. -/
def splitScheme (text : List Char) : Option (List Char) × List Char :=
  let first := text.takeWhile fun c => c ≠ ':' && c ≠ '/'
  match behind ':' (text.dropWhile fun c => c ≠ ':' && c ≠ '/') with
  | some rest => if first = [] then (none, text) else (some first, rest)
  | none => (none, text)

/-- The authority and the path. -/
def splitAuthority : List Char → Option (List Char) × List Char
  | '/' :: '/' :: rest => (some (rest.takeWhile (· ≠ '/')), rest.dropWhile (· ≠ '/'))
  | text => (none, text)

namespace Reference

def read (text : List Char) : Reference :=
  let unfragmented := text.takeWhile (· ≠ '#')
  let hierarchical := splitScheme (unfragmented.takeWhile (· ≠ '?'))
  { scheme := hierarchical.1
    authority := (splitAuthority hierarchical.2).1
    path := (splitAuthority hierarchical.2).2
    query := behind '?' (unfragmented.dropWhile (· ≠ '?'))
    fragment := behind '#' (text.dropWhile (· ≠ '#')) }

/-- Only a number sign starts a fragment. -/
theorem fragment_read_eq_none {text : List Char} :
    (read text).fragment = none ↔ '#' ∉ text := by
  show behind '#' (text.dropWhile (· ≠ '#')) = none ↔ _
  induction text with
  | nil => simp [behind]
  | cons c rest ih =>
      by_cases hc : c = '#'
      · simp [hc, behind]
      · rw [List.dropWhile_cons_of_pos (by simpa using hc), ih]
        simp [Ne.symm hc]

/-- Text without the mark is passed over as a whole. -/
theorem takeWhile_append_mark {mark : Char} {text : List Char} (tail : List Char)
    (h : mark ∉ text) :
    (text ++ tail).takeWhile (· ≠ mark) = text ++ tail.takeWhile (· ≠ mark) ∧
      (text ++ tail).dropWhile (· ≠ mark) = tail.dropWhile (· ≠ mark) := by
  have hAll : ∀ c ∈ text, decide (c ≠ mark) = true := by
    intro c hc
    exact decide_eq_true fun hEq => h (hEq ▸ hc)
  exact ⟨List.takeWhile_append_of_pos hAll, List.dropWhile_append_of_pos hAll⟩

/-- A path that begins with one slash, and a query behind it, are read as they stand. -/
theorem read_rooted {c : Char} {rest : List Char} {query : Option (List Char)} (hRoot : c ≠ '/')
    (hMark : '?' ∉ '/' :: c :: rest) (hPath : '#' ∉ '/' :: c :: rest)
    (hQuery : ∀ text ∈ query, '#' ∉ text) :
    read (('/' :: c :: rest) ++ query.elim [] ('?' :: ·)) =
      ⟨none, none, '/' :: c :: rest, query, none⟩ := by
  have hTail : '#' ∉ query.elim [] ('?' :: ·) := by
    cases query with
    | none => exact List.not_mem_nil
    | some text =>
        intro hMem
        rcases List.mem_cons.mp hMem with hEq | hText
        · cases hEq
        · exact hQuery text rfl hText
  have hWhole := takeWhile_append_mark []
    (List.mem_append.not.mpr (not_or.mpr ⟨hPath, hTail⟩))
  simp only [List.append_nil, List.takeWhile_nil, List.dropWhile_nil] at hWhole
  have hSplit := takeWhile_append_mark (query.elim [] ('?' :: ·)) hMark
  have hScheme : splitScheme ('/' :: c :: rest) = (none, '/' :: c :: rest) := by
    simp [splitScheme, behind]
  have hAuthority : splitAuthority ('/' :: c :: rest) = (none, '/' :: c :: rest) := by
    unfold splitAuthority
    split
    · rename_i hEq
      exact absurd (List.cons.inj (List.cons.inj hEq).2).1 hRoot
    · rfl
  unfold read
  dsimp only
  rw [hWhole.1, hWhole.2, hSplit.1, hSplit.2]
  cases query with
  | none => simp [hScheme, hAuthority, behind]
  | some text => simp [hScheme, hAuthority, behind]

end Reference

end Uri
