import Eggserve.Rust.Text

/-! The canonical request target. It splits the raw target at the first `?`
and keeps byte offsets into it; it neither decodes escapes nor normalizes. -/
namespace Eggserve.Primitives
open Rust

inductive RequestTargetError where
  | empty
  | notOriginForm
  | containsWhitespace
  | absoluteUri
  | authorityForm
  | asteriskForm
  deriving DecidableEq, Repr

inductive RequestTargetForm where
  | origin
  | absolute
  deriving DecidableEq, Repr

/-- The offsets delimit the path inside the raw target. A target whose offsets
would make the path accessor panic cannot be built. -/
structure RequestTarget where
  raw : Str
  form : RequestTargetForm
  pathStart : Nat
  pathEnd : Nat
  queryStart : Option Nat
  path_isSome : (slice raw pathStart pathEnd).isSome

namespace RequestTarget

/-- The path component, before the `?`. -/
def path (target : RequestTarget) : Str :=
  (slice target.raw target.pathStart target.pathEnd).get target.path_isSome

def originPathEnd (raw : Str) : Nat := (find '?' raw).getD (utf8 raw).length

theorem originPathEnd_eq (raw : Str) :
    originPathEnd raw = (utf8 (raw.takeWhile (· ≠ '?'))).length := by
  rw [originPathEnd, find]
  split_ifs with hMem
  · rfl
  · rw [takeWhile_ne_of_not_mem hMem]
    rfl

theorem slice_originPathEnd (raw : Str) :
    slice raw 0 (originPathEnd raw) = some (raw.takeWhile (· ≠ '?')) := by
  have hSplit := List.takeWhile_append_dropWhile (p := (· ≠ '?')) (l := raw)
  have hSlice := slice_prefix (raw.takeWhile (· ≠ '?')) (raw.dropWhile (· ≠ '?'))
  rwa [hSplit, ← originPathEnd_eq raw] at hSlice

def parseOriginForm (raw : Str) : RequestTarget :=
  let pathEnd := originPathEnd raw
  let len := (utf8 raw).length
  { raw := raw
    form := .origin
    pathStart := 0
    pathEnd := pathEnd
    queryStart := if pathEnd < len ∧ pathEnd + 1 < len then some (pathEnd + 1) else none
    path_isSome := by rw [slice_originPathEnd]; rfl }

def parse (raw : Str) : Except RequestTargetError RequestTarget :=
  if raw.isEmpty then .error .empty
  else if raw = "*" then .error .asteriskForm
  else if (utf8 raw).any (fun byte => asciiControl byte.toNat || asciiWhitespace byte.toNat) then
    .error .containsWhitespace
  else if raw.head? = some '/' then
    if ['/', '/'] <+: raw then .error .authorityForm
    else .ok (parseOriginForm raw)
  else if [':', '/', '/'] <:+: raw then .error .absoluteUri
  else if '@' ∈ raw ∨ ':' ∈ raw then .error .authorityForm
  else .error .notOriginForm

theorem path_parseOriginForm (raw : Str) :
    (parseOriginForm raw).path = raw.takeWhile (· ≠ '?') := by
  apply Option.some.inj
  rw [path, Option.some_get]
  exact slice_originPathEnd raw

theorem asciiControl_or_asciiWhitespace_lt (code : Nat)
    (h : (asciiControl code || asciiWhitespace code) = true) : code < 128 := by
  simp only [asciiControl, asciiWhitespace, Bool.or_eq_true, decide_eq_true_eq] at h
  omega

/-- Exactly the rooted targets without controls, blanks and a second root slash
are accepted; the path ends at the first question mark. -/
theorem parse_eq_ok {raw : Str} {target : RequestTarget} :
    parse raw = .ok target ↔
      (∀ c ∈ raw, asciiControl c.toNat = false ∧ asciiWhitespace c.toNat = false) ∧
        raw.head? = some '/' ∧ ¬['/', '/'] <+: raw ∧ target = parseOriginForm raw := by
  have hBytes : (utf8 raw).any (fun b => asciiControl b.toNat || asciiWhitespace b.toNat) = false ↔
      ∀ c ∈ raw, asciiControl c.toNat = false ∧ asciiWhitespace c.toNat = false := by
    rw [any_utf8_ascii asciiControl_or_asciiWhitespace_lt]
    simp
  rw [← hBytes, parse]
  split_ifs with hEmpty hStar hBlank hRoot hDouble hScheme hAuthority
  · simp_all
  · simp_all
  · simp [hBlank]
  · simp [hDouble]
  · simp [hBlank, hRoot, hDouble, eq_comm]
  all_goals simp [hRoot]

end RequestTarget
end Eggserve.Primitives
