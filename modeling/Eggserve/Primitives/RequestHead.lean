import Eggserve.Primitives.Authority
import Eggserve.Primitives.RequestTarget
import Eggserve.Primitives.HeaderBlock

/-! The canonical request head: a method token, a target, a version and the
fields. -/
namespace Eggserve.Primitives
open Rust

def RequestTargetError.display : RequestTargetError → String
  | empty => "request target is empty"
  | notOriginForm => "request target must start with '/'"
  | containsWhitespace => "request target contains whitespace"
  | absoluteUri => "absolute URI not supported"
  | authorityForm => "authority-form URI not supported"
  | asteriskForm => "asterisk-form URI not supported"

/-- The octets of a scheme after its first letter. -/
def isSchemeTail (c : Char) : Bool :=
  asciiAlphabetic c.toNat || c.isDigit || c = '+' || c = '-' || c = '.'

def validScheme : Str → Bool
  | [] => false
  | first :: rest => asciiAlphabetic first.toNat && rest.all isSchemeTail

namespace RequestTarget

/-- A target from the components of a URI. -/
def fromAbsoluteComponents (scheme : Str) (authority : Authority) (pathAndQuery : Str) :
    Except RequestTargetError RequestTarget :=
  if validScheme scheme = false ∨ ['/', '/'] <+: pathAndQuery then .error .absoluteUri
  else if (utf8 pathAndQuery).any
      (fun byte => asciiControl byte.toNat || asciiWhitespace byte.toNat) then
    .error .containsWhitespace
  else
    let path : Str := if pathAndQuery.isEmpty then ['/'] else pathAndQuery
    if path.head? ≠ some '/' then .error .notOriginForm
    else
      let front := scheme ++ ("://" : Str) ++ authority.text
      let raw := front ++ path
      let pathEnd := (utf8 front).length + (utf8 (path.takeWhile (· ≠ '?'))).length
      let len := (utf8 raw).length
      .ok
        { raw := raw
          form := .absolute
          pathStart := (utf8 front).length
          pathEnd := pathEnd
          queryStart := if pathEnd < len ∧ pathEnd + 1 < len then some (pathEnd + 1) else none
          path_isSome := by
            have hSplit := List.takeWhile_append_dropWhile (p := (· ≠ '?')) (l := path)
            have hSlice := slice_middle front (path.takeWhile (· ≠ '?')) (path.dropWhile (· ≠ '?'))
            rw [hSplit] at hSlice
            rw [hSlice]
            rfl }

/-- The query component, after the `?`. The offset of a parsed target is within
it. -/
def query (target : RequestTarget) : Option Str :=
  target.queryStart.bind fun start => slice target.raw start (utf8 target.raw).length

/-- An empty query is none. -/
theorem query_parseOriginForm (raw : Str) :
    (parseOriginForm raw).query =
      match (raw.dropWhile (· ≠ '?')).tail with
      | [] => none
      | first :: rest => some (first :: rest) := by
  have hSplit := List.takeWhile_append_dropWhile (p := (· ≠ '?')) (l := raw)
  have hEnd := originPathEnd_eq raw
  generalize hBefore : raw.takeWhile (· ≠ '?') = before at hSplit hEnd
  unfold query parseOriginForm
  dsimp only
  rw [hEnd]
  cases hRest : raw.dropWhile (· ≠ '?') with
  | nil =>
      rw [hRest, List.append_nil] at hSplit
      simp [← hSplit]
  | cons mark rest =>
      obtain rfl : mark = '?' := by
        have hMark := List.head?_dropWhile_not (· ≠ '?') raw
        rw [hRest] at hMark
        simpa using hMark
      rw [hRest] at hSplit
      have hMark : (utf8 (before ++ ['?'])).length = (utf8 before).length + 1 := by
        rw [utf8_append, List.length_append]
        rfl
      have hSlice := slice_middle (before ++ ['?']) rest []
      rw [List.append_nil, List.append_assoc, List.singleton_append, hSplit] at hSlice
      have hLength : (utf8 raw).length = (utf8 (before ++ ['?'])).length + (utf8 rest).length := by
        rw [← hSplit, ← List.singleton_append, ← List.append_assoc, utf8_append,
          List.length_append]
      cases rest with
      | nil =>
          rw [if_neg]
          · rfl
          · rw [hLength, hMark, utf8_nil, List.length_nil]
            omega
      | cons first rest =>
          have hSome : 0 < (utf8 (first :: rest)).length := by
            rw [utf8_cons, List.length_append, String.length_utf8EncodeChar]
            exact Nat.add_pos_left first.utf8Size_pos _
          rw [if_pos (by omega), Option.bind_some, ← hMark, hLength]
          exact hSlice

end RequestTarget

inductive HttpVersion where
  | http10
  | http11
  | http2
  | http3
  deriving DecidableEq, Repr

/-- A method is a token. -/
def isHttpToken (value : Str) : Bool := !value.isEmpty && (utf8 value).all isTokenByte

structure RequestHead where
  method : Str
  target : RequestTarget
  version : HttpVersion
  headers : HeaderBlock
  authority : Option Authority

namespace RequestHead

def isHead (head : RequestHead) : Bool := head.method = "HEAD"

/-- The static service serves `GET` and `HEAD` only. -/
def permitsStaticResolution (head : RequestHead) : Bool :=
  head.method = "GET" || head.method = "HEAD"

end RequestHead

end Eggserve.Primitives
