import Eggserve.Rust.Integer
import Eggserve.Rust.Result

/-! The authority of a request: a host with an optional port, as text; and its
scheme. -/
namespace Eggserve.Primitives
open Rust

inductive Scheme where
  | http
  | https
  deriving DecidableEq, Repr

def Scheme.asStr : Scheme → Str
  | http => ("http" : Str)
  | https => ("https" : Str)

/-- A port: digits only, within 16 bits. -/
def parsePort (value : Str) : Option Nat :=
  if isDigits value && decimalValue value ≤ 65535 then some (decimalValue value) else none

def isOwsChar (c : Char) : Bool := c = ' ' || c = '\t'

/-- `trim_matches` of blanks and tabs. -/
def trimOwsChars (value : Str) : Str := (value.dropWhile isOwsChar).rdropWhile isOwsChar

/-- The characters that never stand in an authority. -/
def isAuthorityBreak (c : Char) : Bool :=
  asciiControl c.toNat || c = '/' || c = '?' || c = '#' || c = '\\' || c = '@'

def isHexDigit (c : Char) : Bool :=
  c.isDigit || 'a' ≤ c && c ≤ 'f' || 'A' ≤ c && c ≤ 'F'

def isBracketedHostChar (c : Char) : Bool := isHexDigit c || c = ':' || c = '.' || c = '%'

def isHostChar (c : Char) : Bool :=
  asciiAlphabetic c.toNat || c.isDigit || c = '.' || c = '-' || c = '_' || c = '%'

/-- A host in brackets and what follows the closing one. -/
def validBracketed (value : Str) : Bool :=
  let rest := value.tail
  let host := rest.takeWhile (· ≠ ']')
  match rest.dropWhile (· ≠ ']') with
  | [] => false
  | _ :: suffix =>
      !host.isEmpty && !host.contains '[' && host.all isBracketedHostChar &&
        match suffix with
        | [] => true
        | c :: port => c = ':' && (parsePort port).isSome

/-- A name or an IPv4 address, with at most one colon. -/
def validPlain (value : Str) : Bool :=
  match value.splitOn ':' with
  | [host] => !host.isEmpty && host.all isHostChar
  | [host, port] => (parsePort port).isSome && !host.isEmpty && host.all isHostChar
  | _ => false

def validAuthority (value : Str) : Bool :=
  !value.isEmpty && value.all (fun c => c.toNat < 128 && !isAuthorityBreak c) &&
    if value.head? = some '[' then validBracketed value else validPlain value

@[ext]
structure Authority where
  text : Str
  valid : validAuthority text = true
  deriving DecidableEq

inductive AuthorityError where
  | invalid
  deriving DecidableEq, Repr

namespace Authority

def parse (value : Str) : Except AuthorityError Authority :=
  if h : validAuthority (trimOwsChars value) = true then .ok ⟨trimOwsChars value, h⟩
  else .error .invalid

end Authority
end Eggserve.Primitives
