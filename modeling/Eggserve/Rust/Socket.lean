import Eggserve.Rust.NetText

/-! Socket addresses of the standard library, and the integers of a command line with what
is said about the others. -/
namespace Rust

def u16Max : Nat := 2 ^ 16 - 1
def u32Max : Nat := 2 ^ 32 - 1

/-- `IntErrorKind`, as far as unsigned integers meet it. -/
inductive IntErrorKind where
  | empty
  | invalidDigit
  | posOverflow
  deriving DecidableEq

def IntErrorKind.display : IntErrorKind → Str
  | empty => "cannot parse integer from empty string"
  | invalidDigit => "invalid digit found in string"
  | posOverflow => "number too large to fit in target type"

/-- What `str::parse` stops at: the digits in front are too many, or something is no digit. -/
def intErrorKind (max : Nat) (s : Str) : IntErrorKind :=
  let digits := if s.head? = some '+' then s.tail else s
  if s = [] then .empty
  else if max < decimalValue (digits.takeWhile Char.isDigit) then .posOverflow
  else .invalidDigit

/-- `str::parse` for an unsigned integer of at most 64 bits. -/
def parseUnsigned (max : Nat) (s : Str) : Except IntErrorKind Nat :=
  match (parseU64 s).filter (· ≤ max) with
  | some n => .ok n
  | none => .error (intErrorKind max s)

def readPort : Str → Option (Nat × Str)
  | ':' :: rest => readNumber 10 rest.length u16Max true rest
  | _ => none

/-- A scope in front of the bracket is skipped. -/
def skipScopeId (s : Str) : Str :=
  match s with
  | '%' :: rest =>
      match readNumber 10 rest.length u32Max true rest with
      | some (_, rest) => rest
      | none => s
  | _ => s

def readSocketAddrV4 (s : Str) : Option (SocketAddr × Str) := do
  let (octets, s) ← readIpv4Octets s
  let (port, s) ← readPort s
  return (⟨.v4 (Ipv4Addr.ofOctets octets), port⟩, s)

def readSocketAddrV6 : Str → Option (SocketAddr × Str)
  | '[' :: s => do
      let (groups, s) ← readIpv6 s
      match skipScopeId s with
      | ']' :: s => do
          let (port, s) ← readPort s
          return (⟨.v6 (Ipv6Addr.ofGroups groups), port⟩, s)
      | _ => none
  | _ => none

/-- `str::parse::<SocketAddr>`, without the scope, which nothing here looks at. -/
def parseSocketAddr (s : Str) : Option SocketAddr :=
  match (readSocketAddrV4 s).orElse fun _ => readSocketAddrV6 s with
  | some (addr, []) => some addr
  | _ => none

namespace IpAddr

def isUnspecified : IpAddr → Bool
  | v4 addr => addr.bits = 0
  | v6 addr => addr.bits = 0

def isLoopback : IpAddr → Bool
  | v4 addr => addr.octets.head? = some 127
  | v6 addr => addr.bits = 1

def isIpv4 : IpAddr → Bool
  | v4 _ => true
  | v6 _ => false

end IpAddr

end Rust
