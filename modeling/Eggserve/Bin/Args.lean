import Eggserve.Core.StaticMetadata
import Eggserve.Rust.Socket
import Mathlib.Data.Char
import Mathlib.Data.List.Lex

/-! The command line of the executable: options first, then a port and a directory. -/
namespace Eggserve.Bin
open Rust Eggserve.Primitives

inductive LogFormat where
  | text
  | json
  | none
  deriving DecidableEq

/-- The options that set one number of the limits. -/
inductive LimitFlag where
  | maxConnections
  | maxFileStreams
  | maxInFlightRequests
  | headerTimeout
  | connectionTotalTimeout
  | handlerTimeout
  | bodyReadTimeout
  | keepAliveIdleTimeout
  | responseWriteTimeout
  | maxBufSize
  | maxHeaders
  | maxHeaderBytes
  | maxRequestTargetBytes
  deriving DecidableEq

namespace LimitFlag

def all : List LimitFlag :=
  [maxConnections, maxFileStreams, maxInFlightRequests, headerTimeout, connectionTotalTimeout,
    handlerTimeout, bodyReadTimeout, keepAliveIdleTimeout, responseWriteTimeout, maxBufSize,
    maxHeaders, maxHeaderBytes, maxRequestTargetBytes]

def name : LimitFlag → Str
  | maxConnections => "max-connections"
  | maxFileStreams => "max-file-streams"
  | maxInFlightRequests => "max-in-flight-requests"
  | headerTimeout => "header-timeout"
  | connectionTotalTimeout => "connection-total-timeout"
  | handlerTimeout => "handler-timeout"
  | bodyReadTimeout => "body-read-timeout"
  | keepAliveIdleTimeout => "keep-alive-idle-timeout"
  | responseWriteTimeout => "response-write-timeout"
  | maxBufSize => "max-buf-size"
  | maxHeaders => "max-headers"
  | maxHeaderBytes => "max-header-bytes"
  | maxRequestTargetBytes => "max-request-target-bytes"

/-- The counts of concurrent things, which the parser itself refuses to be zero. -/
def positive : LimitFlag → Bool
  | maxConnections | maxFileStreams | maxInFlightRequests => true
  | _ => false

/-- Seconds are 64 bits wide, everything else is a `usize`. -/
def max (usizeMax : Nat) : LimitFlag → Nat
  | headerTimeout | connectionTotalTimeout | handlerTimeout | bodyReadTimeout
  | keepAliveIdleTimeout | responseWriteTimeout => u64Max
  | _ => usizeMax

end LimitFlag

/-- The options that take a value, apart from the headers. -/
inductive ValueFlag where
  | directory
  | bind
  | port
  | addr
  | logFormat
  | limit (flag : LimitFlag)
  | maxRequestsPerConnection
  | contentType
  | tlsCert
  | tlsKey
  deriving DecidableEq

namespace ValueFlag

def all : List ValueFlag :=
  [directory, bind, port, addr, logFormat, maxRequestsPerConnection, contentType, tlsCert,
    tlsKey] ++ LimitFlag.all.map limit

def name : ValueFlag → Str
  | directory => "directory"
  | bind => "bind"
  | port => "port"
  | addr => "addr"
  | logFormat => "log-format"
  | limit flag => flag.name
  | maxRequestsPerConnection => "max-requests-per-connection"
  | contentType => "content-type"
  | tlsCert => "tls-cert"
  | tlsKey => "tls-key"

end ValueFlag

/-- The options without a value. -/
inductive Switch where
  | publicExposure
  | directoryListing
  | followSymlinks
  | allowDotfiles
  | quiet
  | http3
  deriving DecidableEq

namespace Switch

def all : List Switch :=
  [publicExposure, directoryListing, followSymlinks, allowDotfiles, quiet, http3]

def name : Switch → Str
  | publicExposure => "public"
  | directoryListing => "directory-listing"
  | followSymlinks => "follow-symlinks"
  | allowDotfiles => "allow-dotfiles"
  | quiet => "quiet"
  | http3 => "http3"

end Switch

def dashed (name : Str) : Str := '-' :: '-' :: name

/-- The lists of names in `expand_attached_long_values`, without `header`. -/
def isValueFlag (name : Str) : Bool := ValueFlag.all.any fun flag => flag.name = name

def isBooleanFlag (name : Str) : Bool :=
  (Switch.all.any fun switch => switch.name = name) || name = "help".toList ||
    name = "version".toList

/-- One argument in front of the end of the options, with an attached value taken off. -/
def expandArg (arg : Str) : Except Str (List Str) :=
  match arg with
  | '-' :: '-' :: long =>
      match splitOnce '=' long with
      | none => .ok [arg]
      | some (name, value) =>
          if name = "header" then
            match splitOnce '=' value with
            | some (headerName, headerValue) => .ok [dashed "header", headerName, headerValue]
            | none => .ok [dashed "header", value]
          else if isValueFlag name = true then .ok [dashed name, value]
          else if isBooleanFlag name = true then
            .error (dashed name ++ " does not take a value".toList)
          else .ok [arg]
  | _ => .ok [arg]

def expandAttachedLongValues : List Str → Except Str (List Str)
  | [] => .ok []
  | arg :: args => do
      if arg = dashed [] then pure (arg :: args)
      else do
        let expanded ← expandArg arg
        let rest ← expandAttachedLongValues args
        pure (expanded ++ rest)

/-- A flag is never the value of another one; a single hyphen is a value. -/
def requireValue (flag : Str) : Option Str → Except Str Str
  | none => .error (flag ++ " requires an argument".toList)
  | some value =>
      if value.head? = some '-' ∧ value ≠ ['-'] then
        .error (flag ++ " requires an argument (found flag '".toList ++ value ++ "')".toList)
      else .ok value

def splitBindHostPort (value : Str) : Option (Str × Option Nat) :=
  match value with
  | '[' :: inner => do
      let (host, rest) ← splitOnce ']' inner
      match rest with
      | [] => some (host, none)
      | ':' :: port => do
          let port ← (parseUnsigned u16Max port).toOption
          some (host, some port)
      | _ => none
  | _ =>
      if 1 < value.count ':' then none
      else
        match splitOnce ':' value with
        | some (host, port) => do
            let port ← (parseUnsigned u16Max port).toOption
            some (if host = [] then "0.0.0.0" else host, some port)
        | none => if value = [] then none else some (value, none)

/-- What the parser gets from its surroundings. -/
structure Environment where
  usizeMax : Nat
  /-- The resolver of the system, with the text of its error. -/
  toSocketAddrs : Str → Nat → Except Str (List SocketAddr)

/-- Loopback addresses come first, then those of the fourth version, then the smaller text. -/
def bindBefore (first second : SocketAddr) : Bool :=
  let key (address : SocketAddr) := ((!address.ip.isLoopback), (!address.ip.isIpv4))
  if key first = key second then first.ip.display ≤ second.ip.display
  else (key first).1 < (key second).1 ∨
    (key first).1 = (key second).1 ∧ (key first).2 < (key second).2

def selectBindIp (addresses : List SocketAddr) : Option IpAddr :=
  ((addresses.mergeSort bindBefore).head?).map SocketAddr.ip

def resolveBindIp (env : Environment) (bindHost : Str) (bindPort : Nat) : Except Str IpAddr :=
  match parseIpAddr bindHost with
  | some ip => .ok ip
  | none => do
      let addresses ← (env.toSocketAddrs bindHost bindPort).mapError fun e =>
        "failed to resolve bind host '".toList ++ bindHost ++ "': ".toList ++ e
      okOr (selectBindIp addresses)
        ("bind host '".toList ++ bindHost ++ "' did not resolve".toList)

/-- The variables of the loop. A switch is on from where it was seen. -/
structure Parse where
  bindHost : Str := "127.0.0.1"
  bindPort : Nat := 8000
  root : Option Str := none
  portFromFlag : Bool := false
  seen : ValueFlag → Bool := fun _ => false
  on : Switch → Bool := fun _ => false
  logFormat : LogFormat := .text
  limits : LimitFlag → Option Nat := fun _ => none
  maxRequestsPerConnection : Option (Option Nat) := none
  defaultContentType : Str := "application/octet-stream"
  extraResponseHeaders : List (Str × Str) := []
  tlsCert : Option Str := none
  tlsKey : Option Str := none
  positionalArgs : List Str := []

def onlyOnce (name : Str) : Str := dashed name ++ " may only be specified once".toList

def portOnce : Str := "port may only be specified once (via --port, --addr, or --bind HOST:PORT)"

def bindAndAddr : Str := "--bind and --addr cannot be used together"

namespace Parse

/-- The checks that are made before the value of an option is read. -/
def admits (parse : Parse) : ValueFlag → Except Str Unit
  | .bind => do
      failIf (parse.seen .bind = true) (onlyOnce "bind")
      failIf (parse.seen .addr = true) bindAndAddr
  | .port => do
      failIf (parse.seen .addr = true)
        "--port cannot be used with --addr (the port is set in --addr HOST:PORT)"
      failIf (parse.portFromFlag = true) portOnce
  | .addr => do
      failIf (parse.seen .bind = true) bindAndAddr
      failIf (parse.seen .addr = true) (onlyOnce "addr")
      failIf (parse.portFromFlag = true)
        "--addr cannot be used with --port (the port is already set)"
  | flag => failIf (parse.seen flag = true) (onlyOnce flag.name)

def mark (parse : Parse) (flag : ValueFlag) : Parse :=
  { parse with seen := fun other => if other = flag then true else parse.seen other }

def setPort (parse : Parse) (port : Nat) : Parse :=
  { parse with
    bindPort := port
    portFromFlag := true }

def setLimit (parse : Parse) (flag : LimitFlag) (value : Nat) : Parse :=
  { parse with limits := fun other => if other = flag then some value else parse.limits other }

end Parse

/-- The host and the port that `--bind` names. -/
def readBind (addr : Str) : Except Str (Str × Option Nat) :=
  match parseSocketAddr addr with
  | some parsed => .ok (parsed.ip.display, some parsed.port)
  | none =>
      match parseIpAddr addr with
      | some ip => .ok (ip.display, none)
      | none => okOr (splitBindHostPort addr)
          ("invalid bind address '".toList ++ addr ++ "': expected HOST or HOST:PORT".toList)

def readPortValue (value : Str) : Except Str Nat :=
  (parseUnsigned u16Max value).mapError fun _ =>
    "invalid port '".toList ++ value ++ "': must be between 0 and 65535".toList

def readAddr (addr : Str) : Except Str SocketAddr :=
  okOr (parseSocketAddr addr)
    ("invalid address '".toList ++ addr ++ "': invalid socket address syntax".toList ++
      if 1 < addr.count ':' ∧ addr.head? ≠ some '[' then
        " (for IPv6 with a port, use the bracketed form: [::1]:8080)".toList
      else [])

def readLogFormat (value : Str) : Except Str LogFormat :=
  if value = "text" then .ok .text
  else if value = "json" then .ok .json
  else if value = "none" then .ok .none
  else .error ("invalid log format '".toList ++ value ++ "': expected text, json, or none".toList)

def invalidNumber (name value : Str) (kind : IntErrorKind) : Str :=
  "invalid ".toList ++ name ++ " '".toList ++ value ++ "': ".toList ++ kind.display

def readLimit (usizeMax : Nat) (flag : LimitFlag) (value : Str) : Except Str Nat := do
  let parsed ← (parseUnsigned (flag.max usizeMax) value).mapError (invalidNumber flag.name value)
  failIf (flag.positive = true ∧ parsed = 0)
    (dashed flag.name ++ " must be greater than 0".toList)
  pure parsed

/-- Zero is no limit. -/
def readMaxRequests (value : Str) : Except Str (Option Nat) := do
  let parsed ← (parseUnsigned u64Max value).mapError
    (invalidNumber "max-requests-per-connection" value)
  pure (if parsed = 0 then none else some parsed)

/-- The option takes its value. -/
def Parse.assign (usizeMax : Nat) (parse : Parse) (flag : ValueFlag) (value : Str) :
    Except Str Parse :=
  let parse := parse.mark flag
  match flag with
  | .directory => .ok { parse with root := some value }
  | .bind => do
      let (host, port) ← readBind value
      failIf (port.isSome = true ∧ parse.portFromFlag = true) portOnce
      let parse := { parse with bindHost := host }
      pure (match port with
        | some port => parse.setPort port
        | none => parse)
  | .port => (readPortValue value).map parse.setPort
  | .addr => do
      let parsed ← readAddr value
      pure ({ parse with bindHost := parsed.ip.display }.setPort parsed.port)
  | .logFormat => do
      let format ← readLogFormat value
      pure { parse with logFormat := format }
  | .limit flag => (readLimit usizeMax flag value).map (parse.setLimit flag)
  | .maxRequestsPerConnection => do
      let limit ← readMaxRequests value
      pure { parse with maxRequestsPerConnection := some limit }
  | .contentType => .ok { parse with defaultContentType := value }
  | .tlsCert => .ok { parse with tlsCert := some value }
  | .tlsKey => .ok { parse with tlsKey := some value }

def Parse.turnOn (parse : Parse) (switch : Switch) : Except Str Parse := do
  failIf (parse.on switch = true) (onlyOnce switch.name)
  pure { parse with on := fun other => if other = switch then true else parse.on other }

/-- What an argument stands for, where an option may begin. -/
inductive Token where
  | value (flag : ValueFlag)
  | switch (switch : Switch)
  | header
  | help
  | version
  | unknown
  | positional
  deriving DecidableEq

def token (arg : Str) : Token :=
  match ValueFlag.all.find? fun flag => dashed flag.name = arg with
  | some flag => .value flag
  | none =>
      match Switch.all.find? fun switch => dashed switch.name = arg with
      | some switch => .switch switch
      | none =>
          if arg = "-H" ∨ arg = "--header" then .header
          else if arg = "--help" ∨ arg = "-h" then .help
          else if arg = "--version" ∨ arg = "-V" then .version
          else if arg.head? = some '-' then .unknown
          else .positional

/-- The loop over the arguments. -/
def parseLoop (usizeMax : Nat) : List Str → Parse → Except Str Parse
  | [], parse => .ok parse
  | arg :: args, parse =>
      if arg = dashed [] then
        .ok { parse with positionalArgs := parse.positionalArgs ++ args }
      else
        match token arg with
        | .value flag => do
            parse.admits flag
            match args with
            | [] => do
                let _ ← requireValue (dashed flag.name) none
                pure parse
            | value :: args => do
                let value ← requireValue (dashed flag.name) (some value)
                let parse ← parse.assign usizeMax flag value
                parseLoop usizeMax args parse
        | .switch switch => do
            let parse ← parse.turnOn switch
            parseLoop usizeMax args parse
        | .header =>
            match args with
            | [] => do
                let _ ← requireValue (dashed "header") none
                pure parse
            | [name] => do
                let _ ← requireValue (dashed "header") (some name)
                let _ ← requireValue (dashed "header") none
                pure parse
            | name :: value :: args => do
                let name ← requireValue (dashed "header") (some name)
                let value ← requireValue (dashed "header") (some value)
                parseLoop usizeMax args
                  { parse with extraResponseHeaders := parse.extraResponseHeaders ++ [(name, value)] }
        | .help => .error "help"
        | .version => .error "version"
        | .unknown => .error ("unknown flag: ".toList ++ arg)
        | .positional =>
            parseLoop usizeMax args { parse with positionalArgs := parse.positionalArgs ++ [arg] }

/-- What the loop over the positional arguments changes. -/
structure Slots where
  bindPort : Nat
  portFromFlag : Bool
  root : Option Str

def invalidPositional (pos text : Str) : Str :=
  "invalid positional port '".toList ++ pos ++ "': ".toList ++ text

/-- One positional argument is the port where it can be one and no port is set, else the
directory. -/
def takePositional (slots : Slots) (pos : Str) : Except Str Slots := do
  let trimmed := trim pos
  let signed := (trimmed.head? = some '+' ∨ trimmed.head? = some '-') ∧ isDigits trimmed.tail = true
  failIf (slots.portFromFlag = false ∧
      (isDigits trimmed = true ∧ trimmed ≠ pos ∨ 1 < (utf8 trimmed).length ∧ signed))
    (invalidPositional pos "must be a decimal number between 0 and 65535")
  match if slots.portFromFlag then none else (parseUnsigned u16Max pos).toOption with
  | some port =>
      pure { slots with
        bindPort := port
        portFromFlag := true }
  | none => do
      failIf (slots.portFromFlag = false ∧ isDigits pos = true)
        (invalidPositional pos ("must be between 0 and 65535 (use `--directory ".toList ++ pos ++
          "` if this is a directory name)".toList))
      failIf (slots.root.isSome = true) ("too many positional arguments: '".toList ++ pos ++ ['\''])
      pure { slots with root := some pos }

/-- The parsed command line. -/
structure Args where
  bind : SocketAddr
  root : Str
  directoryListing : DirectoryListingPolicy
  symlinks : SymlinkPolicy
  dotfiles : DotfilePolicy
  defaultContentType : Str
  extraResponseHeaders : List (Str × Str)
  logFormat : LogFormat
  quiet : Bool
  limits : LimitFlag → Option Nat
  maxRequestsPerConnection : Option (Option Nat)
  tlsCert : Option Str
  tlsKey : Option Str
  http3 : Bool

/-- What follows the loop over the options. -/
def finish (env : Environment) (parse : Parse) : Except Str Args := do
  let slots ← parse.positionalArgs.foldlM takePositional
    ⟨parse.bindPort, parse.portFromFlag, parse.root⟩
  let bindIp ← resolveBindIp env parse.bindHost slots.bindPort
  failIf (parse.on .publicExposure = false ∧ bindIp.isUnspecified = true)
    ("binding to ".toList ++ bindIp.display ++
      " requires --public to acknowledge public exposure intent".toList)
  Core.validateStaticMetadata parse.defaultContentType parse.extraResponseHeaders
  failIf (parse.tlsCert.isNone = true ∧ parse.tlsKey.isSome = true)
    "--tls-key requires --tls-cert to be provided"
  pure
    { bind := ⟨bindIp, slots.bindPort⟩
      root := slots.root.getD "."
      directoryListing := if parse.on .directoryListing then .enabled else .disabled
      symlinks := if parse.on .followSymlinks then .follow else .denied
      dotfiles := if parse.on .allowDotfiles then .serve else .denied
      defaultContentType := parse.defaultContentType
      extraResponseHeaders := parse.extraResponseHeaders
      logFormat := parse.logFormat
      quiet := parse.on .quiet
      limits := parse.limits
      maxRequestsPerConnection := parse.maxRequestsPerConnection
      tlsCert := parse.tlsCert
      tlsKey := parse.tlsKey.or parse.tlsCert
      http3 := parse.on .http3 }

def parseFrom (env : Environment) (args : List Str) : Except Str Args := do
  let args ← expandAttachedLongValues args
  let parse ← parseLoop env.usizeMax args {}
  finish env parse

end Eggserve.Bin
