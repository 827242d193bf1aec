import Eggserve.Posix.History
import Eggserve.Primitives.Policy
import Eggserve.Static.Path.Confined
import Eggserve.Static.ResolvedFile

/-! Descriptor-relative resolution. Each component is looked at with `statat` and
then opened with `openat`, and the two calls may see different entries. -/
namespace Eggserve.Static
open Rust Posix Eggserve.Primitives

/-- What a descriptor shows of its inode. -/
structure Attributes where
  content : List UInt8
  metadata : Metadata

/-- A resolved file and the inode its descriptor refers to. -/
structure OpenedFile (ν : Type) extends ResolvedFile where
  inode : ν

structure ResolvedDirectory (ν : Type) where
  dirFd : ν
  canonicalPath : Str
  components : List Str
  /-- Children are admitted under the backslash rule of the parent. -/
  rejectBackslash : Bool

inductive ResolvedResource (ν : Type) where
  | file (file : OpenedFile ν)
  | directory (directory : ResolvedDirectory ν)
  | notFound
  | denied (rejection : PathRejection)
  | ioError (error : Errno)

/-- `PathBuf::push` on Unix. -/
def pushPath (base component : Str) : Str :=
  if component.head? = some '/' then component
  else if base = [] ∨ base.getLast? = some '/' then base ++ component
  else base ++ '/' :: component

def constructPath (base : Str) (components : List Str) : Str := components.foldl pushPath base

def validateChildComponentWithPolicy (child : Str) (dotfilesDenied rejectBackslash : Bool) :
    Except PathRejection Unit := do
  failIf (child.isEmpty) .empty
  failIf (child = ".") .currentComponent
  failIf (child = "..") .parentComponent
  failIf ('/' ∈ child) .separatorAmbiguity
  failIf ('\x00' ∈ child) .nulByte
  failIf (child.any fun c => asciiControl c.toNat) .controlCharacter
  failIf (rejectBackslash ∧ '\\' ∈ child) .separatorAmbiguity
  failIf (dotfilesDenied ∧ child.head? = some '.') .dotfileDenied
  checkSecondDecode child
  checkComponent child

variable {ν : Type} (history : History ν Attributes)

/-- The look before an open, as both resolvers take it. A last component must be
a regular file or a directory; `none` lets the open go on. -/
def precheck (policy : StaticPolicy) (fd : ν) (component : Str) (isFinal : Bool) (p : Process ν) :
    Option (ResolvedResource ν) × Process ν :=
  if policy.symlinks = .denied then
    match history.statat fd (utf8 component) p with
    | (.error _, p) => (some .notFound, p)
    | (.ok fileType, p) =>
        if fileType = .symlink then (some (.denied .symlinkDenied), p)
        else if isFinal ∧ fileType ≠ .regular ∧ fileType ≠ .directory then (some .notFound, p)
        else (none, p)
  else (none, p)

def openFailure : Errno → ResolvedResource ν
  | .loop | .mlink => .denied .symlinkDenied
  | _ => .notFound

/-- Look at a component and open it, as both resolvers do. A last component is
opened with `O_NONBLOCK`, any other with `O_DIRECTORY`. -/
def openComponent (policy : StaticPolicy) (fd : ν) (component : Str) (isFinal : Bool)
    (p : Process ν) : Except (ResolvedResource ν) ν × Process ν :=
  match precheck history policy fd component isFinal p with
  | (some resource, p) => (.error resource, p)
  | (none, p) =>
      match history.openat fd (utf8 component) (!isFinal) p with
      | (.error errno, p) => (.error (openFailure errno), p)
      | (.ok newFd, p) => (.ok newFd, p)

/-- The look after the last open, at the descriptor itself. -/
def classifyOpened (canonicalRoot : Str) (components : List Str) (rejectBackslash : Bool) (fd : ν)
    (p : Process ν) : ResolvedResource ν × Process ν :=
  match history.fstat fd p with
  | (.error _, p) => (.notFound, p)
  | (.ok (.directory, _), p) =>
      (.directory
        { dirFd := fd
          canonicalPath := constructPath canonicalRoot components
          components := components
          rejectBackslash := rejectBackslash }, p)
  | (.ok (.regular, attributes), p) =>
      (.file
        { file := { content := attributes.content, cursor := 0 }
          metadata := attributes.metadata
          safeRelativeComponents := components
          inode := fd }, p)
  | (.ok _, p) => (.notFound, p)

def resolveRoot (rootFd : ν) (canonicalRoot : Str) (rejectBackslash : Bool) (p : Process ν) :
    ResolvedResource ν × Process ν :=
  match history.dup rootFd p with
  | (.error error, p) => (.ioError error, p)
  | (.ok fd, p) =>
      (.directory
        { dirFd := fd
          canonicalPath := canonicalRoot
          components := []
          rejectBackslash := rejectBackslash }, p)

/-- The loop of `resolve_fd_relative` over the components not yet opened. -/
def resolveComponents (canonicalRoot : Str) (components : List Str) (policy : StaticPolicy)
    (rejectBackslash : Bool) : List Str → ν → Process ν → ResolvedResource ν × Process ν
  | [], _, p => (.notFound, p)
  | component :: rest, currentFd, p =>
      if policy.dotfiles = .denied ∧ component.head? = some '.' then (.denied .dotfileDenied, p)
      else
        match checkComponent component with
        | .error rejection => (.denied rejection, p)
        | .ok () =>
            match openComponent history policy currentFd component rest.isEmpty p with
            | (.error resource, p) => (resource, p)
            | (.ok newFd, p) =>
                if rest.isEmpty then
                  classifyOpened history canonicalRoot components rejectBackslash newFd p
                else
                  resolveComponents canonicalRoot components policy rejectBackslash rest newFd p

def resolveFdRelative (rootFd : ν) (canonicalRoot : Str) (components : List Str)
    (policy : StaticPolicy) (rejectBackslash : Bool) (p : Process ν) :
    ResolvedResource ν × Process ν :=
  if components.isEmpty then resolveRoot history rootFd canonicalRoot rejectBackslash p
  else
    resolveComponents history canonicalRoot components policy rejectBackslash components rootFd p

def resolveChildFd (dirFd : ν) (dirComponents : List Str) (canonicalRoot child : Str)
    (policy : StaticPolicy) (rejectBackslash : Bool) (p : Process ν) :
    ResolvedResource ν × Process ν :=
  match validateChildComponentWithPolicy child (policy.dotfiles = .denied) rejectBackslash with
  | .error rejection => (.denied rejection, p)
  | .ok () =>
      match openComponent history policy dirFd child true p with
      | (.error resource, p) => (resource, p)
      | (.ok newFd, p) =>
          classifyOpened history canonicalRoot (dirComponents ++ [child]) rejectBackslash newFd p

/-- The root, opened once when the server starts and kept. -/
structure PinnedRoot where
  canonicalRoot : Str
  rootFd : ν
  is_directory : history.fileType rootFd = .directory

/-- The canonicalizing resolver of the mode that follows links: the components,
the policy and the backslash rule. -/
abbrev Fallback (ν : Type) :=
  List Str → StaticPolicy → Bool → Process ν → ResolvedResource ν × Process ν

namespace RootGuard

variable {history} (fallback : Fallback ν) (pinned : PinnedRoot history)

def resolve (confined : ConfinedPath) (policy : StaticPolicy) (p : Process ν) :
    ResolvedResource ν × Process ν :=
  if policy.symlinks = .denied then
    resolveFdRelative history pinned.rootFd pinned.canonicalRoot confined.components policy
      confined.pathPolicy.rejectBackslash p
  else fallback confined.components policy confined.pathPolicy.rejectBackslash p

def resolveChild (dir : ResolvedDirectory ν) (child : Str) (policy : StaticPolicy)
    (p : Process ν) : ResolvedResource ν × Process ν :=
  match validateChildComponentWithPolicy child (policy.dotfiles = .denied) dir.rejectBackslash with
  | .error rejection => (.denied rejection, p)
  | .ok () =>
      if policy.symlinks = .denied then
        resolveChildFd history dir.dirFd dir.components pinned.canonicalRoot child policy
          dir.rejectBackslash p
      else fallback (dir.components ++ [child]) policy dir.rejectBackslash p

end RootGuard

end Eggserve.Static
