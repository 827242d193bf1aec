import Mathlib.Init

/-! The serving policy. It is applied to every component a resolver opens, after
the path policy was applied to the request target. -/
namespace Eggserve.Primitives

/-- Whether symbolic links are followed during resolution. -/
inductive SymlinkPolicy where
  | denied
  | follow
  deriving DecidableEq, Repr

/-- Whether paths with a dot-prefixed component are served. -/
inductive DotfilePolicy where
  | denied
  | serve
  deriving DecidableEq, Repr

structure StaticPolicy where
  symlinks : SymlinkPolicy := .denied
  dotfiles : DotfilePolicy := .denied
  deriving DecidableEq, Repr

end Eggserve.Primitives
