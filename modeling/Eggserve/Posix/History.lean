import Eggserve.Rust.Text

/-! Descriptor-relative system calls on a directory graph that others rewrite
between any two calls. A descriptor is the inode it was opened on, whatever
happens to the names that led to it. -/
namespace Posix

/-- The type bits of `st_mode`. -/
inductive FileType where
  | regular
  | directory
  | symlink
  | other
  deriving DecidableEq, Repr

inductive Errno where
  | noent
  | notdir
  | loop
  | mlink
  | other (code : Nat)
  deriving DecidableEq, Repr

abbrev Name := List UInt8

/-- A name that names one directory entry. The kernel takes any other name for
a path to walk. -/
structure SingleSegment (name : Name) : Prop where
  nonempty : name ≠ []
  no_slash : 0x2f ∉ name
  no_nul : 0 ∉ name
  not_current : name ≠ [0x2e]
  not_parent : name ≠ [0x2e, 0x2e]

instance (name : Name) : Decidable (SingleSegment name) :=
  decidable_of_iff (name ≠ [] ∧ 0x2f ∉ name ∧ 0 ∉ name ∧ name ≠ [0x2e] ∧ name ≠ [0x2e, 0x2e])
    ⟨fun ⟨h₁, h₂, h₃, h₄, h₅⟩ => ⟨h₁, h₂, h₃, h₄, h₅⟩,
      fun h => ⟨h.nonempty, h.no_slash, h.no_nul, h.not_current, h.not_parent⟩⟩

/-- A filesystem over time. The directory entries of one instant say nothing
about those of another, so every rewriting of the graph between two calls is
some history. An inode keeps its type. -/
structure History (ν α : Type) where
  fileType : ν → FileType
  entry : Nat → ν → Name → Option ν
  /-- Where the walk of a name that is no single segment ends, links and parent
  entries on the way included. -/
  walk : Nat → ν → Name → Option ν
  /-- What `fstat` and reads show of an inode. -/
  attributes : Nat → ν → α
  /-- A call may fail at any instant for reasons of its own. -/
  fault : Nat → Option Errno
  /-- What opening a link without following it fails with. -/
  linkErrno : Nat → Errno

/-- A successful open. -/
structure Open (ν : Type) where
  instant : Nat
  dir : ν
  name : Name
  inode : ν
  deriving DecidableEq, Repr

/-- The caller: the instant of its next call, and its opens so far. -/
structure Process (ν : Type) where
  clock : Nat
  opens : List (Open ν)
  deriving DecidableEq, Repr

namespace Process

variable {ν : Type}

def tick (p : Process ν) : Process ν := { p with clock := p.clock + 1 }

def record (p : Process ν) (link : Open ν) : Process ν := { p with opens := p.opens ++ [link] }

@[simp] theorem tick_clock (p : Process ν) : p.tick.clock = p.clock + 1 := rfl

@[simp] theorem tick_opens (p : Process ν) : p.tick.opens = p.opens := rfl

@[simp] theorem record_opens (p : Process ν) (link : Open ν) :
    (p.record link).opens = p.opens ++ [link] := rfl

end Process

namespace History

variable {ν α : Type} (history : History ν α)

/-- The inode a name stands for in a directory at an instant. -/
def lookup (t : Nat) (dir : ν) (name : Name) : Except Errno ν :=
  match history.fault t with
  | some errno => .error errno
  | none =>
      if history.fileType dir ≠ .directory then .error .notdir
      else
        let found :=
          if SingleSegment name then history.entry t dir name else history.walk t dir name
        match found with
        | some inode => .ok inode
        | none => .error .noent

/-- `openat` with `O_NOFOLLOW`, and with `O_DIRECTORY` when asked for. -/
def openEntry (t : Nat) (dir : ν) (name : Name) (directory : Bool) : Except Errno ν :=
  match history.lookup t dir name with
  | .error errno => .error errno
  | .ok inode =>
      if history.fileType inode = .symlink then .error (history.linkErrno t)
      else if directory ∧ history.fileType inode ≠ .directory then .error .notdir
      else .ok inode

/-- `statat` with `AT_SYMLINK_NOFOLLOW`. -/
def statat (dir : ν) (name : Name) (p : Process ν) : Except Errno FileType × Process ν :=
  ((history.lookup p.clock dir name).map history.fileType, p.tick)

def openat (dir : ν) (name : Name) (directory : Bool) (p : Process ν) :
    Except Errno ν × Process ν :=
  match history.openEntry p.clock dir name directory with
  | .ok inode =>
      (.ok inode, p.tick.record { instant := p.clock, dir := dir, name := name, inode := inode })
  | .error errno => (.error errno, p.tick)

def fstat (fd : ν) (p : Process ν) : Except Errno (FileType × α) × Process ν :=
  match history.fault p.clock with
  | some errno => (.error errno, p.tick)
  | none => (.ok (history.fileType fd, history.attributes p.clock fd), p.tick)

/-- A duplicate of a descriptor is one of the same inode. -/
def dup (fd : ν) (p : Process ν) : Except Errno ν × Process ν :=
  match history.fault p.clock with
  | some errno => (.error errno, p.tick)
  | none => (.ok fd, p.tick)

/-- The opens lead from one inode to another, each through the entry that stood
in its directory at its own instant, never through a link, and each later than
the one before. All of them happened before the given instant. -/
inductive Chain (root : ν) : List (Open ν) → ν → Nat → Prop where
  | nil (t : Nat) : Chain root [] root t
  | snoc {opens : List (Open ν)} {t now : Nat} (link : Open ν)
      (hChain : Chain root opens link.dir t) (hAfter : t ≤ link.instant)
      (hEntry : history.entry link.instant link.dir link.name = some link.inode)
      (hType : history.fileType link.inode ≠ .symlink) (hNow : link.instant < now) :
      Chain root (opens ++ [link]) link.inode now

variable {history} {root dir inode : ν} {name : Name} {t : Nat} {opens : List (Open ν)}

theorem Chain.mono {now : Nat} (hChain : history.Chain root opens inode t) (hLe : t ≤ now) :
    history.Chain root opens inode now := by
  cases hChain with
  | nil => exact .nil now
  | snoc link hBefore hAfter hEntry hType hNow =>
      exact .snoc link hBefore hAfter hEntry hType (hNow.trans_le hLe)

/-- A single segment names the entry of that instant and nothing else. -/
theorem entry_of_lookup (hName : SingleSegment name)
    (hLookup : history.lookup t dir name = .ok inode) :
    history.entry t dir name = some inode := by
  unfold lookup at hLookup
  cases hFault : history.fault t with
  | some errno => simp [hFault] at hLookup
  | none =>
      simp only [hFault, hName, ↓reduceIte] at hLookup
      split_ifs at hLookup
      cases hEntry : history.entry t dir name with
      | none => simp [hEntry] at hLookup
      | some found =>
          simp only [hEntry, Except.ok.injEq] at hLookup
          rw [hLookup]

theorem openEntry_eq_ok {directory : Bool} :
    history.openEntry t dir name directory = .ok inode ↔
      history.lookup t dir name = .ok inode ∧ history.fileType inode ≠ .symlink ∧
        (directory = true → history.fileType inode = .directory) := by
  unfold openEntry
  cases hLookup : history.lookup t dir name with
  | error errno => simp
  | ok found =>
      simp only [Except.ok.injEq]
      constructor
      · intro hOpen
        split_ifs at hOpen with hLink hDirectory
        obtain rfl := Except.ok.inj hOpen
        exact ⟨rfl, hLink, fun hFlag => by_contra fun hType => hDirectory ⟨hFlag, hType⟩⟩
      · rintro ⟨rfl, hLink, hDirectory⟩
        rw [if_neg hLink, if_neg fun hBoth => hBoth.2 (hDirectory hBoth.1)]

/-- An open extends the chain by the entry it found, whatever was looked up
there before. -/
theorem Chain.openat {directory : Bool} {p done : Process ν} (hName : SingleSegment name)
    (hChain : history.Chain root p.opens dir p.clock)
    (hOpen : history.openat dir name directory p = (.ok inode, done)) :
    history.Chain root done.opens inode done.clock ∧
      done.opens.map Open.name = p.opens.map Open.name ++ [name] ∧
      (directory = true → history.fileType inode = .directory) := by
  unfold History.openat at hOpen
  cases hEntry : history.openEntry p.clock dir name directory with
  | error errno => simp [hEntry] at hOpen
  | ok found =>
      simp only [hEntry, Prod.mk.injEq, Except.ok.injEq] at hOpen
      obtain ⟨rfl, rfl⟩ := hOpen
      obtain ⟨hLookup, hLink, hDirectory⟩ := openEntry_eq_ok.mp hEntry
      refine ⟨?_, by simp, hDirectory⟩
      exact .snoc ⟨p.clock, dir, name, found⟩ hChain le_rfl
        (entry_of_lookup hName hLookup) hLink (Nat.lt_succ_self _)

theorem fstat_eq_ok {fd : ν} {fileType : FileType} {attributes : α} {p done : Process ν}
    (hStat : history.fstat fd p = (.ok (fileType, attributes), done)) :
    history.fileType fd = fileType ∧ done = p.tick := by
  unfold fstat at hStat
  cases hFault : history.fault p.clock with
  | some errno => simp [hFault] at hStat
  | none =>
      simp only [hFault, Prod.mk.injEq, Except.ok.injEq] at hStat
      exact ⟨hStat.1.1, hStat.2.symm⟩

end History

end Posix
