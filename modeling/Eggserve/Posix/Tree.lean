import Eggserve.Posix.History

/-! A directory graph that nobody rewrites, as the history that shows the same
entries at every instant. No call fails in it for reasons of its own, so every
call is a lookup. -/
namespace Posix

/-- The entries of `.` and `..`, which every scan of a directory yields. -/
def dotEntries : List Name := [[0x2e], [0x2e, 0x2e]]

/-- One state of a filesystem. A scan of a directory yields its entries in an
order of its own, each name once. -/
structure Tree (ν α : Type) where
  fileType : ν → FileType
  entry : ν → Name → Option ν
  walk : ν → Name → Option ν
  attributes : ν → α
  linkErrno : Errno
  names : ν → List Name
  names_nodup : ∀ dir, (names dir).Nodup
  names_single : ∀ dir, ∀ name ∈ names dir, name ∈ dotEntries ∨ SingleSegment name
  mem_names : ∀ dir name, fileType dir = .directory → SingleSegment name →
    (name ∈ names dir ↔ (entry dir name).isSome)

namespace Tree

variable {ν α : Type} (tree : Tree ν α)

/-- The history in which nothing ever changes. -/
def unchanged : History ν α where
  fileType := tree.fileType
  entry _ := tree.entry
  walk _ := tree.walk
  attributes _ := tree.attributes
  fault _ := none
  linkErrno _ := tree.linkErrno

/-- What scanning a descriptor yields. -/
def scan (dir : ν) : Except Errno (List (Except Errno Name)) :=
  if tree.fileType dir = .directory then .ok ((tree.names dir).map .ok) else .error .notdir

@[simp] theorem unchanged_fileType (inode : ν) :
    tree.unchanged.fileType inode = tree.fileType inode := rfl

/-- The instant of a lookup does not matter. -/
theorem lookup_unchanged (t : Nat) (dir : ν) (name : Name) :
    tree.unchanged.lookup t dir name = tree.unchanged.lookup 0 dir name := rfl

theorem statat_unchanged (dir : ν) (name : Name) (p q : Process ν) :
    (tree.unchanged.statat dir name p).1 = (tree.unchanged.statat dir name q).1 := rfl

theorem openat_unchanged (dir : ν) (name : Name) (directory : Bool) (p : Process ν) :
    (tree.unchanged.openat dir name directory p).1 =
      tree.unchanged.openEntry 0 dir name directory := by
  have hEntry : tree.unchanged.openEntry p.clock dir name directory =
      tree.unchanged.openEntry 0 dir name directory := rfl
  unfold History.openat
  rw [hEntry]
  cases tree.unchanged.openEntry 0 dir name directory <;> rfl

/-- In a directory, a single segment is looked up among the entries. -/
theorem lookup_eq_ok {t : Nat} {dir inode : ν} {name : Name}
    (hDir : tree.fileType dir = .directory) (hName : SingleSegment name) :
    tree.unchanged.lookup t dir name = .ok inode ↔ tree.entry dir name = some inode := by
  cases hEntry : tree.entry dir name with
  | none => simp [History.lookup, unchanged, hDir, hName, hEntry]
  | some found => simp [History.lookup, unchanged, hDir, hName, hEntry]

end Tree

end Posix
