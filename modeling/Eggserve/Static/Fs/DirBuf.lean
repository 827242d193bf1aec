import Mathlib.Data.List.GetD
import Eggserve.Primitives.Body
import Eggserve.Rust.Encoding
import Eggserve.Rust.Panicking

/-! The parser of directory buffers. It follows offsets that stand in the buffer itself, so
every sum is checked and every index is partial here. -/
namespace Eggserve.Static.DirBuf
open Rust Eggserve.Primitives

/-! The record layout. -/

def fileAttributeReparsePoint : Nat := 0x400

def fileAttributeDirectory : Nat := 0x10

def fileNameLengthOffset : Nat := 60

def fileAttributesOffset : Nat := 56

def fileIdOffset : Nat := 96

def fileNameOffset : Nat := 104

/-- The fixed header in front of the name. -/
def headerSize : Nat := fileNameOffset

inductive DirectoryEntryKind where
  | file
  | directory
  | reparsePoint
  | other
  deriving DecidableEq, Repr

structure DirectoryEntryRecord where
  name : Str
  kind : DirectoryEntryKind
  fileId : Option Nat
  hiddenOrDot : Bool
  deriving DecidableEq, Repr

inductive DirBufParseError where
  | bufferOverflow
  | truncatedHeader
  | oddFileNameLength
  | fileNameOutOfRange
  | offsetUnderflow
  | offsetOverflow
  | offsetLoop
  | invalidUtf16
  deriving DecidableEq, Repr

/-- A slice is an allocation, and no allocation is larger than `isize::MAX`. -/
structure ByteSlice (machine : Machine) where
  bytes : List UInt8
  fits : bytes.length ≤ machine.isizeMax

/-- The fields of a record that are read. -/
structure DirInfo where
  nextEntryOffset : Nat
  attributes : Nat
  fileId : Nat
  name : Str
  deriving DecidableEq

namespace DirInfo

def isPseudo (info : DirInfo) : Bool := info.name = "." || info.name = ".."

def kind (info : DirInfo) : DirectoryEntryKind :=
  if info.attributes &&& fileAttributeReparsePoint ≠ 0 then .reparsePoint
  else if info.attributes &&& fileAttributeDirectory ≠ 0 then .directory
  else .file

def entry (info : DirInfo) : DirectoryEntryRecord where
  name := info.name
  kind := info.kind
  fileId := some info.fileId
  hiddenOrDot := info.name.head? = some '.'

/-- The entries that the record adds to the listing: itself, unless it is `.` or `..`. -/
def listed (info : DirInfo) : List DirectoryEntryRecord :=
  if info.isPseudo then [] else [info.entry]

theorem length_listed_le (info : DirInfo) : info.listed.length ≤ 1 := by
  unfold listed
  split_ifs <;> simp

end DirInfo

/-- The state of the loop. -/
structure Walk where
  offset : Nat
  entries : List DirectoryEntryRecord
  deriving DecidableEq

/-- How one turn of the loop ends. -/
inductive Turn where
  | stop (entries : List DirectoryEntryRecord)
  | next (walk : Walk)
  deriving DecidableEq

abbrev Parsing (α : Type) := Panicking DirBufParseError α

section

variable (machine : Machine)

/-- The operator `+`. -/
def plus (a b : Nat) : Parsing Nat := Panicking.ofMayPanic (machine.checkedAdd a b)

/-- The operator `*`. -/
def times (a b : Nat) : Parsing Nat := Panicking.ofMayPanic (machine.checkedMul a b)

/-- A little-endian integer, byte by byte. -/
def readLe (buffer : List UInt8) (start count : Nat) : Parsing Nat := do
  let bytes ← (List.range count).mapM fun i => do
    let position ← plus machine start i
    Panicking.index buffer position
  return fromLeBytes bytes

def readUnits (buffer : List UInt8) (nameStart fileNameLength : Nat) : Parsing (List Nat) :=
  (List.range (fileNameLength / 2)).mapM fun i => do
    let distance ← times machine i 2
    let position ← plus machine nameStart distance
    readLe machine buffer position 2

def advanceOffset (offset nextEntryOffset totalLen : Nat) : Parsing Nat := do
  let nextOffset ← Panicking.ofExcept (okOr (machine.checkedAdd offset nextEntryOffset) .offsetOverflow)
  Panicking.ofExcept (failIf (totalLen ≤ nextOffset) .offsetOverflow)
  let distance ← Panicking.ofMayPanic (checkedSub nextOffset offset)
  Panicking.ofExcept (failIf (distance < headerSize) .offsetUnderflow)
  return nextOffset

/-- From the check of the header to the decoding of the name. -/
def readRecord (buffer : List UInt8) (offset : Nat) : Parsing DirInfo := do
  Panicking.ofExcept (failIf ((machine.checkedAdd offset headerSize).all
    (fun stop => buffer.length < stop) = true) .truncatedHeader)
  let nextEntryOffset ← readLe machine buffer offset 4
  let nextEntryOffset := machine.asUsize nextEntryOffset
  let nameLengthOffset ← plus machine offset fileNameLengthOffset
  let fileNameLength ← readLe machine buffer nameLengthOffset 4
  let fileNameLength := machine.asUsize fileNameLength
  Panicking.ofExcept (failIf (fileNameLength % 2 ≠ 0) .oddFileNameLength)
  let nameStart ← Panicking.ofExcept (okOr (machine.checkedAdd offset headerSize) .fileNameOutOfRange)
  let nameEnd ← Panicking.ofExcept
    (okOr (machine.checkedAdd nameStart fileNameLength) .fileNameOutOfRange)
  Panicking.ofExcept (failIf (buffer.length < nameEnd) .fileNameOutOfRange)
  let attrsOffset ← plus machine offset fileAttributesOffset
  let fileAttributes ← readLe machine buffer attrsOffset 4
  let fileIndexOffset ← plus machine offset fileIdOffset
  let fileIndex ← readLe machine buffer fileIndexOffset 8
  let nameU16 ← readUnits machine buffer nameStart fileNameLength
  let name ← Panicking.ofExcept (okOr (fromUtf16 nameU16) .invalidUtf16)
  return ⟨nextEntryOffset, fileAttributes, fileIndex, name⟩

/-- The body of the loop. -/
def turn (buffer : List UInt8) (maxEntries : Nat) (walk : Walk) : Parsing Turn :=
  if buffer.length ≤ walk.offset then return .stop walk.entries
  else if maxEntries ≤ walk.entries.length then return .stop walk.entries
  else do
    let info ← readRecord machine buffer walk.offset
    if info.isPseudo then
      if info.nextEntryOffset = 0 then return .stop walk.entries
      else do
        let offset ← advanceOffset machine walk.offset info.nextEntryOffset buffer.length
        return .next ⟨offset, walk.entries⟩
    else
      let entries := walk.entries ++ [info.entry]
      if maxEntries ≤ entries.length then return .stop entries
      else if info.nextEntryOffset = 0 then return .stop entries
      else do
        let offset ← advanceOffset machine walk.offset info.nextEntryOffset buffer.length
        return .next ⟨offset, entries⟩

/-! The same without panics, on the bytes as a whole. -/

def field (bytes : List UInt8) (start count : Nat) : Nat :=
  fromLeBytes ((bytes.drop start).take count)

def unitsAt (bytes : List UInt8) (start count : Nat) : List Nat :=
  (List.range count).map fun i => field bytes (start + i * 2) 2

def nextRecord (totalLen offset nextEntryOffset : Nat) : Except DirBufParseError Nat := do
  failIf (totalLen ≤ offset + nextEntryOffset) .offsetOverflow
  failIf (nextEntryOffset < headerSize) .offsetUnderflow
  return offset + nextEntryOffset

def recordAt (bytes : List UInt8) (offset : Nat) : Except DirBufParseError DirInfo := do
  failIf (bytes.length < offset + headerSize) .truncatedHeader
  let fileNameLength := machine.asUsize (field bytes (offset + fileNameLengthOffset) 4)
  failIf (fileNameLength % 2 ≠ 0) .oddFileNameLength
  failIf (bytes.length < offset + headerSize + fileNameLength) .fileNameOutOfRange
  let name ← okOr (fromUtf16 (unitsAt bytes (offset + headerSize) (fileNameLength / 2))) .invalidUtf16
  return ⟨machine.asUsize (field bytes offset 4), field bytes (offset + fileAttributesOffset) 4,
    field bytes (offset + fileIdOffset) 8, name⟩

def takeTurn (bytes : List UInt8) (maxEntries : Nat) (walk : Walk) : Except DirBufParseError Turn :=
  if bytes.length ≤ walk.offset ∨ maxEntries ≤ walk.entries.length then return .stop walk.entries
  else do
    let info ← recordAt machine bytes walk.offset
    let entries := walk.entries ++ info.listed
    if info.nextEntryOffset = 0 ∨ maxEntries ≤ entries.length then return .stop entries
    else do
      let offset ← nextRecord bytes.length walk.offset info.nextEntryOffset
      return .next ⟨offset, entries⟩

end

/-! No sum overflows and no index is out of bounds. -/

section

variable {machine : Machine} (buffer : ByteSlice machine)

theorem ByteSlice.length_le : 2 * buffer.bytes.length ≤ machine.usizeMax := by
  have hFits := buffer.fits
  rw [Machine.isizeMax] at hFits
  omega

theorem plus_bind {α : Type} {a b : Nat} (h : a + b ≤ machine.usizeMax) (f : Nat → Parsing α) :
    (plus machine a b >>= f) = f (a + b) := by
  rw [plus, Machine.checkedAdd, if_pos h, Panicking.ofMayPanic_some_bind]

theorem readLe_eq {start count : Nat} (h : start + count ≤ buffer.bytes.length) :
    readLe machine buffer.bytes start count = pure (field buffer.bytes start count) := by
  have hWord := buffer.length_le
  have hBytes : ∀ i ∈ List.range count, (do
      let position ← plus machine start i
      Panicking.index buffer.bytes position : Parsing UInt8) =
        pure (buffer.bytes.getD (start + i) 0) := by
    intro i hi
    have hLess := List.mem_range.mp hi
    have hIndex : start + i < buffer.bytes.length := by omega
    rw [plus_bind (by omega), Panicking.index, List.getElem?_eq_getElem hIndex,
      List.getD_eq_getElem _ _ hIndex]
    rfl
  have hMap : (List.range count).map (fun i => buffer.bytes.getD (start + i) 0) =
      (buffer.bytes.drop start).take count := by
    refine List.ext_getElem (by simp; omega) fun i hi hi' => ?_
    rw [List.length_map, List.length_range] at hi
    rw [List.getElem_map, List.getElem_range, List.getElem_take, List.getElem_drop,
      List.getD_eq_getElem _ _ (by omega)]
  rw [readLe, Panicking.mapM_eq_pure hBytes, pure_bind, hMap, field]

theorem readUnits_eq {start len : Nat} (hEven : len % 2 = 0)
    (h : start + len ≤ buffer.bytes.length) :
    readUnits machine buffer.bytes start len = pure (unitsAt buffer.bytes start (len / 2)) := by
  have hWord := buffer.length_le
  refine Panicking.mapM_eq_pure fun i hi => ?_
  have hLess := List.mem_range.mp hi
  rw [times, Machine.checkedMul, if_pos (by omega), Panicking.ofMayPanic_some_bind,
    plus_bind (by omega), readLe_eq buffer (by omega)]

theorem advanceOffset_eq (offset next : Nat) :
    advanceOffset machine offset next buffer.bytes.length =
      Panicking.ofExcept (nextRecord buffer.bytes.length offset next) := by
  have hWord := buffer.length_le
  rw [advanceOffset, nextRecord, Machine.checkedAdd]
  by_cases hFits : offset + next ≤ machine.usizeMax
  · rw [if_pos hFits]
    simp only [okOr]
    rw [Panicking.ofExcept_ok_bind]
    refine Panicking.bind_ofExcept fun _ _ => ?_
    rw [checkedSub_of_le (Nat.le_add_right _ _), Panicking.ofMayPanic_some_bind,
      Nat.add_sub_cancel_left]
    exact Panicking.bind_ofExcept fun _ _ => rfl
  · have hPast : buffer.bytes.length ≤ offset + next := by omega
    rw [if_neg hFits, failIf, if_pos hPast]
    rfl

/-- A checked sum that has to be within the buffer. -/
theorem checkedEnd_bind {α : Type} (a b : Nat) (e : DirBufParseError) (f : Unit → Parsing α) :
    (Panicking.ofExcept (okOr (machine.checkedAdd a b) e) >>= fun stop =>
      Panicking.ofExcept (failIf (buffer.bytes.length < stop) e) >>= f) =
        (Panicking.ofExcept (failIf (buffer.bytes.length < a + b) e) >>= f) := by
  have hWord := buffer.length_le
  rw [Machine.checkedAdd]
  split_ifs with hFits
  · simp only [okOr]
    rw [Panicking.ofExcept_ok_bind]
  · rw [failIf, if_pos (show buffer.bytes.length < a + b by omega)]
    rfl

theorem readRecord_eq (offset : Nat) :
    readRecord machine buffer.bytes offset =
      Panicking.ofExcept (recordAt machine buffer.bytes offset) := by
  have hWord := buffer.length_le
  have hHeader : (machine.checkedAdd offset headerSize).all
      (fun stop => buffer.bytes.length < stop) = true ↔
        buffer.bytes.length < offset + headerSize := by
    rw [Machine.checkedAdd]
    split_ifs with hFits
    · simp
    · simp only [Option.all_none, true_iff]
      omega
  rw [readRecord, recordAt, failIf_congr hHeader]
  refine Panicking.bind_ofExcept fun _ hIn => ?_
  have hIn := Nat.not_lt.mp (failIf_eq_ok.mp hIn)
  have hSize : headerSize = 104 := rfl
  rw [hSize] at hIn
  rw [readLe_eq buffer (by omega), pure_bind, plus_bind (by rw [fileNameLengthOffset]; omega),
    readLe_eq buffer (by rw [fileNameLengthOffset]; omega), pure_bind]
  dsimp only
  generalize machine.asUsize (field buffer.bytes (offset + fileNameLengthOffset) 4) = nameLength
  refine Panicking.bind_ofExcept fun _ hEven => ?_
  have hEven : nameLength % 2 = 0 := not_not.mp (failIf_eq_ok.mp hEven)
  have hStart : okOr (machine.checkedAdd offset 104) DirBufParseError.fileNameOutOfRange =
      .ok (offset + 104) := by
    rw [Machine.checkedAdd, if_pos (by omega)]
    rfl
  rw [hSize, hStart, Panicking.ofExcept_ok_bind, checkedEnd_bind]
  refine Panicking.bind_ofExcept fun _ hName => ?_
  have hName := Nat.not_lt.mp (failIf_eq_ok.mp hName)
  rw [plus_bind (by rw [fileAttributesOffset]; omega),
    readLe_eq buffer (by rw [fileAttributesOffset]; omega), pure_bind,
    plus_bind (by rw [fileIdOffset]; omega), readLe_eq buffer (by rw [fileIdOffset]; omega),
    pure_bind, readUnits_eq buffer hEven hName, pure_bind]
  exact Panicking.bind_ofExcept fun _ _ => rfl

/-- What one turn does, without a panic. -/
theorem turn_eq (maxEntries : Nat) (walk : Walk) :
    turn machine buffer.bytes maxEntries walk =
      Panicking.ofExcept (takeTurn machine buffer.bytes maxEntries walk) := by
  rw [turn, takeTurn]
  by_cases hEnd : buffer.bytes.length ≤ walk.offset
  · rw [if_pos hEnd, if_pos (Or.inl hEnd)]
    rfl
  by_cases hBudget : maxEntries ≤ walk.entries.length
  · rw [if_neg hEnd, if_pos hBudget, if_pos (Or.inr hBudget)]
    rfl
  rw [if_neg hEnd, if_neg hBudget, if_neg (not_or.mpr ⟨hEnd, hBudget⟩), readRecord_eq]
  refine Panicking.bind_ofExcept fun info _ => ?_
  dsimp only
  cases hPseudo : info.isPseudo with
  | true =>
      have hListed : info.listed = [] := if_pos hPseudo
      rw [if_pos rfl, hListed, List.append_nil]
      by_cases hNext : info.nextEntryOffset = 0
      · rw [if_pos hNext, if_pos (Or.inl hNext)]
        rfl
      · rw [if_neg hNext, if_neg (not_or.mpr ⟨hNext, hBudget⟩), advanceOffset_eq]
        exact Panicking.bind_ofExcept fun _ _ => rfl
  | false =>
      have hListed : info.listed = [info.entry] := if_neg (ne_true_of_eq_false hPseudo)
      rw [if_neg Bool.false_ne_true, hListed]
      by_cases hFull : maxEntries ≤ (walk.entries ++ [info.entry]).length
      · rw [if_pos hFull, if_pos (Or.inr hFull)]
        rfl
      by_cases hNext : info.nextEntryOffset = 0
      · rw [if_neg hFull, if_pos hNext, if_pos (Or.inl hNext)]
        rfl
      · rw [if_neg hFull, if_neg hNext, if_neg (not_or.mpr ⟨hNext, hFull⟩), advanceOffset_eq]
        exact Panicking.bind_ofExcept fun _ _ => rfl

theorem nextRecord_eq_ok {totalLen offset next found : Nat} :
    nextRecord totalLen offset next = .ok found ↔
      offset + next < totalLen ∧ headerSize ≤ next ∧ found = offset + next := by
  rw [nextRecord, check_bind_eq_ok, failIf_eq_ok, check_bind_eq_ok, failIf_eq_ok, not_le, not_lt]
  exact and_congr_right fun _ => and_congr_right fun _ =>
    ⟨fun h => (Except.ok.inj h).symm, fun h => congrArg Except.ok h.symm⟩

/-- The offset grows by a header at least, so the loop ends. -/
theorem takeTurn_next {bytes : List UInt8} {maxEntries : Nat} {walk after : Walk}
    (h : takeTurn machine bytes maxEntries walk = .ok (.next after)) :
    walk.offset + headerSize ≤ after.offset ∧ after.offset < bytes.length := by
  rw [takeTurn] at h
  split_ifs at h with hStop
  · cases h
  · obtain ⟨info, -, h⟩ := bind_eq_ok.mp h
    dsimp only at h
    split_ifs at h
    · cases h
    · obtain ⟨offset, hOffset, hPure⟩ := bind_eq_ok.mp h
      obtain ⟨hIn, hFar, rfl⟩ := nextRecord_eq_ok.mp hOffset
      cases hPure
      exact ⟨Nat.add_le_add_left hFar _, hIn⟩

/-- The loop from a state on. -/
def walkFrom (maxEntries : Nat) (walk : Walk) : Parsing (List DirectoryEntryRecord) :=
  match _h : (turn machine buffer.bytes maxEntries walk).run with
  | none => ExceptT.mk none
  | some (.error e) => throw e
  | some (.ok (.stop entries)) => return entries
  | some (.ok (.next after)) => walkFrom maxEntries after
termination_by buffer.bytes.length - walk.offset
decreasing_by
  rw [turn_eq] at _h
  obtain ⟨hFar, hIn⟩ := takeTurn_next (Option.some.inj _h)
  have hSize : headerSize = 104 := rfl
  omega

def parseDirectoryBuffer (maxEntries : Nat) : Parsing (List DirectoryEntryRecord) :=
  walkFrom buffer maxEntries ⟨0, []⟩

/-! The parser as an unbounded scan that the budget cuts. -/

/-- All entries from an offset on, and the error behind them. -/
def scan (machine : Machine) (bytes : List UInt8) (offset : Nat) :
    List DirectoryEntryRecord × Option DirBufParseError :=
  if bytes.length ≤ offset then ([], none)
  else
    match recordAt machine bytes offset with
    | .error e => ([], some e)
    | .ok info =>
        if info.nextEntryOffset = 0 then (info.listed, none)
        else
          match _h : nextRecord bytes.length offset info.nextEntryOffset with
          | .error e => (info.listed, some e)
          | .ok next => (info.listed ++ (scan machine bytes next).1, (scan machine bytes next).2)
termination_by bytes.length - offset
decreasing_by
  all_goals
    obtain ⟨hIn, hFar, rfl⟩ := nextRecord_eq_ok.mp _h
    have hSize : headerSize = 104 := rfl
    omega

/-- An error behind enough entries is not seen. -/
def cut (budget : Nat) (found : List DirectoryEntryRecord × Option DirBufParseError) :
    Except DirBufParseError (List DirectoryEntryRecord) :=
  if budget ≤ found.1.length then .ok (found.1.take budget)
  else
    match found.2 with
    | none => .ok found.1
    | some e => .error e

@[simp] theorem cut_zero (found : List DirectoryEntryRecord × Option DirBufParseError) :
    cut 0 found = .ok [] := by
  rw [cut, if_pos (Nat.zero_le _), List.take_zero]

@[simp] theorem cut_whole (budget : Nat) (entries : List DirectoryEntryRecord) :
    cut budget (entries, none) = .ok (entries.take budget) := by
  unfold cut
  split_ifs with h
  · rfl
  · exact congrArg Except.ok (List.take_of_length_le (by omega)).symm

theorem cut_error {budget : Nat} (h : 0 < budget) (e : DirBufParseError) :
    cut budget ([], some e) = .error e := by
  exact if_neg (Nat.not_le.mpr h)

/-- Entries in front use up their part of the budget. -/
theorem cut_append {budget : Nat} {here : List DirectoryEntryRecord} (h : here.length ≤ budget)
    (found : List DirectoryEntryRecord × Option DirBufParseError) :
    cut budget (here ++ found.1, found.2) =
      (cut (budget - here.length) found).map (here ++ ·) := by
  unfold cut
  rw [List.length_append]
  by_cases hEnough : budget ≤ here.length + found.1.length
  · rw [if_pos hEnough, if_pos (Nat.sub_le_iff_le_add'.mpr hEnough), List.take_append,
      List.take_of_length_le h]
    rfl
  · rw [if_neg hEnough, if_neg (by omega)]
    cases found.2 <;> rfl

theorem cut_length_le {budget : Nat} {found : List DirectoryEntryRecord × Option DirBufParseError}
    {entries : List DirectoryEntryRecord} (h : cut budget found = .ok entries) :
    entries.length ≤ budget := by
  unfold cut at h
  split_ifs at h with hEnough
  · cases h
    exact List.length_take_le _ _
  · cases hError : found.2 with
    | none =>
        rw [hError] at h
        cases h
        exact Nat.le_of_not_le hEnough
    | some e =>
        rw [hError] at h
        cases h

/-- A smaller budget gives a front part. -/
theorem cut_of_le {budget smaller : Nat} (hLe : smaller ≤ budget)
    {found : List DirectoryEntryRecord × Option DirBufParseError}
    {entries : List DirectoryEntryRecord} (h : cut budget found = .ok entries) :
    cut smaller found = .ok (entries.take smaller) := by
  unfold cut at h
  split_ifs at h with hEnough
  · cases h
    rw [cut, if_pos (hLe.trans hEnough), List.take_take, Nat.min_eq_left hLe]
  · obtain ⟨all, error⟩ := found
    cases error with
    | none =>
        cases h
        exact cut_whole smaller all
    | some e => cases h

/-- What the loop returns from a state. -/
def outcome (machine : Machine) (bytes : List UInt8) (maxEntries : Nat) (walk : Walk) :
    Except DirBufParseError (List DirectoryEntryRecord) :=
  (cut (maxEntries - walk.entries.length) (scan machine bytes walk.offset)).map (walk.entries ++ ·)

theorem outcome_eq (bytes : List UInt8) (maxEntries : Nat) (walk : Walk) :
    outcome machine bytes maxEntries walk =
      match takeTurn machine bytes maxEntries walk with
      | .error e => .error e
      | .ok (.stop entries) => .ok entries
      | .ok (.next after) => outcome machine bytes maxEntries after := by
  rw [outcome, scan, takeTurn]
  by_cases hEnd : bytes.length ≤ walk.offset
  · rw [if_pos hEnd, if_pos (Or.inl hEnd), cut_whole, List.take_nil]
    exact congrArg Except.ok (List.append_nil _)
  by_cases hBudget : maxEntries ≤ walk.entries.length
  · rw [if_pos (Or.inr hBudget), Nat.sub_eq_zero_of_le hBudget, cut_zero]
    exact congrArg Except.ok (List.append_nil _)
  rw [if_neg hEnd, if_neg (not_or.mpr ⟨hEnd, hBudget⟩)]
  cases recordAt machine bytes walk.offset with
  | error e =>
      dsimp only
      rw [cut_error (by omega)]
      rfl
  | ok info =>
      have hSize := info.length_listed_le
      have hCut (found) : (cut (maxEntries - walk.entries.length)
          (info.listed ++ found.1, found.2)).map (walk.entries ++ ·) =
            (cut (maxEntries - (walk.entries ++ info.listed).length) found).map
              (walk.entries ++ info.listed ++ ·) := by
        rw [cut_append (by omega), List.length_append, ← Nat.sub_sub]
        cases cut (maxEntries - walk.entries.length - info.listed.length) found with
        | error e => rfl
        | ok rest => exact congrArg Except.ok (List.append_assoc _ _ _).symm
      dsimp only [bind, Except.bind]
      by_cases hNext : info.nextEntryOffset = 0
      · have hWhole := hCut ([], none)
        rw [List.append_nil, cut_whole _ [], List.take_nil] at hWhole
        rw [if_pos hNext, if_pos (Or.inl hNext), hWhole]
        exact congrArg Except.ok (List.append_nil _)
      rw [if_neg hNext]
      by_cases hStop : maxEntries ≤ (walk.entries ++ info.listed).length
      · -- The budget is used up, whatever follows.
        have hDone (found) := hCut found
        rw [Nat.sub_eq_zero_of_le hStop] at hDone
        simp only [cut_zero] at hDone
        rw [if_pos (Or.inr hStop)]
        split
        · rename_i e hNextRecord
          have hError := hDone ([], some e)
          rw [List.append_nil] at hError
          rw [hError]
          exact congrArg Except.ok (List.append_nil _)
        · rw [hDone]
          exact congrArg Except.ok (List.append_nil _)
      · rw [if_neg (not_or.mpr ⟨hNext, hStop⟩)]
        split
        · rename_i e hNextRecord
          have hError := hCut ([], some e)
          rw [List.append_nil, cut_error (by omega)] at hError
          rw [hError, hNextRecord]
          rfl
        · rename_i next hNextRecord
          rw [hCut, hNextRecord]
          rfl

theorem walkFrom_eq (maxEntries : Nat) (walk : Walk) :
    walkFrom buffer maxEntries walk =
      Panicking.ofExcept (outcome machine buffer.bytes maxEntries walk) := by
  fun_induction walkFrom buffer maxEntries walk with
  | case1 walk h =>
      rw [turn_eq] at h
      cases h
  | case2 walk e h =>
      rw [turn_eq] at h
      rw [outcome_eq, Option.some.inj h]
      rfl
  | case3 walk entries h =>
      rw [turn_eq] at h
      rw [outcome_eq, Option.some.inj h]
      rfl
  | case4 walk after h ih =>
      rw [turn_eq] at h
      rw [outcome_eq, Option.some.inj h]
      exact ih

end

end Eggserve.Static.DirBuf
