import Eggserve.Primitives.ResponsePlan

/-! Body sources. A source owns the file handle that path resolution opened;
every read sets the cursor first, so a source reads the same bytes whatever was
read before. -/
namespace Eggserve.Primitives
open Rust

/-- An open file: its bytes and the cursor of the handle. -/
structure File where
  content : List UInt8
  cursor : Nat
  deriving DecidableEq

inductive IoError where
  | invalidInput (message : Str)
  | unexpectedEof
  deriving DecidableEq

/-- The word size of the machine. Rust requires at least 16 bits. -/
structure Machine where
  usizeMax : Nat
  word : 2 ^ 16 - 1 ≤ usizeMax

namespace Machine

/-- `isize::MAX`, the largest allocation. -/
def isizeMax (machine : Machine) : Nat := machine.usizeMax / 2

/-- `usize::checked_add`. The operator `+` panics where this gives `none`. -/
def checkedAdd (machine : Machine) (a b : Nat) : Option Nat :=
  if a + b ≤ machine.usizeMax then some (a + b) else none

def checkedMul (machine : Machine) (a b : Nat) : Option Nat :=
  if a * b ≤ machine.usizeMax then some (a * b) else none

/-- `as usize`. -/
def asUsize (machine : Machine) (n : Nat) : Nat := (Word.mk machine.usizeMax n).get

/-- `vec![0u8; len]`: a longer vector is a capacity overflow. -/
def zeroed (machine : Machine) (len : Nat) : MayPanic Unit :=
  if len ≤ machine.isizeMax then some () else none

end Machine

namespace File

def seek (file : File) (offset : Nat) : File := { file with cursor := offset }

/-- The bytes at the cursor, at most `len` of them. -/
def upcoming (file : File) (len : Nat) : List UInt8 := (file.content.drop file.cursor).take len

def advance (file : File) (len : Nat) : File := { file with cursor := file.cursor + len }

def readExact (file : File) (len : Nat) : Except IoError (List UInt8) × File :=
  let bytes := file.upcoming len
  if bytes.length = len then (.ok bytes, file.advance len)
  else (.error .unexpectedEof, file.advance bytes.length)

def readToEnd (file : File) : List UInt8 × File :=
  (file.content.drop file.cursor, { file with cursor := max file.cursor file.content.length })

/-- The sequence every bounded read ends with: seek, convert the length,
allocate, read. -/
def readAt (machine : Machine) (file : File) (start len : Nat) (tooLarge : Str) :
    MayPanic (Except IoError (List UInt8) × File) :=
  let file := file.seek start
  if len > machine.usizeMax then some (.error (.invalidInput tooLarge), file)
  else (machine.zeroed len).map fun _ => file.readExact len

end File

inductive BodySourceError where
  | invalidRange
  | alreadyConsumed
  deriving DecidableEq, Repr

/-- A response body that owns its data. -/
inductive BodySource where
  | empty
  | bytes (data : List UInt8)
  | fileFull (file : File) (len : Nat) (mime : Str)
  | fileRange (file : File) (range : FileRange) (totalLen : Nat) (mime : Str)
  deriving DecidableEq

namespace BodySource

/-- The length of the response, not of the file. -/
def len : BodySource → Nat
  | empty => 0
  | bytes data => data.length
  | fileFull _ len _ => len
  | fileRange _ range _ _ => range.len

/-- The outcome of a read with the source as the read leaves it. -/
abbrev ReadResult := MayPanic (Except IoError (List UInt8) × BodySource)

def readAll (machine : Machine) : BodySource → ReadResult
  | empty => some (.ok [], empty)
  | bytes data => some (.ok data, bytes data)
  | fileFull file len mime =>
      let (data, file) := (file.seek 0).readToEnd
      some (.ok data, fileFull file len mime)
  | fileRange file range totalLen mime =>
      (file.readAt machine range.start range.len "body range too large").map
        fun (result, file) => (result, fileRange file range totalLen mime)

/-- The body cut at `maxBytes`. -/
def readAllBounded (machine : Machine) (maxBytes : Nat) : BodySource → ReadResult
  | empty => some (.ok [], empty)
  | bytes data => some (.ok (data.take (min data.length maxBytes)), bytes data)
  | fileFull file len mime =>
      (machine.zeroed maxBytes).map fun _ =>
        let file := file.seek 0
        let data := file.upcoming maxBytes
        (.ok data, fileFull (file.advance data.length) len mime)
  | fileRange file range totalLen mime =>
      let file := file.seek range.start
      if range.len > machine.usizeMax then
        some (.error (.invalidInput "body range too large"),
          fileRange file range totalLen mime)
      else
        (machine.zeroed (min range.len maxBytes)).map fun _ =>
          let (result, file) := file.readExact (min range.len maxBytes)
          (result, fileRange file range totalLen mime)

/-- A sub-range of the body; offsets are absolute in a file and relative in a
range. -/
def readRange (machine : Machine) (source : BodySource) (start endInclusive : Nat) : ReadResult :=
  let fail (message : Str) : ReadResult := some (.error (.invalidInput message), source)
  if endInclusive < start then some (.ok [], source)
  else
    match source with
    | empty => some (.ok [], source)
    | bytes data =>
        if start > machine.usizeMax then fail "start offset too large"
        else match checkedAdd endInclusive 1 with
          | none => fail "end offset too large"
          | some stop =>
              if stop > machine.usizeMax then fail "end offset too large"
              else if start ≥ data.length then some (.ok [], source)
              else some (.ok ((data.take (min stop data.length)).drop start), source)
    | fileFull file len mime =>
        if start ≥ len then fail "read start exceeds file length"
        else if endInclusive ≥ len then fail "read end exceeds file length"
        else match (checkedSub endInclusive start).bind (checkedAdd · 1) with
          | none => fail "invalid range"
          | some requestLen =>
              (file.readAt machine start (min requestLen (len - start)) "read range too large").map
                fun (result, file) => (result, fileFull file len mime)
    | fileRange file range totalLen mime =>
        match (checkedSub endInclusive start).bind (checkedAdd · 1) with
        | none => fail "invalid range"
        | some subLen =>
            if subLen > range.len then fail "sub-range exceeds body range"
            else match checkedAdd range.start start with
              | none => fail "absolute offset overflow"
              | some absoluteStart =>
                  match (checkedAdd absoluteStart subLen).bind (checkedSub · 1) with
                  | none => fail "absolute offset overflow"
                  | some absoluteEnd =>
                      if absoluteEnd > range.endInclusive then fail "sub-range exceeds body range"
                      else
                        (file.readAt machine absoluteStart subLen "sub-range too large").map
                          fun (result, file) => (result, fileRange file range totalLen mime)

end BodySource

/-- A read that fits the machine and the file returns the bytes asked for. -/
theorem File.readAt_of_le {machine : Machine} {file : File} {start len : Nat} (tooLarge : Str)
    (hLen : len ≤ machine.isizeMax) (hFile : start + len ≤ file.content.length) :
    file.readAt machine start len tooLarge =
      some (.ok ((file.content.drop start).take len), { file with cursor := start + len }) := by
  have hWord : ¬len > machine.usizeMax := by
    have := Nat.div_le_self machine.usizeMax 2
    rw [Machine.isizeMax] at hLen
    omega
  have hBytes : ((file.content.drop start).take len).length = len := by
    rw [List.length_take, List.length_drop]
    omega
  simp [File.readAt, hWord, Machine.zeroed, hLen, File.readExact, File.upcoming, File.seek,
    hBytes, File.advance]

/-- Any sub-range of a range body is read at its place in the file. -/
theorem BodySource.readRange_fileRange {machine : Machine} {file : File} {range : FileRange}
    {first last : Nat} (totalLen : Nat) (mime : Str) (hOrder : first ≤ last)
    (hEnd : range.endInclusive < u64Max) (hLast : range.start + last ≤ range.endInclusive)
    (hFile : range.endInclusive < file.content.length)
    (hLen : last - first + 1 ≤ machine.isizeMax) :
    ((fileRange file range totalLen mime).readRange machine first last).map Prod.fst =
      some (.ok ((file.content.drop (range.start + first)).take (last - first + 1))) := by
  have hSub := checkedSub_bind_checkedAdd_one hOrder (show last < u64Max by omega)
  have hRange : range.len = range.endInclusive - range.start + 1 := by
    have hChecked := checkedLen_of_le (show range.start ≤ range.endInclusive by omega) hEnd
    simp [FileRange.len, hChecked]
  have hStart : checkedAdd range.start first = some (range.start + first) :=
    checkedAdd_of_le (by omega)
  have hStop : (checkedAdd (range.start + first) (last - first + 1)).bind (checkedSub · 1) =
      some (range.start + last) := by
    have hEq : range.start + first + (last - first + 1) = range.start + last + 1 := by omega
    rw [checkedAdd_of_le (by omega), hEq, Option.bind_some]
    exact checkedSub_of_le (Nat.succ_pos _)
  have hRead : file.readAt machine (range.start + first) (last - first + 1) "sub-range too large" =
      some (.ok ((file.content.drop (range.start + first)).take (last - first + 1)), _) :=
    File.readAt_of_le _ hLen (by omega)
  have hFits : ¬last - first + 1 > range.len := by omega
  simp only [readRange, Nat.not_lt.mpr hOrder, hSub, hFits, hStart, hStop, Nat.not_lt.mpr hLast,
    ↓reduceIte, hRead, Option.map_some]

theorem Machine.one_le_isizeMax (machine : Machine) : 1 ≤ machine.isizeMax := by
  have := machine.word
  rw [Machine.isizeMax]
  omega

namespace BodySource

/-- The source stands for `count` bytes of the file from `first` on: that is
its length, each byte can be read in its place, and reading it whole gives all
of them if the machine can hold them in one buffer. -/
structure Carries (machine : Machine) (source : BodySource) (content : List UInt8)
    (first count : Nat) : Prop where
  len_eq : source.len = count
  readAll_eq : count ≤ machine.isizeMax →
    (source.readAll machine).map Prod.fst = some (.ok ((content.drop first).take count))
  readByte_eq : ∀ index < count,
    (source.readRange machine index index).map Prod.fst =
      some (.ok ((content.drop (first + index)).take 1))

theorem carries_fileRange (machine : Machine) {file : File} {range : FileRange} (totalLen : Nat)
    (mime : Str) (hOrder : range.start ≤ range.endInclusive)
    (hFile : range.endInclusive < file.content.length) (hEnd : range.endInclusive < u64Max) :
    (fileRange file range totalLen mime).Carries machine file.content range.start
      (range.endInclusive - range.start + 1) := by
  have hLen : range.len = range.endInclusive - range.start + 1 := by
    simp [FileRange.len, checkedLen_of_le hOrder hEnd]
  refine ⟨hLen, fun hFits => ?_, fun index hIndex => ?_⟩
  · have hRead : file.readAt machine range.start range.len "body range too large" =
        some (.ok ((file.content.drop range.start).take range.len), _) :=
      File.readAt_of_le _ (by omega) (by omega)
    rw [← hLen]
    simp only [readAll, hRead, Option.map_some]
  · have hOne := machine.one_le_isizeMax
    have hRead := @readRange_fileRange machine file range index index totalLen mime
      (Nat.le_refl index) hEnd (by omega) hFile (by omega)
    simpa using hRead

theorem carries_fileFull (machine : Machine) (file : File) (mime : Str) :
    (fileFull file file.content.length mime).Carries machine file.content 0
      file.content.length := by
  refine ⟨rfl, fun _ => ?_, fun index hIndex => ?_⟩
  · simp [readAll, File.readToEnd, File.seek]
  · have hRead : file.readAt machine index 1 "read range too large" =
        some (.ok ((file.content.drop index).take 1), _) :=
      File.readAt_of_le _ machine.one_le_isizeMax (by omega)
    have hRequest : (checkedSub index index).bind (checkedAdd · 1) = some 1 := by
      simp [checkedSub, checkedAdd, u64Max]
    have hMin : min 1 (file.content.length - index) = 1 := by omega
    simp only [readRange, Nat.lt_irrefl, ↓reduceIte, Nat.not_le.mpr hIndex, hRequest,
      hMin, hRead, Option.map_some, Nat.zero_add]

end BodySource

end Eggserve.Primitives
