import Eggserve.Server.FileBody
import Eggserve.Transition.Source

/-! The stream behind a file response. The file is positioned once; each poll then reads
one chunk from where the last one stopped, in as many reads as the system makes of it. -/
namespace Eggserve.Primitives
open Rust

/-- `i64::MAX`, the largest offset of a file. -/
def i64Max : Nat := 2 ^ 63 - 1

namespace BodySource

/-- What there is of the body, whatever length was recorded. -/
def stored : BodySource → List UInt8
  | empty => []
  | bytes data => data
  | fileFull file _ _ => file.content
  | fileRange file range _ _ => file.content.drop range.start

/-- Where the body begins in its file. -/
def fileStart : BodySource → Nat
  | fileRange _ range _ _ => range.start
  | _ => 0

/-- The values fit their types, and a file is not longer than its offsets go. -/
def Held (machine : Machine) : BodySource → Prop
  | empty => True
  | bytes data => data.length ≤ machine.isizeMax
  | fileFull file len _ => file.content.length ≤ i64Max ∧ len ≤ u64Max
  | fileRange file range _ _ => file.content.length ≤ i64Max ∧ range.endInclusive ≤ u64Max

end BodySource

/-- A range has the bytes between its ends, both included. -/
theorem FileRange.len_eq (range : FileRange) :
    range.len = range.endInclusive + 1 - range.start ∧ range.len ≤ u64Max := by
  have hLen : checkedLen range.start range.endInclusive = some range.len :=
    (Option.some_get range.len_isSome).symm
  unfold checkedLen at hLen
  split_ifs at hLen with hEmpty
  · have hNone : 0 = range.len := Option.some.inj hLen
    omega
  · rw [checkedSub_of_le (Nat.not_lt.mp hEmpty), Option.bind_some, checkedAdd,
      Option.ite_none_right_eq_some, Option.some.injEq] at hLen
    omega

end Eggserve.Primitives

namespace Eggserve.Server
open Rust Eggserve.Primitives

/-- A file with the sizes of the reads to come: each gets at most one byte more than
its number here, and none gets nothing before the end of the file. -/
structure OpenFile where
  file : File
  grants : Nat → Nat

namespace OpenFile

/-- A position that is no offset of a file is refused. -/
def seek (opened : OpenFile) (offset : Nat) : Except Primitives.IoError OpenFile :=
  if offset ≤ i64Max then .ok { opened with file := opened.file.seek offset }
  else .error (.invalidInput "Invalid argument (os error 22)")

instance : Source UInt8 OpenFile where
  read opened size :=
    let bytes := opened.file.upcoming (min size (opened.grants 0 + 1))
    (bytes, ⟨opened.file.advance bytes.length, fun turn => opened.grants (turn + 1)⟩)
  ahead opened := opened.file.content.drop opened.file.cursor

instance : LawfulSource UInt8 OpenFile where
  split opened size := by
    simp only [Source.read, Source.ahead, File.upcoming, File.advance, ← List.drop_drop]
    exact (List.prefix_append_drop (List.take_prefix _ _)).symm
  fits opened size := by
    simp only [Source.read, File.upcoming, List.length_take]
    omega
  ends opened size hSize hNone := by
    have hLength := congrArg List.length hNone
    simp only [Source.read, File.upcoming, List.length_take, List.length_nil] at hLength
    exact List.eq_nil_of_length_eq_zero (by simp only [Source.ahead]; omega)

end OpenFile

/-- Read until the chunk is complete or the file has ended. -/
def readFileChunk (opened : OpenFile) (buffer : List UInt8) (targetLen : Nat) :
    List UInt8 × OpenFile :=
  Source.fill opened targetLen buffer

/-- How a transfer ends. A transfer that is still running was not given enough turns. -/
inductive Ending (ε : Type) where
  | clean
  | failed (error : ε)
  | panicked
  | running
  deriving DecidableEq

/-- The chunks of a transfer, its ending, and the offsets and lengths it computed. -/
structure Transfer (ε : Type) where
  frames : List (List UInt8)
  ending : Ending ε
  words : List Word
  deriving DecidableEq

namespace Transfer

variable {ε : Type}

def stop (ending : Ending ε) : Transfer ε := ⟨[], ending, []⟩

/-- Frames in front of a transfer. -/
def sending (frames : List (List UInt8)) (transfer : Transfer ε) : Transfer ε :=
  { transfer with frames := frames ++ transfer.frames }

/-- Words in front of a transfer. -/
def noting (words : List Word) (transfer : Transfer ε) : Transfer ε :=
  { transfer with words := words ++ transfer.words }

/-- What was sent, and whether the transfer came to a clean end or to an error. -/
def Delivers (transfer : Transfer ε) (delivered : List UInt8 × Bool) : Prop :=
  transfer.frames.flatten = delivered.1 ∧
    if delivered.2 then transfer.ending = .clean else ∃ error, transfer.ending = .failed error

/-- Nothing is lost in the offsets and lengths. -/
def Exact (transfer : Transfer ε) : Prop := ∀ word ∈ transfer.words, word.Exact

end Transfer

/-- The state of the stream that `file_body` unfolds. -/
structure FileStream where
  file : OpenFile
  offset : Nat
  remaining : Nat
  needsSeek : Bool

inductive FilePoll where
  | finished
  | panicked
  | error (error : Primitives.IoError)
  | data (bytes : List UInt8) (next : FileStream)

namespace FileStream

/-- The file where the next chunk is read. -/
def positioned (s : FileStream) : Except Primitives.IoError OpenFile :=
  if s.needsSeek then s.file.seek s.offset else .ok s.file

/-- `remaining.min(stream_chunk_size as u64) as usize`, and the word it is read through. -/
def chunkLen (machine : Machine) (chunkSize : Nat) (s : FileStream) : Word :=
  ⟨machine.usizeMax, (min s.remaining (Word.mk u64Max chunkSize).get : Nat)⟩

def nextOffset (s : FileStream) (bytesRead : Nat) : Word := ⟨u64Max, s.offset + bytesRead⟩

def nextRemaining (s : FileStream) (bytesRead : Nat) : Word :=
  ⟨u64Max, (s.remaining : Int) - bytesRead⟩

/-- One turn of the unfold. After an error nothing remains. -/
def next (machine : Machine) (chunkSize : Nat) (s : FileStream) : FilePoll :=
  if s.remaining = 0 then .finished
  else
    match s.positioned with
    | .error error => .error error
    | .ok file =>
        let chunkLen := (s.chunkLen machine chunkSize).get
        match machine.zeroed chunkLen with
        | none => .panicked
        | some _ =>
            let (buffer, file) := readFileChunk file [] chunkLen
            let bytesRead := buffer.length
            if bytesRead = 0 then .error .unexpectedEof
            else if bytesRead < chunkLen then .error .unexpectedEof
            else
              .data buffer {
                file
                offset := (s.nextOffset bytesRead).get
                remaining := (s.nextRemaining bytesRead).get
                needsSeek := false }

/-- The stream polled to its end or its first error. -/
def drain (machine : Machine) (chunkSize : Nat) : Nat → FileStream → Transfer Primitives.IoError
  | 0, _ => .stop .running
  | turns + 1, s =>
      match s.next machine chunkSize with
      | .finished => .stop .clean
      | .panicked => .stop .panicked
      | .error error =>
          (Transfer.stop (.failed error)).noting
            [⟨u64Max, chunkSize⟩, s.chunkLen machine chunkSize]
      | .data bytes next =>
          ((drain machine chunkSize turns next).sending [bytes]).noting
            [⟨u64Max, chunkSize⟩, s.chunkLen machine chunkSize, s.nextOffset bytes.length,
              s.nextRemaining bytes.length]

end FileStream

/-- `Full` yields its data unless it is empty. -/
def full (data : List UInt8) : Transfer Primitives.IoError :=
  ⟨if data = [] then [] else [data], .clean, []⟩

/-- The body that the transport polls. A stream yields at least one byte a turn until its
last. -/
def fileBodyTransfer (machine : Machine) (grants : Nat → Nat) (chunkSize : Nat) :
    BodySource → Transfer Primitives.IoError
  | .empty => full []
  | .bytes data => full data
  | .fileFull file len _ =>
      FileStream.drain machine chunkSize (len + 1) ⟨⟨file, grants⟩, 0, len, true⟩
  | .fileRange file range _ _ =>
      FileStream.drain machine chunkSize (range.len + 1)
        ⟨⟨file, grants⟩, range.start, range.len, true⟩

/-! The stream against the frames of a file read in one go. -/

theorem readFileChunk_eq (opened : OpenFile) (targetLen : Nat) :
    (readFileChunk opened [] targetLen).1 = (Source.ahead opened).take targetLen ∧
      Source.ahead (readFileChunk opened [] targetLen).2 =
        (Source.ahead opened).drop targetLen := by
  simpa [readFileChunk] using @Source.fill_eq _ _ _ _ opened targetLen [] (Nat.zero_le targetLen)

namespace FileStream

variable {machine : Machine} {chunkSize : Nat} {content : List UInt8} {s : FileStream}
  {file : OpenFile}

theorem chunkLen_get (hSize : chunkSize ≤ machine.usizeMax) (hMachine : machine.usizeMax ≤ u64Max)
    (s : FileStream) : (s.chunkLen machine chunkSize).get = min s.remaining chunkSize := by
  rw [chunkLen, Word.get_of_le (hSize.trans hMachine)]
  exact Word.get_of_le (by omega)

theorem chunkLen_exact (hSize : chunkSize ≤ machine.usizeMax)
    (hMachine : machine.usizeMax ≤ u64Max) (s : FileStream) :
    (s.chunkLen machine chunkSize).Exact := by
  rw [chunkLen, Word.get_of_le (hSize.trans hMachine)]
  exact Word.exact_of_le (by omega)

theorem next_of_short (hSize : chunkSize ≤ machine.usizeMax) (hMachine : machine.usizeMax ≤ u64Max)
    (hFile : s.positioned = .ok file) (hAhead : Source.ahead file = content.drop s.offset)
    (hAlloc : min s.remaining chunkSize ≤ machine.isizeMax) (hMore : s.remaining ≠ 0)
    (hShort : ((content.drop s.offset).take (min s.remaining chunkSize)).length = 0 ∨
      ((content.drop s.offset).take (min s.remaining chunkSize)).length <
        min s.remaining chunkSize) :
    s.next machine chunkSize = .error .unexpectedEof := by
  have hBuffer := (readFileChunk_eq file (min s.remaining chunkSize)).1
  rw [hAhead] at hBuffer
  have hZeroed : machine.zeroed (min s.remaining chunkSize) = some () := if_pos hAlloc
  simp only [next, if_neg hMore, hFile, chunkLen_get hSize hMachine, hZeroed, hBuffer]
  rcases hShort with hNone | hLess
  · rw [if_pos hNone]
  · rw [if_pos hLess, ite_self]

theorem next_of_chunk (hSize : chunkSize ≤ machine.usizeMax) (hMachine : machine.usizeMax ≤ u64Max)
    (hFile : s.positioned = .ok file) (hAhead : Source.ahead file = content.drop s.offset)
    (hAlloc : min s.remaining chunkSize ≤ machine.isizeMax) (hMore : s.remaining ≠ 0)
    (hChunk : ¬(((content.drop s.offset).take (min s.remaining chunkSize)).length = 0 ∨
      ((content.drop s.offset).take (min s.remaining chunkSize)).length <
        min s.remaining chunkSize)) :
    ∃ file', Source.ahead file' = content.drop (s.offset + min s.remaining chunkSize) ∧
      s.next machine chunkSize =
        .data ((content.drop s.offset).take (min s.remaining chunkSize))
          ⟨file', (s.nextOffset (min s.remaining chunkSize)).get,
            (s.nextRemaining (min s.remaining chunkSize)).get, false⟩ := by
  obtain ⟨hBuffer, hRest⟩ := readFileChunk_eq file (min s.remaining chunkSize)
  rw [hAhead] at hBuffer hRest
  have hZeroed : machine.zeroed (min s.remaining chunkSize) = some () := if_pos hAlloc
  obtain ⟨hSome, hFull⟩ := not_or.mp hChunk
  have hLength : ((content.drop s.offset).take (min s.remaining chunkSize)).length =
      min s.remaining chunkSize := by
    rw [List.length_take] at hFull ⊢
    omega
  refine ⟨(readFileChunk file [] (min s.remaining chunkSize)).2,
    by rw [hRest, List.drop_drop], ?_⟩
  simp only [next, if_neg hMore, hFile, chunkLen_get hSize hMachine, hZeroed, hBuffer, if_neg hSome,
    if_neg hFull]
  rw [hLength]

end FileStream

/-- The ending that the error stands for. -/
def Ending.ofError {ε : Type} : Option ε → Ending ε
  | none => .clean
  | some error => .failed error

/-- Polled to its end, the stream yields the frames of the file from its offset on. The
induction is on the turns; each turn leaves the file where the next chunk begins. -/
theorem FileStream.drain_eq {machine : Machine} {chunkSize : Nat} {content : List UInt8}
    (hSize : chunkSize ≤ machine.usizeMax) (hMachine : machine.usizeMax ≤ u64Max)
    (hContent : content.length ≤ i64Max) {turns : Nat} {s : FileStream} {file : OpenFile}
    (hFile : s.positioned = .ok file) (hAhead : Source.ahead file = content.drop s.offset)
    (hRemaining : s.remaining ≤ u64Max) (hAlloc : min s.remaining chunkSize ≤ machine.isizeMax)
    (hTurns : s.remaining < turns) :
    (s.drain machine chunkSize turns).frames =
        (fileFrames content chunkSize s.offset s.remaining).frames ∧
      (s.drain machine chunkSize turns).ending =
        .ofError (fileFrames content chunkSize s.offset s.remaining).error ∧
      (s.drain machine chunkSize turns).Exact := by
  induction turns generalizing s file with
  | zero => omega
  | succ turns ih =>
      have hFirst : (Word.mk u64Max chunkSize).Exact := Word.exact_of_le (hSize.trans hMachine)
      have hLen := chunkLen_exact hSize hMachine s
      by_cases hDone : s.remaining = 0
      · have hNext : s.next machine chunkSize = .finished := if_pos hDone
        rw [drain, hNext, fileFrames, if_pos hDone]
        exact ⟨rfl, rfl, fun word hWord => by cases hWord⟩
      · by_cases hShort : ((content.drop s.offset).take (min s.remaining chunkSize)).length = 0 ∨
            ((content.drop s.offset).take (min s.remaining chunkSize)).length <
              min s.remaining chunkSize
        · rw [drain, next_of_short hSize hMachine hFile hAhead hAlloc hDone hShort, fileFrames,
            if_neg hDone, if_pos hShort]
          refine ⟨rfl, rfl, fun word hWord => ?_⟩
          simp only [Transfer.noting, Transfer.stop, List.append_nil, List.mem_cons,
            List.not_mem_nil, or_false] at hWord
          rcases hWord with rfl | rfl
          · exact hFirst
          · exact hLen
        · obtain ⟨file', hAhead', hNext⟩ :=
            next_of_chunk hSize hMachine hFile hAhead hAlloc hDone hShort
          have hLength : ((content.drop s.offset).take (min s.remaining chunkSize)).length =
              min s.remaining chunkSize := by
            rw [not_or, List.length_take] at hShort
            rw [List.length_take]
            omega
          have hBound : s.offset + min s.remaining chunkSize ≤ content.length ∧
              0 < min s.remaining chunkSize := by
            simp only [not_or, List.length_take, List.length_drop] at hShort
            omega
          have hFits : s.offset + min s.remaining chunkSize ≤ u64Max :=
            hBound.1.trans (hContent.trans (by decide))
          have hOffset : (s.nextOffset (min s.remaining chunkSize)).get =
              s.offset + min s.remaining chunkSize := by
            rw [nextOffset, ← Int.natCast_add]
            exact Word.get_of_le hFits
          have hLeft : (s.nextRemaining (min s.remaining chunkSize)).get =
              s.remaining - min s.remaining chunkSize :=
            Word.get_sub (Nat.min_le_left _ _) hRemaining
          rw [hOffset, hLeft] at hNext
          obtain ⟨hFrames, hEnding, hExact⟩ := @ih ⟨file', s.offset + min s.remaining chunkSize,
            s.remaining - min s.remaining chunkSize, false⟩ file' rfl hAhead'
            (by dsimp only; omega) (by dsimp only; omega) (by dsimp only; omega)
          rw [drain, hNext, fileFrames, if_neg hDone, if_neg hShort]
          dsimp only
          rw [hLength]
          refine ⟨congrArg _ hFrames, hEnding, fun word hWord => ?_⟩
          simp only [Transfer.noting, Transfer.sending, List.mem_append, List.mem_cons,
            List.not_mem_nil, or_false] at hWord
          rcases hWord with (rfl | rfl | rfl | rfl) | hLater
          · exact hFirst
          · exact hLen
          · rw [nextOffset, ← Int.natCast_add]
            exact Word.exact_of_le hFits
          · exact Word.exact_sub (Nat.min_le_left _ _) hRemaining
          · exact hExact word hLater

/-- The frames of a file are what a transfer in whole chunks sends of it. -/
theorem fileFrames_transfer (content : List UInt8) {chunkSize : Nat} (hChunk : 0 < chunkSize)
    (offset remaining : Nat) :
    (fileFrames content chunkSize offset remaining).frames.flatten =
        (Chunked.transfer chunkSize remaining (content.drop offset)).1 ∧
      (fileFrames content chunkSize offset remaining).error =
        if (Chunked.transfer chunkSize remaining (content.drop offset)).2 then none
        else some .unexpectedEof := by
  induction offset, remaining using fileFrames.induct content chunkSize with
  | case1 offset =>
      rw [fileFrames, if_pos rfl, Chunked.transfer_zero]
      exact ⟨rfl, rfl⟩
  | case2 offset remaining hZero chunkLen buffer hShort =>
      have hLess : (content.drop offset).length < min chunkSize remaining := by
        simp only [buffer, chunkLen, List.length_take] at hShort
        omega
      rw [fileFrames, if_neg hZero, if_pos hShort, Chunked.transfer_of_short hLess]
      exact ⟨rfl, rfl⟩
  | case3 offset remaining hZero chunkLen buffer hFull ih =>
      have hLength : buffer.length = chunkLen ∧ min chunkSize remaining = chunkLen ∧
          chunkLen ≤ (content.drop offset).length := by
        simp only [buffer, chunkLen, List.length_take] at hFull ⊢
        omega
      obtain ⟨hLength, hMin, hThere⟩ := hLength
      rw [fileFrames, if_neg hZero, if_neg hFull,
        Chunked.transfer_of_chunk hChunk (hMin.trans_le hThere), hMin, List.drop_drop]
      rw [hLength] at ih ⊢
      exact ⟨congrArg _ ih.1, ih.2⟩

/-- A stream that has not been polled delivers the whole chunks of its part of the file. -/
theorem FileStream.drain_delivers {machine : Machine} {chunkSize : Nat}
    (hPositive : 0 < chunkSize) (hSize : chunkSize ≤ machine.usizeMax)
    (hMachine : machine.usizeMax ≤ u64Max) {file : File} (grants : Nat → Nat)
    (hContent : file.content.length ≤ i64Max) {start len : Nat} (hLen : len ≤ u64Max)
    (hAlloc : min chunkSize len ≤ machine.isizeMax ∨ i64Max < start) :
    (FileStream.drain machine chunkSize (len + 1) ⟨⟨file, grants⟩, start, len, true⟩).Delivers
        (Chunked.transfer chunkSize len (file.content.drop start)) ∧
      (FileStream.drain machine chunkSize (len + 1) ⟨⟨file, grants⟩, start, len, true⟩).Exact := by
  by_cases hSeek : start ≤ i64Max
  · have hFile : FileStream.positioned ⟨⟨file, grants⟩, start, len, true⟩ =
        .ok ⟨file.seek start, grants⟩ := if_pos hSeek
    have hFits : min len chunkSize ≤ machine.isizeMax := by
      rw [Nat.min_comm]
      exact hAlloc.resolve_right (Nat.not_lt.mpr hSeek)
    obtain ⟨hFrames, hEnding, hExact⟩ :=
      drain_eq hSize hMachine hContent hFile rfl hLen hFits (Nat.lt_succ_self len)
    obtain ⟨hFlatten, hError⟩ := fileFrames_transfer file.content hPositive start len
    refine ⟨⟨by rw [hFrames, hFlatten], ?_⟩, hExact⟩
    rw [hEnding, hError]
    cases (Chunked.transfer chunkSize len (file.content.drop start)).2 with
    | true => rfl
    | false => exact ⟨.unexpectedEof, rfl⟩
  · have hNone : file.content.drop start = [] := List.drop_of_length_le (by omega)
    have hRefused : FileStream.positioned ⟨⟨file, grants⟩, start, len, true⟩ =
        .error (.invalidInput "Invalid argument (os error 22)") := if_neg hSeek
    rw [hNone]
    by_cases hDone : len = 0
    · subst hDone
      rw [Chunked.transfer_zero]
      exact ⟨⟨rfl, rfl⟩, fun word hWord => by cases hWord⟩
    · have hNext : FileStream.next machine chunkSize ⟨⟨file, grants⟩, start, len, true⟩ =
          .error (.invalidInput "Invalid argument (os error 22)") := by
        simp only [next, hDone, ↓reduceIte, hRefused]
      rw [Chunked.transfer_of_short (by simp only [List.length_nil]; omega), drain, hNext]
      refine ⟨⟨rfl, _, rfl⟩, fun word hWord => ?_⟩
      simp only [Transfer.noting, Transfer.stop, List.append_nil, List.mem_cons,
        List.not_mem_nil, or_false] at hWord
      rcases hWord with rfl | rfl
      · exact Word.exact_of_le (hSize.trans hMachine)
      · exact chunkLen_exact hSize hMachine _

/-- The body delivers the whole chunks of what is stored. -/
theorem fileBodyTransfer_delivers {machine : Machine} {chunkSize : Nat}
    (hPositive : 0 < chunkSize) (hSize : chunkSize ≤ machine.usizeMax)
    (hMachine : machine.usizeMax ≤ u64Max) (grants : Nat → Nat) {source : BodySource}
    (hHeld : source.Held machine)
    (hAlloc : min chunkSize source.len ≤ machine.isizeMax ∨ i64Max < source.fileStart) :
    (fileBodyTransfer machine grants chunkSize source).Delivers
        (Chunked.transfer chunkSize source.len source.stored) ∧
      (fileBodyTransfer machine grants chunkSize source).Exact := by
  cases source with
  | empty =>
      rw [BodySource.len, Chunked.transfer_zero]
      exact ⟨⟨rfl, rfl⟩, fun word hWord => by cases hWord⟩
  | bytes data =>
      refine ⟨⟨?_, ?_⟩, fun word hWord => by cases hWord⟩
      · cases data <;> simp [fileBodyTransfer, full, Chunked.transfer, BodySource.stored,
          BodySource.len]
      · simp [fileBodyTransfer, full, Chunked.transfer, BodySource.stored, BodySource.len]
  | fileFull file len mime =>
      exact FileStream.drain_delivers hPositive hSize hMachine grants hHeld.1 hHeld.2 hAlloc
  | fileRange file range totalLen mime =>
      exact FileStream.drain_delivers hPositive hSize hMachine grants hHeld.1 range.len_eq.2 hAlloc

end Eggserve.Server
