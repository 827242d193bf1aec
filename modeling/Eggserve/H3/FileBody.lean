import Eggserve.Server.FileStream
import Eggserve.H3.StreamSender

/-! File responses over HTTP/3, beside the stream of HTTP/1. The sender keeps an offset
into the body and reads each chunk as an inclusive range of it. Arithmetic wraps, as it
does in a release build. -/
namespace Eggserve.H3
open Rust Eggserve.Primitives Eggserve.Server

/-- A read that fails ends the response; so does one that panics on the blocking pool. -/
inductive FileSendError where
  | read (error : Primitives.IoError)
  | readerPanicked
  deriving DecidableEq

/-- `(length - offset) as usize`. -/
def left (machine : Machine) (length offset : Nat) : Word :=
  ⟨machine.usizeMax, (Word.mk u64Max ((length : Int) - offset)).get⟩

def chunkOf (machine : Machine) (config : SendConfig) (length offset : Nat) : Nat :=
  min config.streamChunkSize (left machine length offset).get

/-- `offset + chunk as u64`, which is also the next offset. -/
def stopAt (offset chunk : Nat) : Word := ⟨u64Max, offset + chunk⟩

/-- `offset + chunk as u64 - 1`. -/
def lastOf (offset chunk : Nat) : Word := ⟨u64Max, ((stopAt offset chunk).get : Int) - 1⟩

/-- The words of one turn. -/
def turnWords (machine : Machine) (config : SendConfig) (length offset : Nat) : List Word :=
  let chunk := chunkOf machine config length offset
  [⟨u64Max, (length : Int) - offset⟩, left machine length offset, stopAt offset chunk,
    lastOf offset chunk]

/-- The `File` arm of `send_canonical_response`. An empty read ends the loop, and what
follows the loop finishes the response. -/
def sendFileFrom (machine : Machine) (config : SendConfig) (length : Nat) :
    Nat → BodySource → Nat → Transfer FileSendError
  | 0, _, _ => .stop .running
  | turns + 1, source, offset =>
      if offset < length then
        let chunk := chunkOf machine config length offset
        Transfer.noting (turnWords machine config length offset)
          (match source.readRange machine offset (lastOf offset chunk).get with
          | none => .stop (.failed .readerPanicked)
          | some (.error error, _) => .stop (.failed (.read error))
          | some (.ok bytes, source) =>
              if bytes = [] then .stop .clean
              else
                (sendFileFrom machine config length turns source (stopAt offset chunk).get).sending
                  (sendBytes config bytes))
      else .stop .clean

/-- Every turn but the last sends at least one byte. -/
def sendFile (machine : Machine) (config : SendConfig) (source : BodySource) :
    Transfer FileSendError :=
  sendFileFrom machine config source.len (source.len + 1) source 0

/-! The rule. -/

/-- The widths of `usize`. -/
inductive Width where
  | bits32
  | bits64
  deriving DecidableEq

def Width.machine : Width → Machine
  | bits32 => ⟨2 ^ 32 - 1, by decide⟩
  | bits64 => ⟨2 ^ 64 - 1, by decide⟩

/-- A file response with its chunk size, as the machine can hold them. -/
structure FileResponse (machine : Machine) where
  source : BodySource
  held : source.Held machine
  config : SendConfig
  chunk_pos : 0 < config.streamChunkSize
  chunk_word : config.streamChunkSize ≤ machine.usizeMax

/-- Both transfers send the same bytes and end alike: all of the body and a clean end if
the file has it, else its whole chunks and an error. No word is cut. -/
structure SentAlike (source : BodySource) (chunkSize : Nat) (http1 : Transfer Primitives.IoError)
    (http3 : Transfer FileSendError) : Prop where
  same : http1.frames.flatten = http3.frames.flatten
  whole : source.len ≤ source.stored.length →
    http1.ending = .clean ∧ http3.ending = .clean ∧
      http1.frames.flatten = source.stored.take source.len
  cut : source.stored.length < source.len →
    (∃ error, http1.ending = .failed error) ∧ (∃ error, http3.ending = .failed error) ∧
      http1.frames.flatten = source.stored.take (chunkSize * (source.stored.length / chunkSize))
  exact1 : http1.Exact
  exact3 : http3.Exact

/-! Reading a chunk of the body. -/

/-- The same body with the file somewhere else. -/
def withCursor (cursor : Nat) : BodySource → BodySource
  | .fileFull file len mime => .fileFull { file with cursor } len mime
  | .fileRange file range totalLen mime => .fileRange { file with cursor } range totalLen mime
  | source => source

theorem exists_withCursor (source : BodySource) : ∃ cursor, withCursor cursor source = source := by
  cases source with
  | fileFull file len mime => exact ⟨file.cursor, rfl⟩
  | fileRange file range totalLen mime => exact ⟨file.cursor, rfl⟩
  | _ => exact ⟨0, rfl⟩

/-- The read ends the response with an error. -/
def Fails (result : BodySource.ReadResult) : Prop :=
  result = none ∨ ∃ error source, result = some (.error error, source)

/-- A read that the file is too short for fails, whatever the machine makes of it. -/
theorem readAt_of_short (machine : Machine) {file : File} {start len : Nat} (tooLarge : Str)
    (hFile : file.content.length < start + len) (hLen : 0 < len) :
    file.readAt machine start len tooLarge = none ∨
      ∃ error file', file.readAt machine start len tooLarge = some (.error error, file') := by
  unfold File.readAt Machine.zeroed
  dsimp only
  split_ifs with hWord hAlloc
  · exact .inr ⟨_, _, rfl⟩
  · have hShort : ¬((file.seek start).upcoming len).length = len := by
      simp only [File.upcoming, File.seek, List.length_take, List.length_drop]
      omega
    rw [Option.map_some, File.readExact, if_neg hShort]
    exact .inr ⟨_, _, rfl⟩
  · exact .inl rfl

section Chunk

variable {machine : Machine} {offset chunk : Nat}

theorem readRange_fileFull {file : File} {len : Nat} (mime : Str) (hLen : len ≤ u64Max)
    (hPositive : 0 < chunk) (hEnd : offset + chunk ≤ len) :
    (BodySource.fileFull file len mime).readRange machine offset (offset + chunk - 1) =
      (file.readAt machine offset chunk "read range too large").map
        fun (result, file) => (result, .fileFull file len mime) := by
  have hRequest : (checkedSub (offset + chunk - 1) offset).bind (checkedAdd · 1) =
      some chunk := by
    rw [checkedSub_bind_checkedAdd_one (by omega) (by omega)]
    exact congrArg some (by omega)
  have hMin : min chunk (len - offset) = chunk := by omega
  simp only [BodySource.readRange, hRequest, hMin]
  rw [if_neg (by omega), if_neg (by omega), if_neg (by omega)]

theorem readRange_fileRange_chunk {file : File} {range : FileRange} (totalLen : Nat) (mime : Str)
    (hPositive : 0 < chunk) (hEnd : offset + chunk ≤ range.len)
    (hStop : range.start + offset + chunk ≤ u64Max) :
    (BodySource.fileRange file range totalLen mime).readRange machine offset (offset + chunk - 1) =
      (file.readAt machine (range.start + offset) chunk "sub-range too large").map
        fun (result, file) => (result, .fileRange file range totalLen mime) := by
  have hLen := range.len_eq
  have hSub : (checkedSub (offset + chunk - 1) offset).bind (checkedAdd · 1) = some chunk := by
    rw [checkedSub_bind_checkedAdd_one (by omega) (by omega)]
    exact congrArg some (by omega)
  have hStart : checkedAdd range.start offset = some (range.start + offset) :=
    checkedAdd_of_le (by omega)
  have hLast : (checkedAdd (range.start + offset) chunk).bind (checkedSub · 1) =
      some (range.start + offset + chunk - 1) := by
    rw [checkedAdd_of_le hStop, Option.bind_some]
    exact checkedSub_of_le (by omega)
  simp only [BodySource.readRange, hSub, hStart, hLast]
  rw [if_neg (by omega), if_neg (by omega), if_neg (by omega)]

/-- An end beyond the last offset is refused. -/
theorem readRange_fileRange_overflow {file : File} {range : FileRange} (totalLen : Nat)
    (mime : Str) (hPositive : 0 < chunk) (hEnd : offset + chunk ≤ range.len)
    (hHeld : range.endInclusive ≤ u64Max) (hStop : u64Max < range.start + offset + chunk) :
    Fails ((BodySource.fileRange file range totalLen mime).readRange machine offset
      (offset + chunk - 1)) := by
  have hLen := range.len_eq
  have hSub : (checkedSub (offset + chunk - 1) offset).bind (checkedAdd · 1) = some chunk := by
    rw [checkedSub_bind_checkedAdd_one (by omega) (by omega)]
    exact congrArg some (by omega)
  have hStart : checkedAdd range.start offset = some (range.start + offset) :=
    checkedAdd_of_le (by omega)
  have hLast : checkedAdd (range.start + offset) chunk = none := if_neg (by omega)
  simp only [BodySource.readRange, hSub, hStart, hLast, Option.bind_none]
  rw [if_neg (by omega), if_neg (by omega)]
  exact .inr ⟨_, _, rfl⟩

variable {source : BodySource}

/-- A chunk that is stored is read, wherever the file was left. -/
theorem readRange_of_chunk (hMachine : machine.usizeMax ≤ u64Max) (hHeld : source.Held machine)
    (hPositive : 0 < chunk) (hEnd : offset + chunk ≤ source.len)
    (hThere : offset + chunk ≤ source.stored.length) (hAlloc : chunk ≤ machine.isizeMax)
    (cursor : Nat) :
    ∃ cursor', (withCursor cursor source).readRange machine offset (offset + chunk - 1) =
      some (.ok ((source.stored.drop offset).take chunk), withCursor cursor' source) := by
  have hHalf : machine.isizeMax ≤ machine.usizeMax := Nat.div_le_self _ _
  cases source with
  | empty =>
      simp only [BodySource.len] at hEnd
      omega
  | bytes data =>
      simp only [BodySource.Held, BodySource.stored] at hHeld hThere
      have hStop : checkedAdd (offset + chunk - 1) 1 = some (offset + chunk) := by
        rw [checkedAdd_of_le (by omega), Nat.sub_add_cancel (by omega)]
      refine ⟨0, ?_⟩
      simp only [withCursor, BodySource.readRange, hStop, BodySource.stored]
      rw [if_neg (by omega), if_neg (by omega), if_neg (by omega), if_neg (by omega),
        Nat.min_eq_left hThere, List.drop_take, Nat.add_sub_cancel_left]
  | fileFull file len mime =>
      simp only [BodySource.len, BodySource.stored] at hEnd hThere
      refine ⟨offset + chunk, ?_⟩
      rw [withCursor, readRange_fileFull mime hHeld.2 hPositive hEnd,
        @File.readAt_of_le machine { file with cursor } offset chunk _ hAlloc hThere]
      rfl
  | fileRange file range totalLen mime =>
      simp only [BodySource.len, BodySource.stored, List.length_drop] at hEnd hThere
      have hFile : range.start + offset + chunk ≤ file.content.length := by omega
      have hWord : i64Max ≤ u64Max := by decide
      refine ⟨range.start + offset + chunk, ?_⟩
      rw [withCursor, readRange_fileRange_chunk totalLen mime hPositive hEnd
          (hFile.trans (hHeld.1.trans hWord)),
        @File.readAt_of_le machine { file with cursor } (range.start + offset) chunk _ hAlloc hFile,
        BodySource.stored, List.drop_drop]
      rfl

/-- A chunk that is not stored in full is an error. -/
theorem readRange_of_short (hHeld : source.Held machine) (hPositive : 0 < chunk)
    (hEnd : offset + chunk ≤ source.len) (hShort : source.stored.length < offset + chunk)
    (cursor : Nat) :
    Fails ((withCursor cursor source).readRange machine offset (offset + chunk - 1)) := by
  cases source with
  | empty =>
      simp only [BodySource.len] at hEnd
      omega
  | bytes data =>
      simp only [BodySource.len, BodySource.stored] at hEnd hShort
      omega
  | fileFull file len mime =>
      rw [withCursor, readRange_fileFull mime hHeld.2 hPositive hEnd]
      rcases @readAt_of_short machine { file with cursor } offset chunk "read range too large"
        hShort hPositive with hRead | ⟨error, file', hRead⟩
      · exact .inl (by rw [hRead]; rfl)
      · exact .inr ⟨error, .fileFull file' len mime, by rw [hRead]; rfl⟩
  | fileRange file range totalLen mime =>
      simp only [BodySource.stored, List.length_drop] at hShort
      by_cases hStop : range.start + offset + chunk ≤ u64Max
      · rw [withCursor, readRange_fileRange_chunk totalLen mime hPositive hEnd hStop]
        rcases @readAt_of_short machine { file with cursor } (range.start + offset) chunk
          "sub-range too large" (by dsimp only; omega) hPositive with hRead | ⟨error, file', hRead⟩
        · exact .inl (by rw [hRead]; rfl)
        · exact .inr ⟨error, .fileRange file' range totalLen mime, by rw [hRead]; rfl⟩
      · exact readRange_fileRange_overflow totalLen mime hPositive hEnd hHeld.2
          (Nat.not_le.mp hStop)

end Chunk

/-! The loop. -/

section Loop

variable {machine : Machine} {config : SendConfig} {length offset : Nat}

theorem chunkOf_eq (hMachine : machine.usizeMax ≤ u64Max) (hLength : length ≤ machine.usizeMax)
    (hOffset : offset ≤ length) :
    chunkOf machine config length offset = min config.streamChunkSize (length - offset) := by
  rw [chunkOf, left, Word.get_sub hOffset (hLength.trans hMachine), Word.get_of_le (by omega)]

/-- While the length fits `usize`, no word of a turn is cut. -/
theorem turnWords_exact (hMachine : machine.usizeMax ≤ u64Max)
    (hLength : length ≤ machine.usizeMax) (hPositive : 0 < config.streamChunkSize)
    (hOffset : offset < length) :
    let chunk := chunkOf machine config length offset
    (∀ word ∈ turnWords machine config length offset, word.Exact) ∧
      (stopAt offset chunk).get = offset + chunk ∧
      (lastOf offset chunk).get = offset + chunk - 1 := by
  intro chunk
  have hChunk : chunk = min config.streamChunkSize (length - offset) :=
    chunkOf_eq hMachine hLength hOffset.le
  have hStop : (stopAt offset chunk).get = offset + chunk := by
    rw [stopAt, ← Int.natCast_add]
    exact Word.get_of_le (by omega)
  refine ⟨fun word hWord => ?_, hStop, ?_⟩
  · simp only [turnWords, List.mem_cons, List.not_mem_nil, or_false] at hWord
    rcases hWord with rfl | rfl | rfl | rfl
    · exact Word.exact_sub hOffset.le (hLength.trans hMachine)
    · rw [left, Word.get_sub hOffset.le (hLength.trans hMachine)]
      exact Word.exact_of_le (by omega)
    · change (stopAt offset chunk).Exact
      rw [stopAt, ← Int.natCast_add]
      exact Word.exact_of_le (by omega)
    · change (lastOf offset chunk).Exact
      rw [lastOf, hStop]
      exact Word.exact_sub (n := 1) (by omega) (by omega)
  · rw [lastOf, hStop]
    exact Word.get_sub (n := 1) (by omega) (by omega)

variable {source : BodySource}

/-- A turn that reads something sends it and goes on. -/
theorem sendFileFrom_of_read {turns : Nat} {source source' : BodySource} {bytes : List UInt8}
    (hMore : offset < length)
    (hRead : source.readRange machine offset
      (lastOf offset (chunkOf machine config length offset)).get = some (.ok bytes, source'))
    (hSome : bytes ≠ []) :
    sendFileFrom machine config length (turns + 1) source offset =
      .noting (turnWords machine config length offset)
        (.sending (sendBytes config bytes)
          (sendFileFrom machine config length turns source'
            (stopAt offset (chunkOf machine config length offset)).get)) := by
  simp only [sendFileFrom, if_pos hMore, hRead, if_neg hSome]

/-- A turn that reads nothing is the last. -/
theorem sendFileFrom_of_empty {turns : Nat} {source source' : BodySource}
    (hMore : offset < length)
    (hRead : source.readRange machine offset
      (lastOf offset (chunkOf machine config length offset)).get = some (.ok [], source')) :
    sendFileFrom machine config length (turns + 1) source offset =
      .noting (turnWords machine config length offset) (.stop .clean) := by
  simp only [sendFileFrom, if_pos hMore, hRead, ↓reduceIte]

/-- From any offset on the loop delivers the whole chunks that are stored. The induction
is on the turns; a turn leaves the file somewhere and the body as it was. -/
theorem sendFileFrom_delivers (hMachine : machine.usizeMax ≤ u64Max)
    (hHeld : source.Held machine) (hLength : source.len ≤ machine.usizeMax)
    (hPositive : 0 < config.streamChunkSize)
    (hAlloc : min config.streamChunkSize source.len ≤ machine.isizeMax ∨ source.stored = [])
    {turns : Nat} (cursor : Nat) (hOffset : offset ≤ source.len)
    (hTurns : source.len - offset < turns) :
    (sendFileFrom machine config source.len turns (withCursor cursor source) offset).Delivers
        (Chunked.transfer config.streamChunkSize (source.len - offset)
          (source.stored.drop offset)) ∧
      (sendFileFrom machine config source.len turns (withCursor cursor source) offset).Exact := by
  induction turns generalizing offset cursor with
  | zero => omega
  | succ turns ih =>
      rw [sendFileFrom]
      by_cases hMore : offset < source.len
      · obtain ⟨hWords, hStop, hLast⟩ := @turnWords_exact machine config source.len offset
          hMachine hLength hPositive hMore
        have hChunk := @chunkOf_eq machine config source.len offset hMachine hLength hOffset
        simp only [if_pos hMore, hStop, hLast]
        generalize chunkOf machine config source.len offset = chunk at hChunk
        have hTurn : 0 < chunk ∧ offset + chunk ≤ source.len := by omega
        by_cases hShort : (source.stored.drop offset).length < chunk
        · rw [Chunked.transfer_of_short (hChunk ▸ hShort)]
          rw [List.length_drop] at hShort
          rcases readRange_of_short hHeld hTurn.1 hTurn.2 (by omega) cursor with
            hRead | ⟨error, left, hRead⟩
          · rw [hRead]
            exact ⟨⟨rfl, _, rfl⟩, by simpa [Transfer.Exact, Transfer.noting, Transfer.stop]⟩
          · rw [hRead]
            exact ⟨⟨rfl, _, rfl⟩, by simpa [Transfer.Exact, Transfer.noting, Transfer.stop]⟩
        · rw [List.length_drop, Nat.not_lt] at hShort
          have hFits : chunk ≤ machine.isizeMax := by
            rcases hAlloc with hFits | hNone
            · omega
            · rw [hNone, List.length_nil] at hShort
              omega
          obtain ⟨cursor', hRead⟩ := readRange_of_chunk hMachine hHeld hTurn.1 hTurn.2 (by omega)
            hFits cursor
          have hSome : ¬(source.stored.drop offset).take chunk = [] := by
            rw [← List.length_eq_zero_iff, List.length_take, List.length_drop]
            omega
          obtain ⟨⟨hData, hEnding⟩, hExact⟩ := ih cursor' hTurn.2 (by omega)
          rw [hRead]
          simp only [if_neg hSome]
          rw [Chunked.transfer_of_chunk hPositive (by rw [List.length_drop, ← hChunk]; exact hShort),
            ← hChunk, List.drop_drop, Nat.sub_sub]
          refine ⟨⟨?_, hEnding⟩, fun word hWord => ?_⟩
          · rw [Transfer.noting, Transfer.sending, List.flatten_append, flatten_sendBytes, hData]
          · rcases List.mem_append.mp hWord with hHere | hLater
            · exact hWords word hHere
            · exact hExact word hLater
      · rw [if_neg hMore, Nat.sub_eq_zero_of_le (Nat.not_lt.mp hMore), Chunked.transfer_zero]
        exact ⟨⟨rfl, rfl⟩, fun word hWord => by cases hWord⟩

end Loop

/-! Both transfers. -/

theorem Width.machine_le (width : Width) : width.machine.usizeMax ≤ u64Max := by
  cases width <;> decide

theorem len_le_of_held {machine : Machine} (hMachine : machine.usizeMax ≤ u64Max)
    {source : BodySource} (hHeld : source.Held machine) : source.len ≤ u64Max := by
  cases source with
  | empty => exact Nat.zero_le _
  | bytes data => exact hHeld.trans ((Nat.div_le_self _ _).trans hMachine)
  | fileFull file len mime => exact hHeld.2
  | fileRange file range totalLen mime => exact range.len_eq.2

/-- No file reaches beyond the largest offset. -/
theorem stored_eq_nil {machine : Machine} {source : BodySource} (hHeld : source.Held machine)
    (hStart : i64Max < source.fileStart) : source.stored = [] := by
  cases source with
  | fileRange file range totalLen mime =>
      exact List.drop_of_length_le (hHeld.1.trans hStart.le)
  | _ => exact absurd hStart (Nat.not_lt_zero _)

/-- A first chunk that no allocation can hold panics the stream. -/
theorem drain_panics {machine : Machine} {chunkSize : Nat} (hSize : chunkSize ≤ machine.usizeMax)
    (hMachine : machine.usizeMax ≤ u64Max) (grants : Nat → Nat) (file : File) {start len : Nat}
    (hAlloc : machine.isizeMax < min chunkSize len) (hStart : start ≤ i64Max) :
    (FileStream.drain machine chunkSize (len + 1) ⟨⟨file, grants⟩, start, len, true⟩).ending =
      .panicked := by
  have hFile : FileStream.positioned ⟨⟨file, grants⟩, start, len, true⟩ =
      .ok ⟨file.seek start, grants⟩ := if_pos hStart
  have hZeroed : machine.zeroed (min len chunkSize) = none := if_neg (by omega)
  have hMore : ¬len = 0 := by omega
  have hNext : FileStream.next machine chunkSize ⟨⟨file, grants⟩, start, len, true⟩ =
      .panicked := by
    simp only [FileStream.next, hMore, ↓reduceIte, hFile,
      FileStream.chunkLen_get hSize hMachine, hZeroed]
  rw [FileStream.drain, hNext]
  rfl

theorem fileBodyTransfer_panics {machine : Machine} {chunkSize : Nat}
    (hSize : chunkSize ≤ machine.usizeMax) (hMachine : machine.usizeMax ≤ u64Max)
    (grants : Nat → Nat) {source : BodySource} (hHeld : source.Held machine)
    (hAlloc : machine.isizeMax < min chunkSize source.len) (hStart : source.fileStart ≤ i64Max) :
    (fileBodyTransfer machine grants chunkSize source).ending = .panicked := by
  cases source with
  | empty =>
      simp only [BodySource.len] at hAlloc
      omega
  | bytes data =>
      simp only [BodySource.len, BodySource.Held] at hAlloc hHeld
      omega
  | fileFull file len mime =>
      exact drain_panics hSize hMachine grants file hAlloc (Nat.zero_le _)
  | fileRange file range totalLen mime =>
      exact drain_panics hSize hMachine grants file hAlloc hStart

theorem sentAlike_of_delivers {source : BodySource} {chunkSize : Nat}
    {http1 : Transfer Primitives.IoError}
    {http3 : Transfer FileSendError}
    (h1 : http1.Delivers (Chunked.transfer chunkSize source.len source.stored))
    (h3 : http3.Delivers (Chunked.transfer chunkSize source.len source.stored))
    (hExact1 : http1.Exact) (hExact3 : http3.Exact) :
    SentAlike source chunkSize http1 http3 := by
  refine ⟨h1.1.trans h3.1.symm, fun hWhole => ?_, fun hCut => ?_, hExact1, hExact3⟩
  · rw [Chunked.transfer, if_pos hWhole] at h1 h3
    exact ⟨h1.2, h3.2, h1.1⟩
  · rw [Chunked.transfer, if_neg (Nat.not_le.mpr hCut)] at h1 h3
    exact ⟨by simpa using h1.2, by simpa using h3.2, h1.1⟩

/-- A file response is sent alike over both transports exactly when `usize` can hold its
length and an allocation its first chunk, or both fail to find its beginning. -/
theorem file_sent_alike_iff (width : Width) (response : FileResponse width.machine)
    (grants : Nat → Nat) :
    SentAlike response.source response.config.streamChunkSize
        (fileBodyTransfer width.machine grants response.config.streamChunkSize response.source)
        (sendFile width.machine response.config response.source) ↔
      response.source.len ≤ width.machine.usizeMax ∧
        (min response.config.streamChunkSize response.source.len ≤ width.machine.isizeMax ∨
          i64Max < response.source.fileStart) := by
  obtain ⟨source, hHeld, config, hPositive, hSize⟩ := response
  have hMachine := width.machine_le
  dsimp only
  constructor
  · intro hAlike
    constructor
    · by_cases hNone : source.len = 0
      · omega
      · have hLeft : left width.machine source.len 0 ∈
            (sendFile width.machine config source).words := by
          rw [sendFile, sendFileFrom, if_pos (Nat.pos_of_ne_zero hNone)]
          simp [Transfer.noting, turnWords]
        have hExact := (hAlike.exact3 _ hLeft).2
        rw [left, Word.get_sub (Nat.zero_le _) (len_le_of_held hMachine hHeld)] at hExact
        exact Int.ofNat_le.mp hExact
    · by_contra hAlloc
      obtain ⟨hLarge, hStart⟩ := not_or.mp hAlloc
      have hPanics := fileBodyTransfer_panics hSize hMachine grants hHeld
        (Nat.not_le.mp hLarge) (Nat.not_lt.mp hStart)
      rcases Nat.lt_or_ge source.stored.length source.len with hCut | hWhole
      · obtain ⟨⟨error, hFailed⟩, _⟩ := hAlike.cut hCut
        rw [hPanics] at hFailed
        cases hFailed
      · have hClean := (hAlike.whole hWhole).1
        rw [hPanics] at hClean
        cases hClean
  · rintro ⟨hLength, hAlloc⟩
    obtain ⟨h1, hExact1⟩ :=
      fileBodyTransfer_delivers hPositive hSize hMachine grants hHeld hAlloc
    obtain ⟨cursor, hCursor⟩ := exists_withCursor source
    obtain ⟨h3, hExact3⟩ := @sendFileFrom_delivers width.machine config 0 source hMachine hHeld
      hLength hPositive (hAlloc.imp_right (stored_eq_nil hHeld)) (source.len + 1) cursor
      (Nat.zero_le _) (Nat.lt_succ_self _)
    rw [hCursor] at h3 hExact3
    exact sentAlike_of_delivers h1 h3 hExact1 hExact3

/-! A file one byte longer than a 32-bit `usize` can count. -/

/-- Such a file as a response in chunks of 64 KiB. -/
def longResponse (file : File) (hLength : file.content.length = 2 ^ 32 + 1) :
    FileResponse Width.bits32.machine where
  source := .fileFull file (2 ^ 32 + 1) "application/octet-stream"
  held := ⟨hLength.trans_le (by decide), by decide⟩
  config := ⟨65536, 65536⟩
  chunk_pos := by decide
  chunk_word := by decide

section Long

variable {file : File} (hLength : file.content.length = 2 ^ 32 + 1)
include hLength

theorem http1_sends_long :
    (fileBodyTransfer Width.bits32.machine (fun _ => 65535) 65536
        (longResponse file hLength).source).ending = .clean ∧
      (fileBodyTransfer Width.bits32.machine (fun _ => 65535) 65536
        (longResponse file hLength).source).frames.flatten.length = 2 ^ 32 + 1 := by
  obtain ⟨⟨hData, hEnding⟩, _⟩ := fileBodyTransfer_delivers (longResponse file hLength).chunk_pos
    (longResponse file hLength).chunk_word Width.bits32.machine_le (fun _ => 65535)
    (longResponse file hLength).held
    (.inl (show min 65536 (2 ^ 32 + 1) ≤ Width.bits32.machine.isizeMax by decide))
  have hThere : (longResponse file hLength).source.len ≤
      (longResponse file hLength).source.stored.length := hLength.ge
  rw [Chunked.transfer, if_pos hThere] at hData hEnding
  refine ⟨hEnding, (congrArg List.length hData).trans ?_⟩
  rw [List.length_take]
  exact Nat.min_eq_left hThere

/-- One byte is sent: the second turn counts no byte to be left, reads nothing and ends
the response cleanly. -/
theorem http3_sends_long :
    (sendFile Width.bits32.machine (longResponse file hLength).config
        (longResponse file hLength).source).ending = .clean ∧
      (sendFile Width.bits32.machine (longResponse file hLength).config
        (longResponse file hLength).source).frames.flatten.length = 1 := by
  have hFirst : (stopAt 0 1).get = 1 := by decide
  have hLast : (lastOf 0 1).get = 0 := by decide
  have hChunk : chunkOf Width.bits32.machine ⟨65536, 65536⟩ (2 ^ 32 + 1) 0 = 1 := by decide
  have hNone : chunkOf Width.bits32.machine ⟨65536, 65536⟩ (2 ^ 32 + 1) 1 = 0 := by decide
  have hBefore : (lastOf 1 0).get = 0 := by decide
  obtain ⟨cursor, hRead⟩ := @readRange_of_chunk Width.bits32.machine 0 1
    (longResponse file hLength).source Width.bits32.machine_le (longResponse file hLength).held
    Nat.one_pos (show 1 ≤ 2 ^ 32 + 1 by decide) (show 1 ≤ file.content.length by omega)
    (by decide) file.cursor
  have hByte : (file.content.take 1).length = 1 := by
    rw [List.length_take]
    omega
  have hSome : ¬file.content.take 1 = [] := fun hNil => by simp [hNil] at hByte
  have hEmpty : (withCursor cursor (longResponse file hLength).source).readRange
      Width.bits32.machine 1 0 =
        some (.ok [], withCursor cursor (longResponse file hLength).source) := by
    unfold BodySource.readRange
    exact if_pos Nat.one_pos
  have hTurn := @sendFileFrom_of_read Width.bits32.machine ⟨65536, 65536⟩ (2 ^ 32 + 1) 0
    (2 ^ 32 + 1) (withCursor file.cursor (longResponse file hLength).source)
    (withCursor cursor (longResponse file hLength).source) (file.content.take 1) (by decide)
    (by rw [hChunk, hLast]; exact hRead) hSome
  have hSecond := @sendFileFrom_of_empty Width.bits32.machine ⟨65536, 65536⟩ (2 ^ 32 + 1) 1
    (2 ^ 32) (withCursor cursor (longResponse file hLength).source)
    (withCursor cursor (longResponse file hLength).source) (by decide)
    (by rw [hNone, hBefore]; exact hEmpty)
  rw [hChunk, hFirst, hSecond] at hTurn
  have hSent : sendFile Width.bits32.machine (longResponse file hLength).config
      (longResponse file hLength).source = _ := hTurn
  rw [hSent]
  refine ⟨rfl, ?_⟩
  simp only [Transfer.noting, Transfer.sending, Transfer.stop, List.append_nil]
  rw [flatten_sendBytes, hByte]

/-- The file is sent in full over HTTP/1 and not over HTTP/3, and neither says so. -/
theorem long_not_sent_alike :
    let response := longResponse file hLength
    let http1 := fileBodyTransfer Width.bits32.machine (fun _ => 65535)
      response.config.streamChunkSize response.source
    let http3 := sendFile Width.bits32.machine response.config response.source
    http1.ending = .clean ∧ http1.frames.flatten.length = 2 ^ 32 + 1 ∧
      http3.ending = .clean ∧ http3.frames.flatten.length = 1 ∧
      ¬SentAlike response.source response.config.streamChunkSize http1 http3 := by
  obtain ⟨hClean1, hAll⟩ := http1_sends_long hLength
  obtain ⟨hClean3, hOne⟩ := http3_sends_long hLength
  refine ⟨hClean1, hAll, hClean3, hOne, fun hAlike => ?_⟩
  have hSame := congrArg List.length hAlike.same
  rw [hOne] at hSame
  exact absurd (hAll.symm.trans hSame) (by decide)

end Long

def longFile : File := ⟨List.replicate (2 ^ 32 + 1) 0, 0⟩

theorem length_longFile : longFile.content.length = 2 ^ 32 + 1 := by
  show (List.replicate (2 ^ 32 + 1) (0 : UInt8)).length = 2 ^ 32 + 1
  rw [List.length_replicate]


theorem long_file_cut_short :
    let response := longResponse longFile length_longFile
    let http1 := fileBodyTransfer Width.bits32.machine (fun _ => 65535)
      response.config.streamChunkSize response.source
    let http3 := sendFile Width.bits32.machine response.config response.source
    http1.ending = .clean ∧ http1.frames.flatten.length = 2 ^ 32 + 1 ∧
      http3.ending = .clean ∧ http3.frames.flatten.length = 1 ∧
      ¬SentAlike response.source response.config.streamChunkSize http1 http3 :=
  long_not_sent_alike length_longFile

end Eggserve.H3
