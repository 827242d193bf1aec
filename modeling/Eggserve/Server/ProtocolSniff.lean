import Eggserve.Rust.Text
import Eggserve.Transition.Source

/-! The choice between HTTP/1 and HTTP/2 on a cleartext connection. The octets
read for it are replayed in front of the stream. -/
namespace Eggserve.Server
open Rust

/-- What the peer sends, cut into the segments that arrive. A read takes from
one segment at most; after the last one the stream has ended. -/
structure Socket where
  segments : List (List UInt8)
  nonempty : ∀ segment ∈ segments, segment ≠ []

namespace Socket

def stream (socket : Socket) : List UInt8 := socket.segments.flatten

/-- A read returns what is there of the first segment, as far as it fits. -/
def read (socket : Socket) (size : Nat) : List UInt8 × Socket :=
  match socket with
  | ⟨[], hNonempty⟩ => ([], ⟨[], hNonempty⟩)
  | ⟨segment :: rest, hNonempty⟩ =>
      have hRest : ∀ part ∈ rest, part ≠ [] := fun part hPart =>
        hNonempty part (List.mem_cons_of_mem _ hPart)
      if hAll : segment.length ≤ size then (segment, ⟨rest, hRest⟩)
      else
        (segment.take size, ⟨segment.drop size :: rest, by
          intro part hPart
          rcases List.mem_cons.mp hPart with rfl | hPart
          · exact fun hNil => hAll (List.drop_eq_nil_iff.mp hNil)
          · exact hRest part hPart⟩)

instance : Source UInt8 Socket := ⟨read, stream⟩

theorem read_of_le {segment : List UInt8} {rest : List (List UInt8)} {size : Nat}
    (hNonempty : ∀ part ∈ segment :: rest, part ≠ []) (h : segment.length ≤ size) :
    (Source.read (⟨segment :: rest, hNonempty⟩ : Socket) size).1 = segment ∧
      Source.ahead (Source.read (⟨segment :: rest, hNonempty⟩ : Socket) size).2 = rest.flatten := by
  constructor <;> simp [Source.read, Source.ahead, read, stream, h]

theorem read_of_gt {segment : List UInt8} {rest : List (List UInt8)} {size : Nat}
    (hNonempty : ∀ part ∈ segment :: rest, part ≠ []) (h : ¬segment.length ≤ size) :
    (Source.read (⟨segment :: rest, hNonempty⟩ : Socket) size).1 = segment.take size ∧
      Source.ahead (Source.read (⟨segment :: rest, hNonempty⟩ : Socket) size).2 =
        segment.drop size ++ rest.flatten := by
  constructor <;> simp [Source.read, Source.ahead, read, stream, h]

instance : LawfulSource UInt8 Socket where
  split := by
    rintro ⟨_ | ⟨segment, rest⟩, hNonempty⟩ size
    · rfl
    · by_cases hAll : segment.length ≤ size
      · obtain ⟨hBytes, hAhead⟩ := read_of_le hNonempty hAll
        rw [hBytes, hAhead]
        rfl
      · obtain ⟨hBytes, hAhead⟩ := read_of_gt hNonempty hAll
        rw [hBytes, hAhead, ← List.append_assoc, List.take_append_drop]
        rfl
  fits := by
    rintro ⟨_ | ⟨segment, rest⟩, hNonempty⟩ size
    · exact Nat.zero_le size
    · by_cases hAll : segment.length ≤ size
      · rw [(read_of_le hNonempty hAll).1]
        exact hAll
      · rw [(read_of_gt hNonempty hAll).1]
        exact List.length_take_le _ _
  ends := by
    rintro ⟨_ | ⟨segment, rest⟩, hNonempty⟩ size hSize hBytes
    · rfl
    · have hSegment := hNonempty segment List.mem_cons_self
      by_cases hAll : segment.length ≤ size
      · rw [(read_of_le hNonempty hAll).1] at hBytes
        exact absurd hBytes hSegment
      · rw [(read_of_gt hNonempty hAll).1, List.take_eq_nil_iff] at hBytes
        rcases hBytes with hZero | hNil
        · omega
        · exact absurd hNil hSegment

end Socket

/-- A stream with octets that are replayed in front of it. -/
structure PrefixedIo (I : Type) where
  front : List UInt8
  inner : I

namespace PrefixedIo

variable {I : Type} [Source UInt8 I]

/-- `poll_read`: the front alone, as long as there is any. -/
def pollRead (io : PrefixedIo I) (remaining : Nat) : List UInt8 × PrefixedIo I :=
  if io.front.isEmpty then
    let next := Source.read io.inner remaining
    (next.1, { io with inner := next.2 })
  else
    let count := min io.front.length remaining
    (io.front.take count, { io with front := io.front.drop count })

instance : Source UInt8 (PrefixedIo I) :=
  ⟨pollRead, fun io => io.front ++ Source.ahead io.inner⟩

instance [LawfulSource UInt8 I] : LawfulSource UInt8 (PrefixedIo I) where
  split := by
    rintro ⟨front, inner⟩ size
    cases front with
    | nil => exact LawfulSource.split inner size
    | cons byte rest =>
        simp only [Source.read, Source.ahead, pollRead, List.isEmpty_cons, Bool.false_eq_true,
          ↓reduceIte, ← List.append_assoc, List.take_append_drop]
  fits := by
    rintro ⟨front, inner⟩ size
    cases front with
    | nil => exact LawfulSource.fits inner size
    | cons byte rest =>
        simp only [Source.read, pollRead, List.isEmpty_cons, Bool.false_eq_true, ↓reduceIte,
          List.length_take]
        omega
  ends := by
    rintro ⟨front, inner⟩ size hSize hBytes
    cases front with
    | nil => exact LawfulSource.ends inner size hSize hBytes
    | cons byte rest =>
        simp only [Source.read, pollRead, List.isEmpty_cons, Bool.false_eq_true, ↓reduceIte,
          List.take_eq_nil_iff, List.length_cons, reduceCtorEq, or_false] at hBytes
        omega

end PrefixedIo

inductive WireProtocol where
  | http1
  | http2
  deriving DecidableEq, Repr

/-- `PRI * HTTP/2.0`, two line ends, `SM` and two line ends. -/
def h2Preface : List UInt8 := utf8 ("PRI * HTTP/2.0\r\n\r\nSM\r\n\r\n" : Str)

section

variable {I : Type} [Source UInt8 I]

/-- The loop: the octets read so far and the stream after them. -/
def classifyLoop (http2Enabled : Bool) (front : List UInt8) (io : I) :
    PrefixedIo I × WireProtocol :=
  if ¬front <+: h2Preface then (⟨front, io⟩, .http1)
  else if front.length = h2Preface.length then
    (⟨front, io⟩, if http2Enabled then .http2 else .http1)
  else
    match Source.read io (h2Preface.length - front.length) with
    | ([], next) => (⟨front, next⟩, .http1)
    | (byte :: bytes, next) => classifyLoop http2Enabled (front ++ byte :: bytes) next
termination_by h2Preface.length - front.length
decreasing_by
  rename_i hMatches hPart
  have hShort := (not_not.mp hMatches).length_le
  simp only [List.length_append, List.length_cons]
  omega

/-- The classification of a cleartext stream, where neither shutdown nor timeout
nor an error of the stream comes first. -/
def classifyCleartext (http2Enabled : Bool) (io : I) : PrefixedIo I × WireProtocol :=
  classifyLoop http2Enabled [] io

variable [LawfulSource UInt8 I]

/-- The stream starts with the preface exactly where HTTP/2 is chosen, and
nothing of it is lost. -/
theorem classifyLoop_spec (http2Enabled : Bool) (front : List UInt8) (io : I)
    (hFront : front.length ≤ h2Preface.length) :
    Source.ahead (classifyLoop http2Enabled front io).1 = front ++ Source.ahead io ∧
      ((classifyLoop http2Enabled front io).2 = .http2 ↔
        h2Preface <+: front ++ Source.ahead io ∧ http2Enabled = true) := by
  induction front, io using classifyLoop.induct with
  | case1 front io hDiverged =>
      rw [classifyLoop, if_pos hDiverged]
      refine ⟨rfl, iff_of_false nofun ?_⟩
      rintro ⟨hPreface, -⟩
      exact hDiverged (List.prefix_of_prefix_length_le (List.prefix_append _ _) hPreface hFront)
  | case2 front io hMatches hWhole =>
      have hPreface : front = h2Preface := (not_not.mp hMatches).eq_of_length hWhole
      rw [classifyLoop, if_neg hMatches, if_pos hWhole]
      refine ⟨rfl, ?_⟩
      have hStarts : h2Preface <+: front ++ Source.ahead io :=
        hPreface ▸ List.prefix_append _ _
      cases http2Enabled <;> simp [hStarts]
  | case3 front io hMatches hPart next hRead =>
      have hShort := (not_not.mp hMatches).length_le
      have hSplit := LawfulSource.split io (h2Preface.length - front.length)
      have hEnd := LawfulSource.ends io (h2Preface.length - front.length) (by omega)
      rw [hRead] at hSplit hEnd
      rw [classifyLoop, if_neg hMatches, if_neg hPart, hRead]
      refine ⟨congrArg (front ++ ·) hSplit, iff_of_false nofun ?_⟩
      rintro ⟨hPreface, -⟩
      rw [hEnd rfl, List.append_nil] at hPreface
      have hLong := hPreface.length_le
      omega
  | case4 front io hMatches hPart byte bytes next hRead ih =>
      have hSplit := LawfulSource.split io (h2Preface.length - front.length)
      have hFits : (byte :: bytes).length ≤ h2Preface.length - front.length := by
        have hBytes := LawfulSource.fits io (h2Preface.length - front.length)
        rwa [hRead] at hBytes
      rw [hRead] at hSplit
      rw [classifyLoop, if_neg hMatches, if_neg hPart, hRead, ← hSplit, ← List.append_assoc]
      apply ih
      simp only [List.length_append]
      omega

end

/-- What sniffing must keep: the octets come back in order and each once through
any buffers, and HTTP/2 is chosen for the streams that start with the preface. -/
structure SniffsWell {I : Type} [Source UInt8 I] (http2Enabled : Bool) (io : I)
    (buffers : List Nat) : Prop where
  replays : Source.Replays (classifyCleartext http2Enabled io).1 (Source.ahead io) buffers
  protocol : (classifyCleartext http2Enabled io).2 = .http2 ↔
    h2Preface <+: Source.ahead io ∧ http2Enabled = true

theorem sniffsWell {I : Type} [Source UInt8 I] [LawfulSource UInt8 I] (http2Enabled : Bool)
    (io : I) {buffers : List Nat} (hBuffers : ∀ size ∈ buffers, 0 < size) :
    SniffsWell http2Enabled io buffers := by
  obtain ⟨hAhead, hProtocol⟩ := classifyLoop_spec http2Enabled [] io (Nat.zero_le _)
  rw [List.nil_append] at hAhead hProtocol
  refine ⟨?_, hProtocol⟩
  have hReplays := Source.replays_ahead (classifyCleartext http2Enabled io).1 hBuffers
  rwa [show Source.ahead (classifyCleartext http2Enabled io).1 = Source.ahead io from hAhead]
    at hReplays

/-- Sniffing loses no octet of a stream, however it is cut into segments and
whatever buffers are used after it, also behind octets left over from a PROXY
preamble; and only the whole preface selects HTTP/2. -/
theorem protocol_sniffing_loses_nothing (http2Enabled : Bool) (socket : Socket)
    (leftover : List UInt8) {buffers : List Nat} (hBuffers : ∀ size ∈ buffers, 0 < size) :
    SniffsWell http2Enabled socket buffers ∧
      SniffsWell http2Enabled (⟨leftover, socket⟩ : PrefixedIo Socket) buffers :=
  ⟨sniffsWell http2Enabled socket hBuffers, sniffsWell http2Enabled _ hBuffers⟩

/-- Two segments that cut the preface, and a byte after it. -/
def cutPreface : Socket where
  segments := [h2Preface.take 5, h2Preface.drop 5 ++ [7]]
  nonempty := by decide

theorem protocol_sniffing_loses_nothing_cut :
    (∀ size ∈ [1, 100], 0 < size) ∧ SniffsWell true cutPreface [1, 100] ∧
      SniffsWell true (⟨[0], cutPreface⟩ : PrefixedIo Socket) [1, 100] :=
  ⟨by decide, protocol_sniffing_loses_nothing true cutPreface [0] (by decide)⟩

end Eggserve.Server
