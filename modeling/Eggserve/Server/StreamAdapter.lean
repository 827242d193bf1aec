import Eggserve.Primitives.ResponseStream

/-! The HTTP/1 adapter of a response stream. A poll emits what is left of a
split chunk, or asks the producer, or asks for the trailers. -/
namespace Eggserve.Server
open Rust Eggserve.Primitives

inductive StreamIoError where
  | lengthMismatch
  | producerFailed
  deriving DecidableEq, Repr

/-- What a poll of the adapter gives; `finished` is the end of the body. -/
inductive Polled where
  | pending
  | data (bytes : List UInt8)
  | trailers (block : HeaderBlock)
  | error (error : StreamIoError)
  | finished
  deriving DecidableEq

structure ResponseStreamAdapter where
  inner : Option (List ProducerPoll)
  trailers : Option TrailerFuture
  declared : Option Nat
  trailerDeclaration : Option TrailerDeclaration
  emitted : Nat
  chunkSize : Nat
  pendingSplit : Option (List UInt8)
  finished : Bool
  deriving DecidableEq

namespace ResponseStreamAdapter

def new (stream : StreamParts) (chunkSize : Nat) : ResponseStreamAdapter where
  inner := some stream.items
  trailers := stream.trailers
  declared := stream.knownLength
  trailerDeclaration := stream.trailerDeclaration
  emitted := 0
  chunkSize := max chunkSize 1
  pendingSplit := none
  finished := false

variable (s : ResponseStreamAdapter)

/-- Whether this many bytes pass the declared length. -/
def overruns (emitted : Nat) : Bool := s.declared.any (· < emitted)

/-- The bytes emitted once this piece is, in a sum that saturates. -/
def emittedWith (piece : List UInt8) : Nat := saturatingAdd s.emitted piece.length

/-- The next piece of a split chunk and what is left behind it. -/
def splitPiece (pending : List UInt8) : List UInt8 × Option (List UInt8) :=
  if pending.length ≤ s.chunkSize then (pending, none)
  else (pending.take s.chunkSize, some (pending.drop s.chunkSize))

/-- A remainder is emitted before the producer is asked again. The remainder
behind a piece that overruns stays where it is. -/
def pollSplit (pending : List UInt8) : Polled × ResponseStreamAdapter :=
  let (piece, rest) := s.splitPiece pending
  if s.overruns (s.emittedWith piece) then
    (.error .lengthMismatch, { s with pendingSplit := rest, finished := true })
  else (.data piece, { s with pendingSplit := rest, emitted := s.emittedWith piece })

/-- A chunk of the producer. Here an overrun drops the remainder. -/
def pollChunk (data : List UInt8) (rest : List ProducerPoll) : Polled × ResponseStreamAdapter :=
  let (piece, remainder) := s.splitPiece data
  if s.overruns (s.emittedWith piece) then
    (.error .lengthMismatch,
      { s with inner := some rest, pendingSplit := none, finished := true })
  else
    (.data piece, { s with
      inner := some rest
      pendingSplit := remainder
      emitted := s.emittedWith piece })

def outsideDeclaration (trailers : Trailers) : Bool :=
  s.trailerDeclaration.any fun declaration =>
    trailers.block.any fun field => !declaration.contains field.name.text

/-- The body has ended. -/
def pollTrailers : Polled × ResponseStreamAdapter :=
  match s.trailers with
  | none => (.finished, { s with finished := true })
  | some ⟨pending + 1, outcome⟩ => (.pending, { s with trailers := some ⟨pending, outcome⟩ })
  | some ⟨0, .absent⟩ => (.finished, { s with trailers := none, finished := true })
  | some ⟨0, .block trailers⟩ =>
      if s.outsideDeclaration trailers then
        (.error .producerFailed, { s with finished := true })
      else (.trailers trailers.block, { s with trailers := none, pendingSplit := none })
  | some ⟨0, .error⟩ => (.error .producerFailed, { s with finished := true })
  | some ⟨0, .panic⟩ => (.error .producerFailed, { s with finished := true })

/-- The body phase: empty chunks are skipped, and many of them yield. -/
def pollItems : List ProducerPoll → Nat → Polled × ResponseStreamAdapter
  | [], _ =>
      if s.declared.any (· ≠ s.emitted) then
        (.error .lengthMismatch, { s with inner := some [], finished := true })
      else pollTrailers { s with inner := none }
  | .pending :: rest, _ => (.pending, { s with inner := some rest })
  | .chunk [] :: rest, emptyRuns =>
      if emptyRuns + 1 > 32 then (.pending, { s with inner := some rest })
      else pollItems rest (emptyRuns + 1)
  | .chunk (b :: data) :: rest, _ => s.pollChunk (b :: data) rest
  | .error :: rest, _ =>
      (.error .producerFailed, { s with inner := some rest, finished := true })
  | .panic :: rest, _ =>
      (.error .producerFailed, { s with inner := some rest, finished := true })

def pollNext : Polled × ResponseStreamAdapter :=
  match s.pendingSplit with
  | some pending => s.pollSplit pending
  | none =>
      if s.finished then (.finished, s)
      else
        match s.inner with
        | some items => s.pollItems items 0
        | none => s.pollTrailers

/-- The adapter after so many polls. -/
def after : Nat → ResponseStreamAdapter
  | 0 => s
  | n + 1 => (after n).pollNext.2

/-- What these polls gave, in order. -/
def outputs (n : Nat) : List Polled := (List.range n).map fun m => (s.after m).pollNext.1

end ResponseStreamAdapter

namespace Polled

def isData : Polled → Bool
  | data _ => true
  | _ => false

def isTrailers : Polled → Bool
  | trailers _ => true
  | _ => false

def isError : Polled → Bool
  | error _ => true
  | _ => false

def bytes : Polled → List UInt8
  | data bytes => bytes
  | _ => []

end Polled

def emittedData (outputs : List Polled) : List UInt8 := outputs.flatMap Polled.bytes

/-- What the polls of one adapter may give. -/
structure FaithfulOutputs (stream : StreamParts) (chunkSize : Nat) (outputs : List Polled) :
    Prop where
  inOrder : emittedData outputs <+: producedData stream.items
  within : ∀ length, stream.knownLength = some length → (emittedData outputs).length ≤ length
  sized : ∀ bytes, .data bytes ∈ outputs → bytes ≠ [] ∧ bytes.length ≤ max chunkSize 1
  oneBlock : outputs.countP Polled.isTrailers ≤ 1
  dataFirst : outputs.Pairwise fun earlier later =>
    earlier.isTrailers = true → later.isData = false
  allData : ∀ block, .trailers block ∈ outputs → emittedData outputs = producedData stream.items
  failsForGood : outputs.Pairwise fun earlier later =>
    earlier.isError = true → later.isData = false ∧ later.isTrailers = false
  endsForGood : outputs.Pairwise fun earlier later => earlier = .finished → later = .finished
  complete : .finished ∈ outputs → (∀ output ∈ outputs, output.isError = false) →
    ∀ length, stream.knownLength = some length → (emittedData outputs).length = length

namespace ResponseStreamAdapter

/-- The first chunk that a poll of the producer reaches, if any. -/
def nextChunk : List ProducerPoll → Nat → List UInt8
  | .chunk [] :: rest, emptyRuns =>
      if emptyRuns + 1 > 32 then [] else nextChunk rest (emptyRuns + 1)
  | .chunk (b :: data) :: _, _ => b :: data
  | _, _ => []

/-- The piece that the next poll is about to emit, if any. -/
def nextPiece (s : ResponseStreamAdapter) : List UInt8 :=
  match s.pendingSplit with
  | some pending => (s.splitPiece pending).1
  | none =>
      if s.finished then []
      else
        match s.inner with
        | some items => (s.splitPiece (nextChunk items 0)).1
        | none => []

/-- A failed poll has left a remainder whose next piece fits again, or the sum
that saturates hides that the piece passes the largest declared length. -/
def Misfires (s : ResponseStreamAdapter) : Prop :=
  (s.finished = true ∧ (∃ pending, s.pendingSplit = some pending) ∧
      s.overruns (s.emittedWith s.nextPiece) = false) ∨
    s.declared = some u64Max ∧ u64Max < s.emitted + s.nextPiece.length

/-! What a poll can do. -/

/-- The data that is still to be emitted. -/
def remaining (s : ResponseStreamAdapter) : List UInt8 :=
  s.pendingSplit.getD [] ++ producedData (s.inner.getD [])

/-- The adapter has reached the trailers with the length it declared. -/
structure Drained (s : ResponseStreamAdapter) : Prop where
  running : s.finished = false
  noSplit : s.pendingSplit = none
  empty : s.remaining = []
  exact : s.declared.any (· ≠ s.emitted) = false

inductive PollEffect (s : ResponseStreamAdapter) : Polled → ResponseStreamAdapter → Prop where
  | waits (inner : Option (List ProducerPoll)) (trailers : Option TrailerFuture)
      (hRunning : s.finished = false) (hNoSplit : s.pendingSplit = none)
      (hSame : producedData (inner.getD []) = producedData (s.inner.getD []))
      (hInner : s.inner = none → inner = none)
      (hExact : inner = none → s.declared.any (· ≠ s.emitted) = false)
      (hTrailers : s.trailers = none → trailers = none) :
      PollEffect s .pending { s with inner, trailers }
  | emits (inner : Option (List ProducerPoll)) (rest : Option (List UInt8))
      (hPiece : s.nextPiece ≠ []) (hSized : s.nextPiece.length ≤ s.chunkSize)
      (hFits : s.overruns (s.emittedWith s.nextPiece) = false)
      (hFinished : s.finished = true → ∃ pending, s.pendingSplit = some pending)
      (hInner : inner = none → s.inner = none)
      (hRest : ∀ pending, rest = some pending → pending ≠ [])
      (hData : s.remaining = s.nextPiece ++ (rest.getD [] ++ producedData (inner.getD []))) :
      PollEffect s (.data s.nextPiece)
        { s with inner, pendingSplit := rest, emitted := s.emittedWith s.nextPiece }
  | fails (error : StreamIoError) (inner : Option (List ProducerPoll))
      (rest : Option (List UInt8)) (hRest : ∀ pending, rest = some pending → pending ≠ [])
      (hFinished : s.finished = true → ∃ pending, s.pendingSplit = some pending) :
      PollEffect s (.error error) { s with inner, pendingSplit := rest, finished := true }
  | trails (trailers : Trailers) (hDrained : s.Drained) (hTrailers : s.trailers ≠ none) :
      PollEffect s (.trailers trailers.block)
        { s with inner := none, trailers := none, pendingSplit := none }
  | completes (trailers : Option TrailerFuture) (hDrained : s.Drained) :
      PollEffect s .finished { s with inner := none, trailers, finished := true }
  | stays (hFinished : s.finished = true) (hNoSplit : s.pendingSplit = none) :
      PollEffect s .finished s

/-- A piece is the front of what is split, and nothing of it is lost. -/
theorem splitPiece_spec {s : ResponseStreamAdapter} (hChunk : 0 < s.chunkSize) {data : List UInt8}
    (hData : data ≠ []) :
    (s.splitPiece data).1 ≠ [] ∧ (s.splitPiece data).1.length ≤ s.chunkSize ∧
      data = (s.splitPiece data).1 ++ (s.splitPiece data).2.getD [] ∧
      ∀ rest, (s.splitPiece data).2 = some rest → rest ≠ [] := by
  unfold splitPiece
  split
  · rename_i hShort
    exact ⟨hData, hShort, (List.append_nil data).symm, fun _ hRest => by cases hRest⟩
  · rename_i hLong
    have hLength : s.chunkSize < data.length := Nat.lt_of_not_le hLong
    refine ⟨?_, ?_, (List.take_append_drop _ _).symm, ?_⟩
    · rw [Ne, List.take_eq_nil_iff]
      exact fun h => h.elim (Nat.ne_of_gt hChunk) hData
    · simp
    · rintro rest ⟨⟩
      rw [Ne, List.drop_eq_nil_iff]
      exact Nat.not_le_of_lt hLength

theorem pollEffect_pollSplit {s : ResponseStreamAdapter} (hChunk : 0 < s.chunkSize)
    {pending : List UInt8} (hSplit : s.pendingSplit = some pending) (hPending : pending ≠ []) :
    PollEffect s (s.pollSplit pending).1 (s.pollSplit pending).2 := by
  have hNext : s.nextPiece = (s.splitPiece pending).1 := by
    simp only [nextPiece, hSplit]
  obtain ⟨hPiece, hSized, hParts, hRest⟩ := splitPiece_spec hChunk hPending
  rw [← hNext] at hPiece hSized hParts
  simp only [pollSplit, ← hNext]
  split
  · exact .fails _ s.inner _ hRest fun _ => ⟨pending, hSplit⟩
  · rename_i hFits
    refine .emits s.inner _ hPiece hSized (by simpa using hFits) (fun _ => ⟨pending, hSplit⟩) id
      hRest ?_
    rw [remaining, hSplit, Option.getD_some, ← List.append_assoc, ← hParts]

theorem pollEffect_pollTrailers {s t : ResponseStreamAdapter} (hDrained : s.Drained)
    (hState : t = { s with inner := none }) :
    PollEffect s t.pollTrailers.1 t.pollTrailers.2 := by
  have hProduced : producedData (s.inner.getD []) = [] :=
    (List.append_eq_nil_iff.mp hDrained.empty).2
  subst hState
  unfold pollTrailers
  split
  · exact .completes s.trailers hDrained
  · rename_i hTrailers
    refine .waits none _ hDrained.running hDrained.noSplit hProduced.symm (fun _ => rfl)
      (fun _ => hDrained.exact) ?_
    exact fun hNone => absurd (hTrailers.symm.trans hNone) (by simp)
  · exact .completes none hDrained
  · rename_i trailers hTrailers
    split
    · exact .fails _ none s.pendingSplit (by simp [hDrained.noSplit]) (by simp [hDrained.running])
    · exact .trails trailers hDrained (by simp [show s.trailers = _ from hTrailers])
  · exact .fails _ none s.pendingSplit (by simp [hDrained.noSplit]) (by simp [hDrained.running])
  · exact .fails _ none s.pendingSplit (by simp [hDrained.noSplit]) (by simp [hDrained.running])

theorem pollEffect_pollItems {s : ResponseStreamAdapter} (hChunk : 0 < s.chunkSize)
    (hRunning : s.finished = false) (hNoSplit : s.pendingSplit = none) (hInner : s.inner ≠ none)
    (items : List ProducerPoll) (emptyRuns : Nat)
    (hSame : producedData items = producedData (s.inner.getD []))
    (hNext : s.nextPiece = (s.splitPiece (nextChunk items emptyRuns)).1) :
    PollEffect s (s.pollItems items emptyRuns).1 (s.pollItems items emptyRuns).2 := by
  have hFails : ∀ error inner, PollEffect s (.error error) { s with inner, finished := true } :=
    fun error inner => .fails error inner s.pendingSplit (by simp [hNoSplit]) (by simp [hRunning])
  induction items, emptyRuns using pollItems.induct s with
  | case1 emptyRuns hMismatch =>
      rw [pollItems, if_pos hMismatch]
      exact hFails _ _
  | case2 emptyRuns hExact =>
      rw [pollItems, if_neg hExact]
      refine pollEffect_pollTrailers ⟨hRunning, hNoSplit, ?_, by simpa using hExact⟩ rfl
      rw [remaining, hNoSplit, ← hSame]
      rfl
  | case3 rest =>
      exact .waits (some rest) s.trailers hRunning hNoSplit hSame
        (fun hNone => absurd hNone hInner) (by simp) id
  | case4 rest emptyRuns hMany =>
      rw [pollItems, if_pos hMany]
      exact .waits (some rest) s.trailers hRunning hNoSplit hSame
        (fun hNone => absurd hNone hInner) (by simp) id
  | case5 rest emptyRuns hFew ih =>
      rw [pollItems, if_neg hFew]
      refine ih hSame ?_
      rw [hNext, nextChunk, if_neg hFew]
  | case6 b data rest =>
      rw [nextChunk] at hNext
      obtain ⟨hPiece, hSized, hParts, hRest⟩ := splitPiece_spec hChunk (List.cons_ne_nil b data)
      rw [← hNext] at hPiece hSized hParts
      simp only [pollItems, pollChunk, ← hNext]
      split
      · exact .fails _ _ none (by simp) (by simp [hRunning])
      · rename_i hFits
        refine .emits (some rest) _ hPiece hSized (by simpa using hFits) (by simp [hRunning])
          (by simp) hRest ?_
        rw [remaining, hNoSplit, Option.getD_none, List.nil_append, ← hSame, producedData,
          ← List.append_assoc, ← hParts]
        rfl
  | case7 rest => exact hFails _ _
  | case8 rest => exact hFails _ _

/-- Every poll of an adapter with nothing empty to emit has one of the effects. -/
theorem pollEffect_pollNext {s : ResponseStreamAdapter} (hChunk : 0 < s.chunkSize)
    (hPending : ∀ pending, s.pendingSplit = some pending → pending ≠ [])
    (hExact : s.finished = false → s.inner = none → s.declared.any (· ≠ s.emitted) = false) :
    PollEffect s s.pollNext.1 s.pollNext.2 := by
  unfold pollNext
  split
  · rename_i pending hSplit
    exact pollEffect_pollSplit hChunk hSplit (hPending pending hSplit)
  · rename_i hNoSplit
    split
    · rename_i hFinished
      exact .stays hFinished hNoSplit
    · rename_i hRunning
      rw [Bool.not_eq_true] at hRunning
      split
      · rename_i items hItems
        refine pollEffect_pollItems hChunk hRunning hNoSplit (by simp [hItems]) items 0
          (by simp [hItems]) ?_
        simp only [nextPiece, hNoSplit, hRunning, hItems, Bool.false_eq_true, if_false]
      · rename_i hNone
        refine pollEffect_pollTrailers ⟨hRunning, hNoSplit, ?_, hExact hRunning hNone⟩ ?_
        · simp [remaining, hNoSplit, hNone, producedData]
        · rw [← hNone]

end ResponseStreamAdapter

/-! Outputs that grow by one. -/

theorem emittedData_concat (outputs : List Polled) (output : Polled) :
    emittedData (outputs ++ [output]) = emittedData outputs ++ output.bytes := by
  simp [emittedData]

theorem emittedData_concat_quiet (outputs : List Polled) {output : Polled}
    (hQuiet : output.isData = false) : emittedData (outputs ++ [output]) = emittedData outputs := by
  have hBytes : output.bytes = [] := by
    cases output with
    | data bytes => cases hQuiet
    | pending => rfl
    | trailers block => rfl
    | error error => rfl
    | finished => rfl
  rw [emittedData_concat, hBytes, List.append_nil]

/-- The outputs of an adapter that still runs. -/
theorem running_concat {outputs : List Polled} {output : Polled}
    (hRunning : ∀ earlier ∈ outputs, earlier.isError = false ∧ earlier ≠ .finished)
    (hNew : output.isError = false ∧ output ≠ .finished) :
    ∀ earlier ∈ outputs ++ [output], earlier.isError = false ∧ earlier ≠ .finished := by
  intro earlier hEarlier
  rcases List.mem_append.mp hEarlier with hEarlier | hEarlier
  · exact hRunning earlier hEarlier
  · rwa [List.mem_singleton.mp hEarlier]

namespace FaithfulOutputs

variable {stream : StreamParts} {chunkSize : Nat} {outputs : List Polled}

/-- An output without data. -/
theorem concat_quiet (h : FaithfulOutputs stream chunkSize outputs) {output : Polled}
    (hQuiet : output.isData = false)
    (hBlock : output.isTrailers = true → outputs.countP Polled.isTrailers = 0 ∧
      emittedData outputs = producedData stream.items ∧
      ∀ earlier ∈ outputs, earlier.isError = false)
    (hEnds : .finished ∈ outputs → output = .finished)
    (hComplete : .finished ∈ outputs ++ [output] →
      (∀ earlier ∈ outputs ++ [output], earlier.isError = false) →
      ∀ length, stream.knownLength = some length → (emittedData outputs).length = length) :
    FaithfulOutputs stream chunkSize (outputs ++ [output]) := by
  have hSame := emittedData_concat_quiet outputs hQuiet
  refine ⟨?_, ?_, ?_, ?_, ?_, ?_, ?_, ?_, ?_⟩
  · rw [hSame]
    exact h.inOrder
  · rw [hSame]
    exact h.within
  · intro bytes hData
    rcases List.mem_append.mp hData with hData | hData
    · exact h.sized bytes hData
    · rw [← List.mem_singleton.mp hData] at hQuiet
      cases hQuiet
  · rw [List.countP_append, List.countP_singleton]
    split
    · rename_i hTrailers
      rw [(hBlock hTrailers).1]
    · exact h.oneBlock
  · rw [List.pairwise_append]
    refine ⟨h.dataFirst, List.pairwise_singleton _ _, fun earlier _ later hLater _ => ?_⟩
    rwa [List.mem_singleton.mp hLater]
  · rw [hSame]
    intro block hTrailers
    rcases List.mem_append.mp hTrailers with hTrailers | hTrailers
    · exact h.allData block hTrailers
    · exact (hBlock (by rw [← List.mem_singleton.mp hTrailers]; rfl)).2.1
  · rw [List.pairwise_append]
    refine ⟨h.failsForGood, List.pairwise_singleton _ _, fun earlier hEarlier later hLater hError => ?_⟩
    rw [List.mem_singleton.mp hLater]
    refine ⟨hQuiet, ?_⟩
    by_contra hTrailers
    rw [Bool.not_eq_false] at hTrailers
    cases hError.symm.trans ((hBlock hTrailers).2.2 earlier hEarlier)
  · rw [List.pairwise_append]
    refine ⟨h.endsForGood, List.pairwise_singleton _ _, fun earlier hEarlier later hLater hEnd => ?_⟩
    rw [List.mem_singleton.mp hLater]
    exact hEnds (hEnd ▸ hEarlier)
  · rw [hSame]
    exact hComplete

/-- A piece of data, while nothing has ended or failed. -/
theorem concat_data (h : FaithfulOutputs stream chunkSize outputs) {piece : List UInt8}
    (hPiece : piece ≠ []) (hSized : piece.length ≤ max chunkSize 1)
    (hOrder : emittedData outputs ++ piece <+: producedData stream.items)
    (hWithin : ∀ length, stream.knownLength = some length →
      (emittedData outputs).length + piece.length ≤ length)
    (hRunning : ∀ output ∈ outputs, output.isError = false ∧ output ≠ .finished)
    (hBlocks : outputs.countP Polled.isTrailers = 0) :
    FaithfulOutputs stream chunkSize (outputs ++ [.data piece]) := by
  have hNoBlock : ∀ output ∈ outputs, output.isTrailers = false := by
    simpa [List.countP_eq_zero] using hBlocks
  have hNoEnd : .finished ∉ outputs ++ [.data piece] := by
    intro hEnd
    rcases List.mem_append.mp hEnd with hEnd | hEnd
    · exact (hRunning _ hEnd).2 rfl
    · cases List.mem_singleton.mp hEnd
  refine ⟨?_, ?_, ?_, ?_, ?_, ?_, ?_, ?_, fun hEnd => absurd hEnd hNoEnd⟩
  · rw [emittedData_concat]
    exact hOrder
  · intro length hLength
    rw [emittedData_concat, List.length_append]
    exact hWithin length hLength
  · intro bytes hData
    rcases List.mem_append.mp hData with hData | hData
    · exact h.sized bytes hData
    · cases List.mem_singleton.mp hData
      exact ⟨hPiece, hSized⟩
  · rw [List.countP_append, hBlocks]
    simp [Polled.isTrailers]
  · rw [List.pairwise_append]
    refine ⟨h.dataFirst, List.pairwise_singleton _ _, fun earlier hEarlier _ _ hTrailers => ?_⟩
    cases hTrailers.symm.trans (hNoBlock earlier hEarlier)
  · intro block hTrailers
    rcases List.mem_append.mp hTrailers with hTrailers | hTrailers
    · cases hNoBlock _ hTrailers
    · cases List.mem_singleton.mp hTrailers
  · rw [List.pairwise_append]
    refine ⟨h.failsForGood, List.pairwise_singleton _ _, fun earlier hEarlier _ _ hError => ?_⟩
    cases hError.symm.trans (hRunning earlier hEarlier).1
  · rw [List.pairwise_append]
    refine ⟨h.endsForGood, List.pairwise_singleton _ _, fun earlier hEarlier _ _ hEnd => ?_⟩
    exact absurd hEnd (hRunning earlier hEarlier).2

end FaithfulOutputs

/-! The run of an adapter. -/

namespace ResponseStreamAdapter

variable {stream : StreamParts} {chunkSize : Nat} {outputs : List Polled}
  {s s' : ResponseStreamAdapter} {output : Polled}

/-- The adapter runs, it has ended or failed with nothing left, or a failed poll
has left a remainder. -/
inductive AdapterPhase (stream : StreamParts) (outputs : List Polled)
    (s : ResponseStreamAdapter) : Prop where
  | running (hFinished : s.finished = false)
      (hQuiet : ∀ output ∈ outputs, output.isError = false ∧ output ≠ .finished)
      (hData : producedData stream.items = emittedData outputs ++ s.remaining)
      (hInner : s.inner = none →
        s.pendingSplit = none ∧ s.declared.any (· ≠ s.emitted) = false)
      (hBlocks : outputs.countP Polled.isTrailers = 0 ∨ s.inner = none ∧ s.trailers = none)
  | ended (hFinished : s.finished = true) (hNoSplit : s.pendingSplit = none)
      (hExact : (∀ output ∈ outputs, output.isError = false) →
        ∀ length, stream.knownLength = some length → (emittedData outputs).length = length)
  | failed (hFinished : s.finished = true) (hSplit : s.pendingSplit ≠ none)
      (hError : ∃ output ∈ outputs, output.isError = true) (hOpen : .finished ∉ outputs)

structure AdapterTracked (stream : StreamParts) (chunkSize : Nat) (outputs : List Polled)
    (s : ResponseStreamAdapter) : Prop where
  faithful : FaithfulOutputs stream chunkSize outputs
  declared : s.declared = stream.knownLength
  chunk : s.chunkSize = max chunkSize 1
  emitted : s.emitted = min (emittedData outputs).length u64Max
  split : ∀ pending, s.pendingSplit = some pending → pending ≠ []
  phase : AdapterPhase stream outputs s

theorem adapterTracked_new (stream : StreamParts) (chunkSize : Nat) :
    AdapterTracked stream chunkSize [] (new stream chunkSize) where
  faithful := ⟨by simp [emittedData], by simp [emittedData], by simp, by simp, .nil, by simp, .nil,
    .nil, by simp⟩
  declared := rfl
  chunk := rfl
  emitted := by simp [new, emittedData]
  split := by simp [new]
  phase := .running rfl (by simp) rfl (by simp [new]) (.inl rfl)

/-- The counter is the length as long as a length is declared. -/
theorem AdapterTracked.emitted_eq (h : AdapterTracked stream chunkSize outputs s) {length : Nat}
    (hLength : stream.knownLength = some length) : s.emitted = (emittedData outputs).length := by
  have hWithin := h.faithful.within length hLength
  have hBound := stream.bounded length hLength
  rw [h.emitted]
  omega

/-- Nothing is emitted that passes the declared length. -/
theorem AdapterTracked.within_of_fits (h : AdapterTracked stream chunkSize outputs s)
    (hFits : s.overruns (s.emittedWith s.nextPiece) = false) (hNormal : ¬s.Misfires) :
    ∀ length, stream.knownLength = some length →
      (emittedData outputs).length + s.nextPiece.length ≤ length := by
  intro length hLength
  have hEmitted := h.emitted_eq hLength
  have hBound := stream.bounded length hLength
  have hDeclared : s.declared = some length := h.declared.trans hLength
  have hSum : min (s.emitted + s.nextPiece.length) u64Max ≤ length := by
    rw [overruns, hDeclared] at hFits
    exact Nat.le_of_not_lt (of_decide_eq_false hFits)
  by_cases hLargest : length = u64Max
  · have hReal : ¬u64Max < s.emitted + s.nextPiece.length :=
      fun hPasses => hNormal (.inr ⟨hLargest ▸ hDeclared, hPasses⟩)
    omega
  · omega

theorem adapterTracked_emits {inner : Option (List ProducerPoll)} {rest : Option (List UInt8)}
    (h : AdapterTracked stream chunkSize outputs s) (hNormal : ¬s.Misfires)
    (hPiece : s.nextPiece ≠ []) (hSized : s.nextPiece.length ≤ s.chunkSize)
    (hFits : s.overruns (s.emittedWith s.nextPiece) = false)
    (hFinished : s.finished = true → ∃ pending, s.pendingSplit = some pending)
    (hInner : inner = none → s.inner = none)
    (hRest : ∀ pending, rest = some pending → pending ≠ [])
    (hRemaining : s.remaining = s.nextPiece ++ (rest.getD [] ++ producedData (inner.getD []))) :
    AdapterTracked stream chunkSize (outputs ++ [.data s.nextPiece])
      { s with inner, pendingSplit := rest, emitted := s.emittedWith s.nextPiece } := by
  cases h.phase with
  | ended hDone hNoSplit =>
      obtain ⟨pending, hSplit⟩ := hFinished hDone
      cases hNoSplit.symm.trans hSplit
  | failed hDone => exact absurd (.inl ⟨hDone, hFinished hDone, hFits⟩) hNormal
  | running hRunning hQuiet hData hEnd hBlocks =>
      -- a piece is only there while the producer is
      have hProducer : s.inner ≠ none := by
        intro hNone
        refine hPiece ?_
        simp only [nextPiece, (hEnd hNone).1, hRunning, hNone, Bool.false_eq_true, if_false]
      have hNoBlock : outputs.countP Polled.isTrailers = 0 :=
        hBlocks.resolve_right fun hEnded => hProducer hEnded.1
      have hOrder : producedData stream.items = emittedData outputs ++ s.nextPiece ++
          (rest.getD [] ++ producedData (inner.getD [])) := by
        rw [hData, hRemaining, List.append_assoc]
      refine ⟨?_, h.declared, h.chunk, ?_, hRest, .running hRunning ?_ ?_ ?_ (.inl ?_)⟩
      · exact h.faithful.concat_data hPiece (h.chunk ▸ hSized) ⟨_, hOrder.symm⟩
          (h.within_of_fits hFits hNormal) hQuiet hNoBlock
      · rw [emittedData_concat, List.length_append]
        simp only [emittedWith, saturatingAdd, h.emitted, Polled.bytes]
        omega
      · exact running_concat hQuiet ⟨rfl, by simp⟩
      · rw [emittedData_concat]
        exact hOrder
      · exact fun hNone => absurd (hInner hNone) hProducer
      · rw [List.countP_append, hNoBlock]
        simp [Polled.isTrailers]

theorem adapterTracked_waits {inner : Option (List ProducerPoll)} {trailers : Option TrailerFuture}
    (h : AdapterTracked stream chunkSize outputs s) (hRunning : s.finished = false)
    (hNoSplit : s.pendingSplit = none)
    (hSame : producedData (inner.getD []) = producedData (s.inner.getD []))
    (hInner : s.inner = none → inner = none)
    (hExact : inner = none → s.declared.any (· ≠ s.emitted) = false)
    (hTrailers : s.trailers = none → trailers = none) :
    AdapterTracked stream chunkSize (outputs ++ [.pending]) { s with inner, trailers } := by
  cases h.phase with
  | ended hDone => cases hRunning.symm.trans hDone
  | failed hDone => cases hRunning.symm.trans hDone
  | running _ hQuiet hData hEnd hBlocks =>
      have hQuiet' : ∀ output ∈ outputs ++ [.pending],
          output.isError = false ∧ output ≠ .finished := running_concat hQuiet ⟨rfl, by simp⟩
      have hBytes : emittedData (outputs ++ [.pending]) = emittedData outputs :=
        emittedData_concat_quiet outputs rfl
      refine ⟨?_, h.declared, h.chunk, ?_, h.split, .running hRunning hQuiet' ?_ ?_ ?_⟩
      · refine h.faithful.concat_quiet rfl (fun hBlock => by cases hBlock) ?_ ?_
        · exact fun hEnded => absurd rfl (hQuiet _ hEnded).2
        · exact fun hEnded => absurd rfl (hQuiet' _ hEnded).2
      · rw [hBytes]
        exact h.emitted
      · rw [hBytes, hData, remaining, remaining, hSame]
      · exact fun hNone => ⟨hNoSplit, hExact hNone⟩
      · rw [List.countP_append]
        rcases hBlocks with hNone | ⟨hNoInner, hNoTrailers⟩
        · exact .inl (by rw [hNone]; rfl)
        · exact .inr ⟨hInner hNoInner, hTrailers hNoTrailers⟩

theorem adapterTracked_fails {error : StreamIoError} {inner : Option (List ProducerPoll)}
    {rest : Option (List UInt8)} (h : AdapterTracked stream chunkSize outputs s)
    (hRest : ∀ pending, rest = some pending → pending ≠ [])
    (hFinished : s.finished = true → ∃ pending, s.pendingSplit = some pending) :
    AdapterTracked stream chunkSize (outputs ++ [.error error])
      { s with inner, pendingSplit := rest, finished := true } := by
  have hOpen : .finished ∉ outputs := by
    cases h.phase with
    | running _ hQuiet => exact fun hEnded => (hQuiet _ hEnded).2 rfl
    | failed _ _ _ hOpen => exact hOpen
    | ended hDone hNoSplit =>
        obtain ⟨pending, hSplit⟩ := hFinished hDone
        cases hNoSplit.symm.trans hSplit
  have hError : ∃ output ∈ outputs ++ [.error error], output.isError = true :=
    ⟨.error error, by simp, rfl⟩
  have hNoExact : (∀ output ∈ outputs ++ [.error error], output.isError = false) →
      ∀ length, stream.knownLength = some length → (emittedData outputs).length = length := by
    intro hQuiet
    cases hQuiet (.error error) (by simp)
  have hBytes : emittedData (outputs ++ [.error error]) = emittedData outputs :=
    emittedData_concat_quiet outputs rfl
  refine ⟨?_, h.declared, h.chunk, ?_, hRest, ?_⟩
  · exact h.faithful.concat_quiet rfl (fun hBlock => by cases hBlock)
      (fun hEnded => absurd hEnded hOpen) fun _ => hNoExact
  · rw [hBytes]
    exact h.emitted
  · cases hRemainder : rest with
    | none => exact .ended rfl rfl (hBytes ▸ hNoExact)
    | some pending => exact .failed rfl (by simp) hError (by simpa using hOpen)

/-- A drained adapter has emitted everything, as long as it declared. -/
theorem AdapterTracked.drained (h : AdapterTracked stream chunkSize outputs s)
    (hDrained : s.Drained) :
    (∀ output ∈ outputs, output.isError = false ∧ output ≠ .finished) ∧
      producedData stream.items = emittedData outputs ∧
      (outputs.countP Polled.isTrailers = 0 ∨ s.inner = none ∧ s.trailers = none) ∧
      ∀ length, stream.knownLength = some length → (emittedData outputs).length = length := by
  cases h.phase with
  | ended hDone => cases hDrained.running.symm.trans hDone
  | failed hDone => cases hDrained.running.symm.trans hDone
  | running _ hQuiet hData _ hBlocks =>
      refine ⟨hQuiet, ?_, hBlocks, fun length hLength => ?_⟩
      · rw [hData, hDrained.empty, List.append_nil]
      · have hEmitted := h.emitted_eq hLength
        have hExact := hDrained.exact
        rw [h.declared, hLength] at hExact
        have hEqual : length = s.emitted := by simpa using hExact
        omega

theorem adapterTracked_trails {trailers : Trailers}
    (h : AdapterTracked stream chunkSize outputs s) (hDrained : s.Drained)
    (hTrailers : s.trailers ≠ none) :
    AdapterTracked stream chunkSize (outputs ++ [.trailers trailers.block])
      { s with inner := none, trailers := none, pendingSplit := none } := by
  obtain ⟨hQuiet, hData, hBlocks, -⟩ := h.drained hDrained
  have hNoBlock : outputs.countP Polled.isTrailers = 0 :=
    hBlocks.resolve_right fun hEnded => hTrailers hEnded.2
  have hQuiet' : ∀ output ∈ outputs ++ [.trailers trailers.block],
      output.isError = false ∧ output ≠ .finished := running_concat hQuiet ⟨rfl, by simp⟩
  have hBytes : emittedData (outputs ++ [.trailers trailers.block]) = emittedData outputs :=
    emittedData_concat_quiet outputs rfl
  refine ⟨?_, h.declared, h.chunk, ?_, by simp, .running hDrained.running hQuiet' ?_ ?_ ?_⟩
  · refine h.faithful.concat_quiet rfl ?_ ?_ ?_
    · exact fun _ => ⟨hNoBlock, hData.symm, fun earlier hEarlier => (hQuiet earlier hEarlier).1⟩
    · exact fun hEnded => absurd rfl (hQuiet _ hEnded).2
    · exact fun hEnded => absurd rfl (hQuiet' _ hEnded).2
  · rw [hBytes]
    exact h.emitted
  · rw [hBytes, hData]
    exact (List.append_nil _).symm
  · exact fun _ => ⟨rfl, hDrained.exact⟩
  · exact .inr ⟨rfl, rfl⟩

theorem adapterTracked_finished (inner : Option (List ProducerPoll))
    (trailers : Option TrailerFuture) (h : AdapterTracked stream chunkSize outputs s)
    (hNoSplit : s.pendingSplit = none)
    (hExact : (∀ output ∈ outputs, output.isError = false) →
      ∀ length, stream.knownLength = some length → (emittedData outputs).length = length) :
    AdapterTracked stream chunkSize (outputs ++ [.finished])
      { s with inner, trailers, finished := true } := by
  have hBytes : emittedData (outputs ++ [.finished]) = emittedData outputs :=
    emittedData_concat_quiet outputs rfl
  have hExact' : (∀ output ∈ outputs ++ [.finished], output.isError = false) →
      ∀ length, stream.knownLength = some length → (emittedData outputs).length = length :=
    fun hQuiet => hExact fun output hOutput => hQuiet output (List.mem_append_left _ hOutput)
  refine ⟨?_, h.declared, h.chunk, ?_, h.split, .ended rfl hNoSplit ?_⟩
  · exact h.faithful.concat_quiet rfl (fun hBlock => by cases hBlock) (fun _ => rfl)
      fun _ => hExact'
  · rw [hBytes]
    exact h.emitted
  · rw [hBytes]
    exact hExact'

/-- A poll that does not misfire. -/
theorem adapterTracked_step (h : AdapterTracked stream chunkSize outputs s)
    (hNormal : ¬s.Misfires) (hEffect : PollEffect s output s') :
    AdapterTracked stream chunkSize (outputs ++ [output]) s' := by
  cases hEffect with
  | waits inner trailers hRunning hNoSplit hSame hInner hExact hTrailers =>
      exact adapterTracked_waits h hRunning hNoSplit hSame hInner hExact hTrailers
  | emits inner rest hPiece hSized hFits hFinished hInner hRest hData =>
      exact adapterTracked_emits h hNormal hPiece hSized hFits hFinished hInner hRest hData
  | fails error inner rest hRest hFinished => exact adapterTracked_fails h hRest hFinished
  | trails trailers hDrained hTrailers => exact adapterTracked_trails h hDrained hTrailers
  | completes trailers hDrained =>
      exact adapterTracked_finished none trailers h hDrained.noSplit
        fun _ => (h.drained hDrained).2.2.2
  | stays hFinished hNoSplit =>
      have hSame : s = { s with finished := true } := by rw [← hFinished]
      rw [hSame]
      refine adapterTracked_finished s.inner s.trailers h hNoSplit ?_
      cases h.phase with
      | running hRunning => cases hRunning.symm.trans hFinished
      | failed _ hSplit => exact absurd hNoSplit hSplit
      | ended _ _ hExact => exact hExact

theorem AdapterTracked.pollEffect (h : AdapterTracked stream chunkSize outputs s) :
    PollEffect s s.pollNext.1 s.pollNext.2 := by
  refine pollEffect_pollNext (by rw [h.chunk]; omega) h.split fun hRunning hNone => ?_
  cases h.phase with
  | running _ _ _ hInner => exact (hInner hNone).2
  | ended hDone => cases hRunning.symm.trans hDone
  | failed hDone => cases hRunning.symm.trans hDone

theorem outputs_succ (n : Nat) : s.outputs (n + 1) = s.outputs n ++ [(s.after n).pollNext.1] := by
  rw [outputs, List.range_succ, List.map_append]
  rfl

theorem adapterTracked_outputs (n : Nat)
    (hNormal : ∀ m < n, ¬((new stream chunkSize).after m).Misfires) :
    AdapterTracked stream chunkSize ((new stream chunkSize).outputs n)
      ((new stream chunkSize).after n) := by
  induction n with
  | zero => exact adapterTracked_new stream chunkSize
  | succ n ih =>
      have h := ih fun m hm => hNormal m (Nat.lt_succ_of_lt hm)
      rw [outputs_succ]
      exact adapterTracked_step h (hNormal n (Nat.lt_succ_self n)) h.pollEffect

/-! A poll that misfires emits its piece. -/

theorem pollItems_eq_data (items : List ProducerPoll) (emptyRuns : Nat)
    (hPiece : nextChunk items emptyRuns ≠ [])
    (hFits : s.overruns (s.emittedWith (s.splitPiece (nextChunk items emptyRuns)).1) = false) :
    (s.pollItems items emptyRuns).1 = .data (s.splitPiece (nextChunk items emptyRuns)).1 := by
  induction items, emptyRuns using pollItems.induct s with
  | case1 => exact absurd rfl hPiece
  | case2 => exact absurd rfl hPiece
  | case3 => exact absurd rfl hPiece
  | case4 rest emptyRuns hMany =>
      rw [nextChunk, if_pos hMany] at hPiece
      exact absurd rfl hPiece
  | case5 rest emptyRuns hFew ih =>
      rw [nextChunk, if_neg hFew] at hPiece hFits ⊢
      rw [pollItems, if_neg hFew]
      exact ih hPiece hFits
  | case6 b data rest =>
      rw [nextChunk] at hFits ⊢
      simp only [pollItems, pollChunk, hFits, Bool.false_eq_true, if_false]
  | case7 => exact absurd rfl hPiece
  | case8 => exact absurd rfl hPiece

theorem pollNext_eq_data (hPiece : s.nextPiece ≠ [])
    (hFits : s.overruns (s.emittedWith s.nextPiece) = false) :
    s.pollNext.1 = .data s.nextPiece := by
  unfold pollNext
  split
  · rename_i pending hSplit
    have hNext : s.nextPiece = (s.splitPiece pending).1 := by
      simp only [nextPiece, hSplit]
    rw [hNext] at hFits ⊢
    simp only [pollSplit, hFits, Bool.false_eq_true, if_false]
  · rename_i hNoSplit
    split
    · rename_i hFinished
      simp only [nextPiece, hNoSplit, hFinished, if_true] at hPiece
      exact absurd rfl hPiece
    · rename_i hRunning
      split
      · rename_i items hItems
        have hNext : s.nextPiece = (s.splitPiece (nextChunk items 0)).1 := by
          simp only [nextPiece, hNoSplit, hRunning, hItems, if_false, Bool.false_eq_true]
        rw [hNext] at hPiece hFits ⊢
        refine pollItems_eq_data items 0 (fun hEmpty => hPiece ?_) hFits
        rw [hEmpty]
        simp [splitPiece]
      · rename_i hNone
        simp only [nextPiece, hNoSplit, hRunning, hNone, if_false, Bool.false_eq_true] at hPiece
        exact absurd rfl hPiece

/-- Whatever follows it, a poll that misfires has broken the outputs. -/
theorem AdapterTracked.not_faithful (h : AdapterTracked stream chunkSize outputs s)
    (hMisfires : s.Misfires) (later : List Polled) :
    ¬FaithfulOutputs stream chunkSize (outputs ++ [s.pollNext.1] ++ later) := by
  intro hFaithful
  rcases hMisfires with ⟨hFinished, ⟨pending, hSplit⟩, hFits⟩ | ⟨hDeclared, hPasses⟩
  · have hPiece : s.nextPiece ≠ [] := by
      simp only [nextPiece, hSplit]
      exact (splitPiece_spec (by rw [h.chunk]; omega) (h.split pending hSplit)).1
    have hError : ∃ output ∈ outputs, output.isError = true := by
      cases h.phase with
      | running hRunning => cases hRunning.symm.trans hFinished
      | ended _ hNoSplit => cases hNoSplit.symm.trans hSplit
      | failed _ _ hError => exact hError
    obtain ⟨output, hOutput, hIsError⟩ := hError
    rw [pollNext_eq_data hPiece hFits] at hFaithful
    have hPairs := (List.pairwise_append.mp (List.pairwise_append.mp hFaithful.failsForGood).1).2.2
    cases (hPairs output hOutput _ (List.mem_singleton_self _) hIsError).1
  · have hKnown : stream.knownLength = some u64Max := h.declared.symm.trans hDeclared
    have hEmitted := h.emitted_eq hKnown
    have hBound := h.faithful.within u64Max hKnown
    have hPiece : s.nextPiece ≠ [] := by
      intro hEmpty
      rw [hEmpty, List.length_nil] at hPasses
      omega
    have hFits : s.overruns (s.emittedWith s.nextPiece) = false := by
      rw [overruns, hDeclared]
      exact decide_eq_false (Nat.not_lt.mpr (Nat.min_le_right _ _))
    rw [pollNext_eq_data hPiece hFits] at hFaithful
    have hWithin := hFaithful.within u64Max hKnown
    rw [emittedData, List.flatMap_append, List.length_append] at hWithin
    have hFront : (List.flatMap Polled.bytes (outputs ++ [.data s.nextPiece])).length =
        (emittedData outputs).length + s.nextPiece.length := by
      simp [emittedData, Polled.bytes]
    omega

theorem outputs_extend {m n : Nat} (h : m ≤ n) : ∃ later, s.outputs n = s.outputs m ++ later := by
  induction n, h using Nat.le_induction with
  | base => exact ⟨[], (List.append_nil _).symm⟩
  | succ n _ ih =>
      obtain ⟨later, hLater⟩ := ih
      exact ⟨later ++ [(s.after n).pollNext.1], by rw [outputs_succ, hLater, List.append_assoc]⟩

end ResponseStreamAdapter

/-- The outputs of any number of polls are as they should be exactly when none
of these polls is made where a failed poll has left a remainder that fits again,
or where the saturating sum hides that the largest declared length is passed. -/
theorem adapter_outputs_faithful_iff (stream : StreamParts) (chunkSize n : Nat) :
    FaithfulOutputs stream chunkSize ((ResponseStreamAdapter.new stream chunkSize).outputs n) ↔
      ∀ m < n, ¬((ResponseStreamAdapter.new stream chunkSize).after m).Misfires := by
  constructor
  · intro hFaithful m
    induction m using Nat.strong_induction_on with
    | _ m ih =>
        intro hm hMisfires
        have h : ResponseStreamAdapter.AdapterTracked stream chunkSize _ _ :=
          ResponseStreamAdapter.adapterTracked_outputs m
            fun k hk => ih k hk (Nat.lt_trans hk hm)
        obtain ⟨later, hLater⟩ := ResponseStreamAdapter.outputs_extend
          (s := ResponseStreamAdapter.new stream chunkSize) (Nat.succ_le_of_lt hm)
        rw [hLater, ResponseStreamAdapter.outputs_succ] at hFaithful
        exact h.not_faithful hMisfires later hFaithful
  · exact fun hNormal => (ResponseStreamAdapter.adapterTracked_outputs n hNormal).faithful

/-- Five bytes at once where three are declared, sent two by two. -/
def fiveForThree : StreamParts where
  items := [.chunk [1, 2, 3, 4, 5]]
  knownLength := some 3
  trailers := none
  trailerDeclaration := none
  bounded := by
    rintro length ⟨⟩
    decide

/-- The poll after the error emits the last byte. -/
theorem data_after_overrun :
    (ResponseStreamAdapter.new fiveForThree 2).outputs 3 =
        [.data [1, 2], .error .lengthMismatch, .data [5]] ∧
      ¬FaithfulOutputs fiveForThree 2 ((ResponseStreamAdapter.new fiveForThree 2).outputs 3) := by
  have hOutputs : (ResponseStreamAdapter.new fiveForThree 2).outputs 3 =
      [.data [1, 2], .error .lengthMismatch, .data [5]] := by decide
  refine ⟨hOutputs, fun hFaithful => ?_⟩
  have hFails := hFaithful.failsForGood
  rw [hOutputs] at hFails
  revert hFails
  decide

end Eggserve.Server
