import Eggserve.Server.StreamAdapter

/-! The HTTP/3 sender of a response stream, beside the HTTP/1 adapter. Nothing
times out, and the transport accepts every write. -/
namespace Eggserve.H3
open Rust Eggserve.Primitives Eggserve.Server

structure SendConfig where
  maxSendBufSize : Nat
  streamChunkSize : Nat
  deriving DecidableEq

inductive SendOutcome where
  | finished
  | failed (message : Str)
  | panicked
  deriving DecidableEq

/-- What the transport is given, and how the sender ends. -/
structure Sent where
  frames : List (List UInt8)
  trailers : List HeaderBlock
  outcome : SendOutcome
  deriving DecidableEq

/-- `chunks` of a slice. -/
def chunks (size : Nat) (data : List UInt8) : List (List UInt8) :=
  if data = [] ∨ size = 0 then [] else data.take size :: chunks size (data.drop size)
termination_by data.length
decreasing_by
  rename_i hMore
  have hLength : data.length ≠ 0 := fun hEmpty => hMore (.inl (List.length_eq_zero_iff.mp hEmpty))
  simp only [List.length_drop]
  omega

def sendBytes (config : SendConfig) (data : List UInt8) : List (List UInt8) :=
  chunks (max (min config.maxSendBufSize config.streamChunkSize) 1) data

def producerFailed : SendOutcome := .failed "response producer failed"

def lengthMismatch (declared emitted : Nat) : SendOutcome :=
  .failed (("response stream length mismatch: declared " : Str) ++ decimal declared ++
    (", emitted " : Str) ++ decimal emitted)

/-- The trailer block is sent as it is. -/
def sendTrailers : Option TrailerFuture → List HeaderBlock × SendOutcome
  | none => ([], .finished)
  | some ⟨_, .absent⟩ => ([], .finished)
  | some ⟨_, .block trailers⟩ => ([trailers.block], .finished)
  | some ⟨_, .error⟩ => ([], producerFailed)
  | some ⟨_, .panic⟩ => ([], .panicked)

/-- What follows the data: the length is compared once. -/
def endOfData (stream : StreamParts) (emitted : Nat) : Sent :=
  match stream.knownLength with
  | some declared =>
      if emitted ≠ declared then ⟨[], [], lengthMismatch declared emitted⟩
      else ⟨[], (sendTrailers stream.trailers).1, (sendTrailers stream.trailers).2⟩
  | none => ⟨[], (sendTrailers stream.trailers).1, (sendTrailers stream.trailers).2⟩

/-- The loop over the producer's items. Waiting for one leaves no trace. -/
def sendItems (config : SendConfig) (stream : StreamParts) : List ProducerPoll → Nat → Sent
  | [], emitted => endOfData stream emitted
  | .pending :: rest, emitted => sendItems config stream rest emitted
  | .chunk [] :: rest, emitted => sendItems config stream rest emitted
  | .chunk (b :: data) :: rest, emitted =>
      let sent := sendItems config stream rest (saturatingAdd emitted (b :: data).length)
      { sent with frames := sendBytes config (b :: data) ++ sent.frames }
  | .error :: _, _ => ⟨[], [], producerFailed⟩
  | .panic :: _, _ => ⟨[], [], .panicked⟩

def sendStream (config : SendConfig) (stream : StreamParts) : Sent :=
  sendItems config stream stream.items 0

/-! What reaches the transport. -/

/-- The body, the trailer blocks, and whether the response ended cleanly. -/
structure Delivered where
  data : List UInt8
  trailers : List HeaderBlock
  clean : Bool
  deriving DecidableEq

def Sent.delivered (sent : Sent) : Delivered :=
  ⟨sent.frames.flatten, sent.trailers, sent.outcome = .finished⟩

/-- An adapter that has just given this output is polled on, to its first end or
error. -/
inductive Delivers : Polled × ResponseStreamAdapter → Delivered → Prop where
  | finished (s : ResponseStreamAdapter) : Delivers (.finished, s) ⟨[], [], true⟩
  | error (error : StreamIoError) (s : ResponseStreamAdapter) :
      Delivers (.error error, s) ⟨[], [], false⟩
  | pending {s : ResponseStreamAdapter} {delivered : Delivered}
      (hNext : Delivers s.pollNext delivered) : Delivers (.pending, s) delivered
  | data {bytes : List UInt8} {s : ResponseStreamAdapter} {delivered : Delivered}
      (hNext : Delivers s.pollNext delivered) :
      Delivers (.data bytes, s) { delivered with data := bytes ++ delivered.data }
  | trailers {block : HeaderBlock} {s : ResponseStreamAdapter} {delivered : Delivered}
      (hNext : Delivers s.pollNext delivered) :
      Delivers (.trailers block, s) { delivered with trailers := block :: delivered.trailers }

/-- Both senders deliver the same, and no more data than declared. -/
def SendersAgree (stream : StreamParts) (chunkSize : Nat) (config : SendConfig) : Prop :=
  ∃ delivered, Delivers (ResponseStreamAdapter.new stream chunkSize).pollNext delivered ∧
    (sendStream config stream).delivered = delivered ∧
    ∀ length, stream.knownLength = some length → delivered.data.length ≤ length

/-! The condition. -/

/-- The data in front of the first failure. -/
def sentData : List ProducerPoll → List UInt8
  | .chunk data :: rest => data ++ sentData rest
  | .pending :: rest => sentData rest
  | _ => []

/-- The producer comes to its end. -/
def reachesEnd (items : List ProducerPoll) : Bool :=
  items.all fun item => item ≠ .error && item ≠ .panic

/-- The producer keeps to its declared length. -/
def WithinDeclared (stream : StreamParts) : Prop :=
  ∀ length, stream.knownLength = some length → (sentData stream.items).length ≤ length

/-- The trailers are due: all data was there, as much as declared. -/
def ReachesTrailers (stream : StreamParts) : Prop :=
  reachesEnd stream.items = true ∧
    ∀ length, stream.knownLength = some length → (sentData stream.items).length = length

/-- A block that is due stays inside the declaration, if there is one. -/
def TrailersDeclared (stream : StreamParts) : Prop :=
  ReachesTrailers stream → ∀ future trailers declaration, stream.trailers = some future →
    future.outcome = .block trailers → stream.trailerDeclaration = some declaration →
    ∀ field ∈ trailers.block, declaration.contains field.name.text = true

/-! What each sender delivers of a producer that keeps to its length. -/

/-- Whether the trailers are reached from here. -/
def ended (declared : Option Nat) (emitted : Nat) (items : List ProducerPoll) : Bool :=
  reachesEnd items && declared.all (· = emitted + (sentData items).length)

/-- The data up to the first failure, and the trailers if they are reached. -/
def deliveredWith (trailers : List HeaderBlock × Bool) (items : List ProducerPoll)
    (isEnded : Bool) : Delivered :=
  if isEnded then ⟨sentData items, trailers.1, trailers.2⟩ else ⟨sentData items, [], false⟩

/-- The items stay within the declared length. -/
def Fits (declared : Option Nat) (emitted : Nat) (items : List ProducerPoll) : Prop :=
  ∀ length, declared = some length →
    emitted + (sentData items).length ≤ length ∧ length ≤ u64Max

theorem deliveredWith_append {trailers : List HeaderBlock × Bool} {data : List UInt8}
    {rest : List ProducerPoll} {isEnded : Bool} :
    deliveredWith trailers (.chunk data :: rest) isEnded =
      { deliveredWith trailers rest isEnded with
        data := data ++ (deliveredWith trailers rest isEnded).data } := by
  unfold deliveredWith
  split <;> rfl

theorem ended_nil {declared : Option Nat} {emitted : Nat} :
    ended declared emitted [] = !declared.any (· ≠ emitted) := by
  cases declared <;> simp [ended, reachesEnd, sentData]

/-- A chunk counts as much before it is sent as after it. -/
theorem ended_chunk {declared : Option Nat} {emitted : Nat} {data : List UInt8}
    {rest : List ProducerPoll} (hFits : Fits declared emitted (.chunk data :: rest)) :
    ended declared (saturatingAdd emitted data.length) rest =
        ended declared emitted (.chunk data :: rest) ∧
      Fits declared (saturatingAdd emitted data.length) rest := by
  have hEnd : reachesEnd (.chunk data :: rest) = reachesEnd rest := by simp [reachesEnd]
  cases declared with
  | none => exact ⟨by simp [ended, hEnd], fun _ hNone => by cases hNone⟩
  | some length =>
      obtain ⟨hLength, hBound⟩ := hFits length rfl
      simp only [sentData, List.length_append] at hLength
      have hSum : saturatingAdd emitted data.length = emitted + data.length := by
        unfold saturatingAdd
        omega
      refine ⟨?_, ?_⟩
      · simp [ended, hEnd, hSum, sentData, Nat.add_assoc]
      · rintro _ ⟨⟩
        exact ⟨by omega, hBound⟩

section Http3

variable {config : SendConfig} {stream : StreamParts}

theorem flatten_chunks {size : Nat} (hSize : 0 < size) (data : List UInt8) :
    (chunks size data).flatten = data := by
  induction data using chunks.induct size with
  | case1 data hNone =>
      rw [chunks, if_pos hNone]
      rcases hNone with hEmpty | hZero
      · rw [hEmpty]
        rfl
      · omega
  | case2 data hMore ih =>
      rw [chunks, if_neg hMore, List.flatten_cons, ih, List.take_append_drop]

theorem flatten_sendBytes (data : List UInt8) : (sendBytes config data).flatten = data :=
  flatten_chunks (by omega) data

/-- The sender hands over everything up to the first failure. -/
theorem flatten_sendItems (items : List ProducerPoll) (emitted : Nat) :
    (sendItems config stream items emitted).frames.flatten = sentData items := by
  induction items, emitted using sendItems.induct config stream with
  | case1 emitted =>
      simp only [sendItems, endOfData]
      split
      · split <;> rfl
      · rfl
  | case2 rest emitted ih => exact ih
  | case3 rest emitted ih => exact ih
  | case4 b data rest emitted ih =>
      simp only [sendItems, sentData, List.flatten_append, flatten_sendBytes, ih]
  | case5 => rfl
  | case6 => rfl

def sentTrailers (trailers : Option TrailerFuture) : List HeaderBlock × Bool :=
  ((sendTrailers trailers).1, (sendTrailers trailers).2 = .finished)

theorem delivered_endOfData {emitted : Nat} :
    (endOfData stream emitted).delivered =
      deliveredWith (sentTrailers stream.trailers) [] (ended stream.knownLength emitted []) := by
  cases hKnown : stream.knownLength with
  | none => simp [endOfData, hKnown, Sent.delivered, deliveredWith, ended, sentTrailers, sentData,
      reachesEnd]
  | some length =>
      by_cases hSame : emitted = length
      · simp [endOfData, hKnown, hSame, Sent.delivered, deliveredWith, ended, sentTrailers,
          sentData, reachesEnd]
      · simp [endOfData, hKnown, hSame, Ne.symm hSame, Sent.delivered, deliveredWith, ended,
          sentData, reachesEnd, lengthMismatch]

theorem delivered_sendItems (items : List ProducerPoll) (emitted : Nat)
    (hFits : Fits stream.knownLength emitted items) :
    (sendItems config stream items emitted).delivered =
      deliveredWith (sentTrailers stream.trailers) items
        (ended stream.knownLength emitted items) := by
  induction items, emitted using sendItems.induct config stream with
  | case1 emitted => exact delivered_endOfData
  | case2 rest emitted ih => exact ih hFits
  | case3 rest emitted ih => exact ih hFits
  | case4 b data rest emitted ih =>
      obtain ⟨hEnded, hRest⟩ := ended_chunk hFits
      have hData : (sendItems config stream (.chunk (b :: data) :: rest) emitted).delivered =
          { (sendItems config stream rest
              (saturatingAdd emitted (b :: data).length)).delivered with
            data := (b :: data) ++ (sendItems config stream rest
              (saturatingAdd emitted (b :: data).length)).delivered.data } := by
        simp only [sendItems, Sent.delivered, List.flatten_append, flatten_sendBytes]
        rfl
      rw [hData, ih hRest, hEnded, deliveredWith_append]
  | case5 => rfl
  | case6 => rfl

end Http3

section Http1

variable {s : ResponseStreamAdapter}

/-- What the adapter makes of the trailers. -/
def checkedTrailers (s : ResponseStreamAdapter) : List HeaderBlock × Bool :=
  match s.trailers with
  | none => ([], true)
  | some ⟨_, .absent⟩ => ([], true)
  | some ⟨_, .block trailers⟩ =>
      if s.outsideDeclaration trailers then ([], false) else ([trailers.block], true)
  | some ⟨_, .error⟩ => ([], false)
  | some ⟨_, .panic⟩ => ([], false)

theorem pollNext_of_inner_none (hRunning : s.finished = false) (hNoSplit : s.pendingSplit = none)
    (hInner : s.inner = none) : s.pollNext = s.pollTrailers := by
  simp only [ResponseStreamAdapter.pollNext, hNoSplit, hRunning, hInner, Bool.false_eq_true,
    if_false]

theorem pollNext_of_inner_some {items : List ProducerPoll} (hRunning : s.finished = false)
    (hNoSplit : s.pendingSplit = none) (hInner : s.inner = some items) :
    s.pollNext = s.pollItems items 0 := by
  simp only [ResponseStreamAdapter.pollNext, hNoSplit, hRunning, hInner, Bool.false_eq_true,
    if_false]

/-- A future that is still pending will come to the same. -/
theorem checkedTrailers_waits {pendingPolls : Nat} {outcome : TrailerOutcome}
    (hTrailers : s.trailers = some ⟨pendingPolls + 1, outcome⟩) :
    checkedTrailers { s with trailers := some ⟨pendingPolls, outcome⟩ } = checkedTrailers s := by
  unfold checkedTrailers
  rw [hTrailers]
  cases outcome <;> rfl

theorem delivers_pollNext_of_no_trailers (hRunning : s.finished = false)
    (hNoSplit : s.pendingSplit = none) (hInner : s.inner = none) (hTrailers : s.trailers = none) :
    Delivers s.pollNext ⟨[], [], true⟩ := by
  rw [pollNext_of_inner_none hRunning hNoSplit hInner]
  simp only [ResponseStreamAdapter.pollTrailers, hTrailers]
  exact .finished _

/-- The induction is on how often the trailers are pending. -/
theorem delivers_future {pendingPolls : Nat} {outcome : TrailerOutcome}
    (hRunning : s.finished = false) (hNoSplit : s.pendingSplit = none) (hInner : s.inner = none)
    (hTrailers : s.trailers = some ⟨pendingPolls, outcome⟩) :
    Delivers s.pollTrailers ⟨[], (checkedTrailers s).1, (checkedTrailers s).2⟩ := by
  induction pendingPolls generalizing s with
  | zero =>
      simp only [ResponseStreamAdapter.pollTrailers, checkedTrailers, hTrailers]
      cases outcome with
      | absent => exact .finished _
      | error => exact .error _ _
      | panic => exact .error _ _
      | block trailers =>
          by_cases hOutside : s.outsideDeclaration trailers = true
          · simp only [hOutside, if_true]
            exact .error _ _
          · simp only [hOutside, Bool.false_eq_true, if_false]
            have hNext : Delivers ({ s with trailers := none, pendingSplit := none } :
                ResponseStreamAdapter).pollNext ⟨[], [], true⟩ :=
              delivers_pollNext_of_no_trailers hRunning rfl hInner rfl
            exact .trailers hNext
  | succ pendingPolls ih =>
      have hNext := ih (s := { s with trailers := some ⟨pendingPolls, outcome⟩ }) hRunning
        hNoSplit hInner rfl
      rw [checkedTrailers_waits hTrailers,
        ← pollNext_of_inner_none (s := { s with trailers := some ⟨pendingPolls, outcome⟩ }) hRunning
          hNoSplit hInner] at hNext
      simp only [ResponseStreamAdapter.pollTrailers, hTrailers]
      exact .pending hNext

theorem delivers_pollTrailers (hRunning : s.finished = false) (hNoSplit : s.pendingSplit = none)
    (hInner : s.inner = none) :
    Delivers s.pollTrailers ⟨[], (checkedTrailers s).1, (checkedTrailers s).2⟩ := by
  cases hTrailers : s.trailers with
  | none =>
      have hNext := delivers_pollNext_of_no_trailers hRunning hNoSplit hInner hTrailers
      rw [pollNext_of_inner_none hRunning hNoSplit hInner] at hNext
      simpa only [checkedTrailers, hTrailers] using hNext
  | some future => exact delivers_future hRunning hNoSplit hInner hTrailers

theorem length_splitPiece_le {data : List UInt8} :
    (s.splitPiece data).1.length ≤ data.length := by
  unfold ResponseStreamAdapter.splitPiece
  split
  · exact Nat.le_refl _
  · simp

/-- Nothing that fits is taken for an overrun. -/
theorem overruns_eq_false {piece : List UInt8} {count : Nat} (hPiece : piece.length ≤ count)
    (hFits : ∀ length, s.declared = some length → s.emitted + count ≤ length) :
    s.overruns (s.emittedWith piece) = false := by
  cases hDeclared : s.declared with
  | none => simp only [ResponseStreamAdapter.overruns, hDeclared, Option.any_none]
  | some length =>
      have hLength := hFits length hDeclared
      have hEmitted : s.emittedWith piece ≤ s.emitted + piece.length := Nat.min_le_left _ _
      rw [ResponseStreamAdapter.overruns, hDeclared]
      exact decide_eq_false (by omega)

/-- What is split is delivered piece by piece. -/
theorem delivers_pollSplit {pending : List UInt8} {delivered : Delivered}
    (hChunk : 0 < s.chunkSize) (hPending : pending ≠ [])
    (hFits : ∀ length, s.declared = some length → s.emitted + pending.length ≤ length)
    (hNext : Delivers ({ s with pendingSplit := none, emitted := s.emittedWith pending } :
      ResponseStreamAdapter).pollNext delivered) :
    Delivers (s.pollSplit pending) { delivered with data := pending ++ delivered.data } := by
  induction hCount : pending.length using Nat.strong_induction_on generalizing s pending with
  | _ count ih =>
      obtain ⟨hPiece, -, hParts, hRest⟩ :=
        ResponseStreamAdapter.splitPiece_spec hChunk hPending
      simp only [ResponseStreamAdapter.pollSplit]
      generalize (s.splitPiece pending).1 = piece at hPiece hParts ⊢
      generalize (s.splitPiece pending).2 = remainder at hParts hRest ⊢
      have hLength : pending.length = piece.length + (remainder.getD []).length := by
        rw [hParts, List.length_append]
      have hSum : s.emittedWith pending = saturatingAdd (s.emittedWith piece)
          (remainder.getD []).length := by
        simp only [ResponseStreamAdapter.emittedWith, saturatingAdd, hLength]
        omega
      simp only [overruns_eq_false (by omega : piece.length ≤ pending.length) hFits,
        Bool.false_eq_true, if_false]
      cases remainder with
      | none =>
          rw [Option.getD_none, List.append_nil] at hParts
          subst hParts
          exact .data hNext
      | some rest =>
          simp only [Option.getD_some] at hLength hParts hSum
          have hPositive : 0 < piece.length := List.length_pos_iff.mpr hPiece
          have hEmitted : s.emittedWith piece ≤ s.emitted + piece.length := Nat.min_le_left _ _
          rw [hSum] at hNext
          have hRestFits : ∀ length, s.declared = some length →
              s.emittedWith piece + rest.length ≤ length := by
            intro length hDeclared
            have hLeft := hFits length hDeclared
            omega
          have hTail : Delivers ({ s with
              pendingSplit := some rest
              emitted := s.emittedWith piece } : ResponseStreamAdapter).pollNext
              { delivered with data := rest ++ delivered.data } :=
            ih rest.length (by omega)
              (s := { s with pendingSplit := some rest, emitted := s.emittedWith piece })
              hChunk (hRest rest rfl) hRestFits hNext rfl
          rw [hParts, List.append_assoc]
          exact .data hTail

/-- A chunk that fits is split as a remainder is. -/
theorem pollChunk_eq_pollSplit {data : List UInt8} {rest : List ProducerPoll}
    (hFits : s.overruns (s.emittedWith (s.splitPiece data).1) = false) :
    s.pollChunk data rest = ResponseStreamAdapter.pollSplit { s with inner := some rest } data := by
  have hKeeps : ¬s.overruns (s.emittedWith (s.splitPiece data).1) = true := by simp [hFits]
  calc s.pollChunk data rest
      = (.data (s.splitPiece data).1, { s with
          inner := some rest
          pendingSplit := (s.splitPiece data).2
          emitted := s.emittedWith (s.splitPiece data).1 }) := if_neg hKeeps
    _ = ResponseStreamAdapter.pollSplit { s with inner := some rest } data := (if_neg hKeeps).symm

/-- The body phase, in one induction on what the producer still has. -/
theorem delivers_pollItems {items : List ProducerPoll} {emptyRuns : Nat}
    (hChunk : 0 < s.chunkSize) (hRunning : s.finished = false) (hNoSplit : s.pendingSplit = none)
    (hFits : Fits s.declared s.emitted items) :
    Delivers (s.pollItems items emptyRuns)
      (deliveredWith (checkedTrailers s) items (ended s.declared s.emitted items)) := by
  induction items generalizing s emptyRuns with
  | nil =>
      by_cases hShort : s.declared.any (· ≠ s.emitted) = true
      · rw [ResponseStreamAdapter.pollItems, if_pos hShort, ended_nil, hShort]
        exact .error _ _
      · rw [ResponseStreamAdapter.pollItems, if_neg hShort, ended_nil,
          Bool.eq_false_iff.mpr hShort]
        exact delivers_pollTrailers (s := { s with inner := none }) hRunning hNoSplit rfl
  | cons item rest ih =>
      -- The rest is asked for in a later poll.
      have hLater : ∀ t : ResponseStreamAdapter, 0 < t.chunkSize → t.finished = false →
          t.pendingSplit = none → t.inner = some rest → Fits t.declared t.emitted rest →
          Delivers t.pollNext
            (deliveredWith (checkedTrailers t) rest (ended t.declared t.emitted rest)) := by
        intro t hChunk hRunning hNoSplit hInner hFits
        rw [pollNext_of_inner_some hRunning hNoSplit hInner]
        exact ih hChunk hRunning hNoSplit hFits
      have hWaits (hFits : Fits s.declared s.emitted rest) :
          Delivers (.pending, { s with inner := some rest })
            (deliveredWith (checkedTrailers s) rest (ended s.declared s.emitted rest)) :=
        .pending (hLater { s with inner := some rest } hChunk hRunning hNoSplit rfl hFits)
      cases item with
      | pending => exact hWaits hFits
      | error => exact .error _ _
      | panic => exact .error _ _
      | chunk data =>
          cases data with
          | nil =>
              rw [ResponseStreamAdapter.pollItems]
              split
              · exact hWaits hFits
              · exact ih hChunk hRunning hNoSplit hFits
          | cons b data =>
              obtain ⟨hEnded, hRestFits⟩ := ended_chunk hFits
              have hFit : ∀ length, s.declared = some length →
                  s.emitted + (b :: data).length ≤ length := by
                intro length hDeclared
                have hLength := (hFits length hDeclared).1
                simp only [sentData, List.length_append] at hLength
                omega
              have hTail := hLater { s with
                inner := some rest
                pendingSplit := none
                emitted := s.emittedWith (b :: data) } hChunk hRunning rfl rfl hRestFits
              have hEnds : ended s.declared (s.emittedWith (b :: data)) rest =
                  ended s.declared s.emitted (.chunk (b :: data) :: rest) := hEnded
              rw [ResponseStreamAdapter.pollItems,
                pollChunk_eq_pollSplit (overruns_eq_false length_splitPiece_le hFit),
                deliveredWith_append, ← hEnds]
              exact delivers_pollSplit (s := { s with inner := some rest }) hChunk
                (List.cons_ne_nil b data) hFit hTail

/-- Polls decide what is delivered. -/
theorem Delivers.unique {polled : Polled × ResponseStreamAdapter} {delivered delivered' : Delivered}
    (hDelivers : Delivers polled delivered) (hDelivers' : Delivers polled delivered') :
    delivered = delivered' := by
  induction hDelivers generalizing delivered' with
  | finished =>
      cases hDelivers'
      rfl
  | error =>
      cases hDelivers'
      rfl
  | pending _ ih =>
      cases hDelivers' with
      | pending hNext => exact ih hNext
  | data _ ih =>
      cases hDelivers' with
      | data hNext => rw [ih hNext]
  | trailers _ ih =>
      cases hDelivers' with
      | trailers hNext => rw [ih hNext]

end Http1

section Agreement

variable {stream : StreamParts} {chunkSize : Nat} {config : SendConfig}

theorem fits_of_within (hWithin : WithinDeclared stream) :
    Fits stream.knownLength 0 stream.items := by
  intro length hLength
  rw [Nat.zero_add]
  exact ⟨hWithin length hLength, stream.bounded length hLength⟩

theorem ended_iff_reachesTrailers :
    ended stream.knownLength 0 stream.items = true ↔ ReachesTrailers stream := by
  unfold ended ReachesTrailers
  rw [Bool.and_eq_true, Nat.zero_add]
  refine and_congr_right fun _ => ?_
  cases stream.knownLength with
  | none => simp
  | some declared => simp [eq_comm]

theorem outsideDeclaration_eq_false_iff {trailers : Trailers} :
    (ResponseStreamAdapter.new stream chunkSize).outsideDeclaration trailers = false ↔
      ∀ declaration, stream.trailerDeclaration = some declaration →
        ∀ field ∈ trailers.block, declaration.contains field.name.text = true := by
  cases hDeclaration : stream.trailerDeclaration <;>
    simp [ResponseStreamAdapter.outsideDeclaration, ResponseStreamAdapter.new, hDeclaration]

/-- Behind the data the senders differ exactly over the declaration. -/
theorem checkedTrailers_eq_sentTrailers_iff (chunkSize : Nat) :
    checkedTrailers (.new stream chunkSize) = sentTrailers stream.trailers ↔
      ∀ future trailers declaration, stream.trailers = some future →
        future.outcome = .block trailers → stream.trailerDeclaration = some declaration →
        ∀ field ∈ trailers.block, declaration.contains field.name.text = true := by
  have hTrailers : (ResponseStreamAdapter.new stream chunkSize).trailers = stream.trailers := rfl
  constructor
  · rintro hSame ⟨pendingPolls, outcome⟩ trailers declaration hFuture ⟨⟩
    simp only [checkedTrailers, hTrailers, hFuture, sentTrailers, sendTrailers] at hSame
    split at hSame
    · cases hSame
    · rename_i hInside
      exact outsideDeclaration_eq_false_iff.mp (Bool.eq_false_iff.mpr hInside) declaration
  · intro hDeclared
    unfold checkedTrailers
    rw [hTrailers]
    split
    · rename_i hFuture
      rw [hFuture]
      rfl
    · rename_i hFuture
      rw [hFuture]
      rfl
    · rename_i trailers hFuture
      have hInside : (ResponseStreamAdapter.new stream chunkSize).outsideDeclaration trailers =
          false :=
        outsideDeclaration_eq_false_iff.mpr fun declaration =>
          hDeclared _ trailers declaration hFuture rfl
      rw [hInside, hFuture]
      rfl
    · rename_i hFuture
      rw [hFuture]
      rfl
    · rename_i hFuture
      rw [hFuture]
      rfl

theorem data_deliveredWith {trailers : List HeaderBlock × Bool} {items : List ProducerPoll}
    {isEnded : Bool} :
    (deliveredWith trailers items isEnded).data = sentData items := by
  unfold deliveredWith
  split <;> rfl

/-- Of a stream that keeps to its length the senders deliver the same, the
trailers apart. -/
theorem sendersAgree_iff_of_within (hWithin : WithinDeclared stream) :
    SendersAgree stream chunkSize config ↔ TrailersDeclared stream := by
  have hFits := fits_of_within hWithin
  have hHttp1 : Delivers (ResponseStreamAdapter.new stream chunkSize).pollNext
      (deliveredWith (checkedTrailers (.new stream chunkSize)) stream.items
        (ended stream.knownLength 0 stream.items)) :=
    delivers_pollItems (s := .new stream chunkSize) (Nat.le_max_right chunkSize 1) rfl rfl hFits
  have hHttp3 : (sendStream config stream).delivered = deliveredWith
      (sentTrailers stream.trailers) stream.items (ended stream.knownLength 0 stream.items) :=
    delivered_sendItems stream.items 0 hFits
  unfold TrailersDeclared
  rw [← checkedTrailers_eq_sentTrailers_iff chunkSize, ← ended_iff_reachesTrailers]
  constructor
  · rintro ⟨delivered, hDelivers, hSent, -⟩ hEnded
    have hSame := hSent.symm.trans hHttp3
    rw [← hHttp1.unique hDelivers, hEnded] at hSame
    injection hSame with _ hBlocks hClean
    exact Prod.ext hBlocks hClean
  · intro hTrailers
    refine ⟨_, hHttp1, ?_, ?_⟩
    · rw [hHttp3]
      cases hEnded : ended stream.knownLength 0 stream.items with
      | false => rfl
      | true => rw [hTrailers hEnded]
    · rw [data_deliveredWith]
      exact hWithin

/-- HTTP/3 has sent the data before it compares the lengths. -/
theorem withinDeclared_of_sendersAgree (hAgree : SendersAgree stream chunkSize config) :
    WithinDeclared stream := by
  obtain ⟨delivered, -, rfl, hBound⟩ := hAgree
  intro length hLength
  have hSent := hBound length hLength
  rwa [Sent.delivered, sendStream, flatten_sendItems] at hSent

end Agreement

/-- Both senders deliver the same of a stream, and no more than it declares,
exactly when the producer keeps to the declared length and the trailers, if they
are due, to the declared names. -/
theorem senders_agree_iff (stream : StreamParts) (chunkSize : Nat) (config : SendConfig) :
    SendersAgree stream chunkSize config ↔ WithinDeclared stream ∧ TrailersDeclared stream := by
  constructor
  · intro hAgree
    have hWithin := withinDeclared_of_sendersAgree hAgree
    exact ⟨hWithin, (sendersAgree_iff_of_within hWithin).mp hAgree⟩
  · exact fun ⟨hWithin, hTrailers⟩ => (sendersAgree_iff_of_within hWithin).mpr hTrailers

/-- One byte and the trailer `x-b`, where only `x-a` is announced. -/
def undeclaredTrailer : StreamParts where
  items := [.chunk [1]]
  knownLength := none
  trailers := some ⟨0, .block ⟨[⟨⟨"x-b", by decide⟩, ⟨[49], by decide, by decide⟩⟩], by decide⟩⟩
  trailerDeclaration := some ⟨[⟨"x-a", by decide⟩], by decide, by decide⟩
  bounded := fun _ hNone => by cases hNone

/-- HTTP/3 sends all five bytes where HTTP/1 stops after two, and finishes where
HTTP/1 refuses the trailer. -/
theorem senders_disagree :
    Delivers (ResponseStreamAdapter.new fiveForThree 2).pollNext ⟨[1, 2], [], false⟩ ∧
      (sendStream ⟨2, 2⟩ fiveForThree).delivered.data = [1, 2, 3, 4, 5] ∧
      ¬SendersAgree fiveForThree 2 ⟨2, 2⟩ ∧
      Delivers (ResponseStreamAdapter.new undeclaredTrailer 2).pollNext ⟨[1], [], false⟩ ∧
      (sendStream ⟨2, 2⟩ undeclaredTrailer).delivered.clean = true ∧
      ¬SendersAgree undeclaredTrailer 2 ⟨2, 2⟩ := by
  refine ⟨?_, flatten_sendItems _ _, fun hAgree => ?_, ?_, by decide, fun hAgree => ?_⟩
  · have hStop : Delivers (ResponseStreamAdapter.new fiveForThree 2).pollNext.2.pollNext
        ⟨[], [], false⟩ := .error _ _
    exact .data hStop
  · have hWithin := withinDeclared_of_sendersAgree hAgree 3 rfl
    revert hWithin
    decide
  · have hStop : Delivers (ResponseStreamAdapter.new undeclaredTrailer 2).pollNext.2.pollNext
        ⟨[], [], false⟩ := .error _ _
    exact .data hStop
  · have hWithin : WithinDeclared undeclaredTrailer := fun _ hNone => by cases hNone
    have hTrailers := (sendersAgree_iff_of_within hWithin).mp hAgree
      ⟨by decide, fun _ hNone => by cases hNone⟩ _ _ _ rfl rfl rfl
    revert hTrailers
    decide

end Eggserve.H3
