import Eggserve.Primitives.RequestLifecycle
import Eggserve.Primitives.Trailers

/-! Request bodies. A body can be read whole, chunk by chunk, or polled as a
stream; each way carries its own copy of the limit, length and trailer rules. -/
namespace Eggserve.Primitives
open Rust

inductive RequestBodyError where
  | limitExceeded (limit received : Nat)
  | prematureEof (received : Nat) (expected : Option Nat)
  | lengthMismatch (declared actual : Nat)
  | alreadyConsumed
  | mixedConsumptionMode
  | transport (message : Str)
  | invalidTrailers (message : Str)
  | trailersNotReady
  deriving DecidableEq

inductive BodyState where
  | unread
  | streaming
  | complete
  | error
  deriving DecidableEq, Repr

/-- One answer of the transport stream to a poll. After its last answer the
stream has ended. -/
inductive StreamPoll where
  | pending
  | chunk (data : List UInt8)
  | error (message : Str)
  deriving DecidableEq

inductive BodyInner where
  | incoming (stream : List StreamPoll)
  | fixed (data : List UInt8) (offset : Nat)
  | empty
  deriving DecidableEq

/-- The wire trailer slot holds what the transport put there, if anything. -/
abbrev WireTrailerSlot := Option (Except Str HeaderBlock)

structure RequestBody where
  inner : Option BodyInner
  declaredLength : Option Nat
  bytesReceived : Nat
  state : BodyState
  maxBytes : Nat
  shared : RequestShared
  trailerLimits : TrailerLimits
  completedTrailers : Option Trailers
  completedTrailerError : Option Str
  /-- `none` until the slot is created. -/
  wireSlot : Option WireTrailerSlot

/-- Drain the slot content and validate it. -/
def drainAndValidateWireSlot (wire : WireTrailerSlot) (limits : TrailerLimits) :
    Except Str (Option Trailers) :=
  match wire with
  | none => .ok none
  | some (.error message) => .error message
  | some (.ok block) =>
      match Trailers.withLimits block limits with
      | .ok trailers => .ok (some trailers)
      | .error e => .error e.display

def repeatedTrailerBlock : Str := "repeated trailer block"

namespace RequestBody

/-- An empty body. -/
def empty : RequestBody where
  inner := some .empty
  declaredLength := none
  bytesReceived := 0
  state := .unread
  maxBytes := u64Max
  shared := { bodyState := .complete }
  trailerLimits := {}
  completedTrailers := none
  completedTrailerError := none
  wireSlot := none

/-- A body from bytes in memory. Without bytes its lifecycle is complete at once. -/
def fromBytesWithShared (data : List UInt8) (maxBytes : Nat) (shared : RequestShared) :
    RequestBody where
  inner := some (.fixed data 0)
  declaredLength := some data.length
  bytesReceived := 0
  state := .unread
  maxBytes := maxBytes
  shared := if data.isEmpty then shared.markComplete else shared
  trailerLimits := {}
  completedTrailers := none
  completedTrailerError := none
  wireSlot := none

def fromBytes (data : List UInt8) (maxBytes : Nat) : RequestBody :=
  fromBytesWithShared data maxBytes {}

/-- A body from the network, with the slot that the transport fills. -/
def fromIncomingWithSharedAndWireSlot (stream : List StreamPoll) (declaredLength : Option Nat)
    (maxBytes : Nat) (shared : RequestShared) (wireSlot : WireTrailerSlot) : RequestBody where
  inner := some (.incoming stream)
  declaredLength := declaredLength
  bytesReceived := 0
  state := .unread
  maxBytes := maxBytes
  shared := shared
  trailerLimits := {}
  completedTrailers := none
  completedTrailerError := none
  wireSlot := some wireSlot

/-- The state after an error that ends consumption. -/
def fail (body : RequestBody) : RequestBody :=
  { body with state := .error, shared := body.shared.markFailed }

def finish (body : RequestBody) : RequestBody :=
  { body with state := .complete, shared := body.shared.markComplete }

/-- `wire_slot.get_or_init(new_wire_slot)`. -/
def initSlot (body : RequestBody) : RequestBody :=
  { body with wireSlot := some (body.wireSlot.getD none) }

def failTrailers (body : RequestBody) (message : Str) : Except RequestBodyError Unit × RequestBody :=
  (.error (.invalidTrailers message), { body with completedTrailerError := some message }.fail)

/-- Trailer handling after the bytes are validated. Without a slot there is
nothing to finalize. -/
def finalizeTrailers (body : RequestBody) : Except RequestBodyError Unit × RequestBody :=
  match body.wireSlot with
  | none => (.ok (), body)
  | some wire =>
      let drained := { body with wireSlot := some none }
      match drainAndValidateWireSlot wire body.trailerLimits with
      | .ok none => (.ok (), drained)
      | .ok (some trailers) =>
          if body.completedTrailers.isSome then drained.failTrailers repeatedTrailerBlock
          else (.ok (), { drained with completedTrailers := some trailers })
      | .error message => drained.failTrailers message

/-- Finalize the trailers, then complete with the given value. -/
def completeWith {α : Type} (body : RequestBody) (value : α) :
    Except RequestBodyError α × RequestBody :=
  match body.finalizeTrailers with
  | (.ok (), body) => (.ok value, body.finish)
  | (.error e, body) => (.error e, body)

/-- The limit and length checks on a new total. -/
def checkTotal (body : RequestBody) (total : Nat) : Except RequestBodyError Unit :=
  if total > body.maxBytes then .error (.limitExceeded body.maxBytes total)
  else
    match body.declaredLength with
    | some declared => if total > declared then .error (.lengthMismatch declared total) else .ok ()
    | none => .ok ()

/-- The end of the stream before the declared length. -/
def checkEof (body : RequestBody) : Except RequestBodyError Unit :=
  match body.declaredLength with
  | some declared =>
      if body.bytesReceived < declared then
        .error (.prematureEof body.bytesReceived (some declared))
      else .ok ()
  | none => .ok ()

/-- The error for a total beyond the machine word. -/
def overflowError (body : RequestBody) : RequestBodyError := .limitExceeded body.maxBytes u64Max

def chunkSize (data : List UInt8) (offset : Nat) : Nat := min (data.length - offset) 8192

/-- `stream.next().await`: the answers up to the first one that is ready. -/
def awaitNext : List StreamPoll → Option (Except Str (List UInt8)) × List StreamPoll
  | [] => (none, [])
  | .pending :: rest => awaitNext rest
  | .chunk data :: rest => (some (.ok data), rest)
  | .error message :: rest => (some (.error message), rest)

/-- The next chunk; `none` is the end of the body. An overflow of the total is
returned without ending the body. -/
def nextChunk (body : RequestBody) : Except RequestBodyError (Option (List UInt8)) × RequestBody :=
  if body.state = .error then (.error .alreadyConsumed, body)
  else if body.state = .complete then (.ok none, body)
  else
    let body := if body.state = .unread then { body with state := .streaming } else body
    match body.inner with
    | none => (.error .alreadyConsumed, body)
    | some .empty => body.completeWith none
    | some (.fixed data offset) =>
        if offset ≥ data.length then body.completeWith none
        else
          match checkedAdd body.bytesReceived (chunkSize data offset) with
          | none => (.error body.overflowError, body)
          | some total =>
              if total > body.maxBytes then
                (.error (.limitExceeded body.maxBytes total), body.fail)
              else
                let chunk := (data.drop offset).take (chunkSize data offset)
                let body := { body with
                  inner := some (.fixed data (offset + chunkSize data offset))
                  bytesReceived := total }
                if offset + chunkSize data offset ≥ data.length then body.completeWith (some chunk)
                else (.ok (some chunk), body)
    | some (.incoming stream) =>
        let (item, rest) := awaitNext stream
        let body := { body with inner := some (.incoming rest) }
        match item with
        | some (.ok chunk) =>
            match checkedAdd body.bytesReceived chunk.length with
            | none => (.error body.overflowError, body)
            | some total =>
                match body.checkTotal total with
                | .error e => (.error e, body.fail)
                | .ok () => (.ok (some chunk), { body with bytesReceived := total })
        | some (.error message) => (.error (.transport message), body.fail)
        | none =>
            match body.checkEof with
            | .error e => (.error e, body.fail)
            | .ok () => body.initSlot.completeWith none

/-- What `poll_next` answers. -/
inductive BodyPoll where
  | pending
  | ready (item : Option (Except RequestBodyError (List UInt8)))
  deriving DecidableEq

/-- The trailer step as `poll_next` writes it out: the slot is created first,
and the end of the stream follows. -/
def pollEnd (body : RequestBody) : BodyPoll × RequestBody :=
  let wire := body.wireSlot.getD none
  let drained := { body with wireSlot := some none }
  match drainAndValidateWireSlot wire body.trailerLimits with
  | .ok none => (.ready none, drained.finish)
  | .ok (some trailers) =>
      if body.completedTrailers.isSome then
        (.ready (some (.error (.invalidTrailers repeatedTrailerBlock))),
          { drained.fail with completedTrailerError := some repeatedTrailerBlock })
      else (.ready none, { drained with completedTrailers := some trailers }.finish)
  | .error message =>
      (.ready (some (.error (.invalidTrailers message))),
        { drained.fail with completedTrailerError := some message })

def pollFail (body : RequestBody) (e : RequestBodyError) : BodyPoll × RequestBody :=
  (.ready (some (.error e)), body.fail)

/-- A poll that hands out a chunk moves an unread body to streaming. -/
def pollChunk (body : RequestBody) (chunk : List UInt8) : BodyPoll × RequestBody :=
  (.ready (some (.ok chunk)),
    if body.state = .unread then { body with state := .streaming } else body)

def pollNext (body : RequestBody) : BodyPoll × RequestBody :=
  if body.state = .complete ∨ body.state = .error then (.ready none, body)
  else
    match body.inner with
    | none => (.ready none, body)
    | some .empty => body.pollEnd
    | some (.fixed data offset) =>
        if offset ≥ data.length then body.pollEnd
        else
          match checkedAdd body.bytesReceived (chunkSize data offset) with
          | none => body.pollFail body.overflowError
          | some total =>
              if total > body.maxBytes then body.pollFail (.limitExceeded body.maxBytes total)
              else
                let chunk := (data.drop offset).take (chunkSize data offset)
                let (poll, body) := { body with
                  inner := some (.fixed data (offset + chunkSize data offset))
                  bytesReceived := total }.pollChunk chunk
                -- The last chunk completes the body; the slot is not looked at.
                if offset + chunkSize data offset ≥ data.length then (poll, body.finish)
                else (poll, body)
    | some (.incoming []) =>
        match body.checkEof with
        | .error e => body.pollFail e
        | .ok () => body.pollEnd
    | some (.incoming (answer :: rest)) =>
        let body := { body with inner := some (.incoming rest) }
        match answer with
        | .pending => (.pending, body)
        | .error message => body.pollFail (.transport message)
        | .chunk chunk =>
            match checkedAdd body.bytesReceived chunk.length with
            | none => body.pollFail body.overflowError
            | some total =>
                match body.checkTotal total with
                | .error e => body.pollFail e
                | .ok () => { body with bytesReceived := total }.pollChunk chunk

/-- Dropping an unfinished network body abandons it. -/
def drop (body : RequestBody) : RequestBody :=
  match body.inner with
  | some (.incoming _) => { body with shared := body.shared.markAbandoned }
  | _ => body

end RequestBody

/-- The memory of the machine: the word size, and which vectors it can hold. -/
structure Allocator where
  usizeMax : Nat
  tryReserve : Nat → Bool

namespace RequestBody

/-- The reservation of `read_all` for a declared length is refused. -/
def ReserveRefused (alloc : Allocator) (body : RequestBody) : Prop :=
  ∃ declared, body.declaredLength = some declared ∧ 0 < min declared body.maxBytes ∧
    min declared body.maxBytes ≤ alloc.usizeMax ∧
    alloc.tryReserve (min declared body.maxBytes) = false

instance (alloc : Allocator) (body : RequestBody) : Decidable (body.ReserveRefused alloc) :=
  match h : body.declaredLength with
  | none => .isFalse (by rintro ⟨_, hSome, _⟩; simp [h] at hSome)
  | some declared =>
      decidable_of_iff (0 < min declared body.maxBytes ∧ min declared body.maxBytes ≤
        alloc.usizeMax ∧ alloc.tryReserve (min declared body.maxBytes) = false)
        (by simp [ReserveRefused, h])

/-- The receive loop of `read_all`. -/
def readStream (body : RequestBody) (buf : List UInt8) :
    List StreamPoll → Except RequestBodyError (List UInt8) × RequestBody
  | [] =>
      match body.checkEof with
      | .error e => (.error e, body.fail)
      | .ok () => body.completeWith buf
  | .pending :: rest => body.readStream buf rest
  | .error message :: _ => (.error (.transport message), body.fail)
  | .chunk chunk :: rest =>
      match checkedAdd body.bytesReceived chunk.length with
      | none => (.error body.overflowError, body)
      | some total =>
          match body.checkTotal total with
          | .error e => (.error e, body.fail)
          | .ok () => { body with bytesReceived := total }.readStream (buf ++ chunk) rest

/-- The whole body at once. The body is consumed, so it is dropped on return. -/
def readAll (alloc : Allocator) (body : RequestBody) :
    Except RequestBodyError (List UInt8) × RequestBody :=
  let (result, body) :=
    if body.state = .complete ∨ body.state = .error then (.error .alreadyConsumed, body)
    else if body.state = .streaming then (.error .mixedConsumptionMode, body)
    else
      let inner := body.inner
      let body := { body with inner := none }
      match inner with
      | none => (.error .alreadyConsumed, body)
      | some .empty => body.completeWith []
      | some (.fixed data offset) =>
          match checkedAdd body.bytesReceived (data.length - offset) with
          | none => (.error body.overflowError, body)
          | some total =>
              if total > body.maxBytes then
                (.error (.limitExceeded body.maxBytes total), body.fail)
              else { body with bytesReceived := total }.completeWith (data.drop offset)
      | some (.incoming stream) =>
          if body.ReserveRefused alloc then
            (.error (.limitExceeded body.maxBytes
              (min (body.declaredLength.getD 0) body.maxBytes)), body.fail)
          else body.readStream [] stream
  (result, body.drop)

end RequestBody

end Eggserve.Primitives
