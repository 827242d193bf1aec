import Eggserve.Primitives.BodyDrop

/-! What the consumer of a network body is told when its stream gives one
answer, whichever way the body is consumed. -/
namespace Eggserve.Primitives
open Rust Transition

/-- What the caller learns: a chunk, the end together with the octets that were
collected for it, or an error. -/
inductive Told where
  | nothing
  | chunk (data : List UInt8)
  | ended (data : List UInt8)
  | error
  deriving DecidableEq

def toldByNextChunk : Option (Except RequestBodyError (Option (List UInt8))) → Told
  | none => .nothing
  | some (.ok (some data)) => .chunk data
  | some (.ok none) => .ended []
  | some (.error _) => .error

def toldByPollNext : RequestBody.BodyPoll → Told
  | .pending => .nothing
  | .ready (some (.ok data)) => .chunk data
  | .ready none => .ended []
  | .ready (some (.error _)) => .error

def toldByFuture : FutureAnswer → Told
  | .readAll (.ok data) => .ended data
  | .readAllWithTrailers (.ok (data, _)) => .ended data
  | .readAll (.error _) | .readAllWithTrailers (.error _) => .error

instance (state : BodyState) : Decidable state.Live :=
  inferInstanceAs (Decidable (state = .unread ∨ state = .streaming))

namespace RequestBody

/-- The end of the stream would pass the length and the trailer checks. -/
def acceptsEnd (body : RequestBody) : Bool := body.checkEof.isOk && body.trailerVerdict.isOk

/-- The body with the given answers next. -/
def offer (body : RequestBody) (polls : List StreamPoll) : RequestBody :=
  { body with inner := some (.incoming polls) }

/-- The transport writes to the trailer slot. -/
def mapSlot (body : RequestBody) (f : WireTrailerSlot → WireTrailerSlot) : RequestBody :=
  { body with wireSlot := body.wireSlot.map f }

end RequestBody

/-- What an owner does not do itself. -/
def OwnerAction.isOutside : OwnerAction → Bool
  | .use op => op.isOutside
  | _ => false

namespace BodyOwner

def shared : BodyOwner → RequestShared
  | .holding body | .readAll body | .receiving body _ _ _ | .readAllWithTrailers body
  | .collecting body _ _ => body.shared
  | .gone shared _ => shared

/-- The octets that a future has collected. -/
def buffer : BodyOwner → List UInt8
  | .receiving _ _ buf _ | .collecting _ buf _ => buf
  | _ => []

/-- The next answers of the stream are there. -/
def offer (polls : List StreamPoll) : BodyOwner → BodyOwner
  | .holding body => .holding (body.offer polls)
  | .readAll body => .readAll (body.offer polls)
  | .receiving body _ buf waiting => .receiving body polls buf waiting
  | .readAllWithTrailers body => .readAllWithTrailers (body.offer polls)
  | .collecting body buf waiting => .collecting (body.offer polls) buf waiting
  | .gone shared answer => .gone shared answer

/-- The trailer slot is shared with the transport. -/
def mapSlot (f : WireTrailerSlot → WireTrailerSlot) : BodyOwner → BodyOwner
  | .holding body => .holding (body.mapSlot f)
  | .readAll body => .readAll (body.mapSlot f)
  | .receiving body stream buf waiting => .receiving (body.mapSlot f) stream buf waiting
  | .readAllWithTrailers body => .readAllWithTrailers (body.mapSlot f)
  | .collecting body buf waiting => .collecting (body.mapSlot f) buf waiting
  | .gone shared answer => .gone shared answer

/-- `read_all_with_trailers` also looks for a trailer error of an earlier end. -/
def acceptsEnd : BodyOwner → Bool
  | .holding body | .readAll body | .receiving body _ _ _ | .readAllWithTrailers body =>
      body.acceptsEnd
  | .collecting body _ _ => body.acceptsEnd && body.completedTrailerError.isNone
  | .gone _ _ => false

/-- The action polls the stream of the body. -/
def asksStream : BodyOwner → OwnerAction → Bool
  | .holding body, .use .nextChunk | .holding body, .use .pollNext => decide body.state.Live
  | .receiving _ _ _ _, .poll => true
  | .collecting body _ _, .poll => decide body.state.Live
  | _, _ => false

/-- What the caller learns from an action. -/
def told (before : BodyOwner) (action : OwnerAction) (after : BodyOwner) : Told :=
  match before, action, after with
  | .holding body, .use .nextChunk, _ => toldByNextChunk body.pollNextChunk.1
  | .holding body, .use .pollNext, _ => toldByPollNext body.pollNext.1
  | _, .poll, .gone _ (some answer) => toldByFuture answer
  | _, _, _ => .nothing

end BodyOwner

/-! One answer of the stream, met by a body that is read. -/

/-- What a body that is read makes of the answers it is offered. -/
inductive BodyHears (body : RequestBody) : List StreamPoll → Told → RequestBody → Prop where
  | waits (state : BodyState) (hState : state.Live) :
      BodyHears body [.pending] .nothing { body with inner := some (.incoming []), state }
  | hands (data : List UInt8) (state : BodyState) (total : Nat) (hState : state.Live) :
      BodyHears body [.chunk data] (.chunk data)
        { body with inner := some (.incoming []), state, bytesReceived := total }
  | fails (polls : List StreamPoll) (after : RequestBody) (hNetwork : after.Network)
      (hShared : after.state.Live → after.shared = body.shared)
      (hRefused : polls = [] → body.acceptsEnd = false) :
      BodyHears body polls .error after
  | ends (after : RequestBody) (hAccepts : body.acceptsEnd = true) (hNetwork : after.Network)
      (hState : after.state = .complete)
      (hError : after.completedTrailerError = body.completedTrailerError) :
      BodyHears body [] (.ended []) after

theorem BodyHears.network {body after : RequestBody} {polls : List StreamPoll} {answer : Told}
    (h : BodyHears body polls answer after) (hNetwork : body.Network) : after.Network := by
  cases h with
  | waits _ _ => exact ⟨⟨[], rfl⟩, hNetwork.slot⟩
  | hands _ _ _ _ => exact ⟨⟨[], rfl⟩, hNetwork.slot⟩
  | fails _ _ hAfter _ _ => exact hAfter
  | ends _ _ hAfter _ _ => exact hAfter

namespace RequestBody

section Hears

variable {body : RequestBody} {wire : WireTrailerSlot}

/-- Completion succeeds exactly where the trailers are accepted. -/
theorem completeWith_cases {α : Type} (value : α) (hSlot : body.wireSlot = some wire) :
    (∃ after, body.completeWith value = (.ok value, after) ∧ body.trailerVerdict.isOk = true ∧
      after.state = .complete ∧ after.inner = body.inner ∧ after.wireSlot = some none ∧
      after.completedTrailerError = body.completedTrailerError) ∨
    ∃ e after, body.completeWith value = (.error e, after) ∧ body.trailerVerdict.isOk = false ∧
      after.state = .error ∧ after.inner = body.inner ∧ after.wireSlot = some none := by
  obtain ⟨inner, declaredLength, received, state, maxBytes, shared, limits, completed, message,
    slot⟩ := body
  simp only at hSlot
  subst hSlot
  simp only [completeWith, finalizeTrailers, trailerVerdict, Option.getD_some]
  cases drainAndValidateWireSlot wire limits with
  | error text =>
      refine .inr ⟨_, _, rfl, ?_⟩
      exact ⟨rfl, rfl, rfl, rfl⟩
  | ok found =>
      cases found with
      | none =>
          refine .inl ⟨_, rfl, ?_⟩
          exact ⟨rfl, rfl, rfl, rfl, rfl⟩
      | some trailers =>
          cases completed with
          | none =>
              refine .inl ⟨_, rfl, ?_⟩
              exact ⟨rfl, rfl, rfl, rfl, rfl⟩
          | some earlier =>
              refine .inr ⟨_, _, rfl, ?_⟩
              exact ⟨rfl, rfl, rfl, rfl⟩

/-- The same for the polled copy of the trailer step. -/
theorem pollEnd_accepts (body : RequestBody) :
    (∃ after, body.pollEnd = (.ready none, after) ∧ body.trailerVerdict.isOk = true ∧
      after.state = .complete ∧ after.inner = body.inner ∧ after.wireSlot = some none ∧
      after.completedTrailerError = body.completedTrailerError) ∨
    ∃ e after, body.pollEnd = (.ready (some (.error e)), after) ∧
      body.trailerVerdict.isOk = false ∧ after.state = .error ∧ after.inner = body.inner ∧
      after.wireSlot = some none := by
  obtain ⟨inner, declaredLength, received, state, maxBytes, shared, limits, completed, message,
    slot⟩ := body
  simp only [pollEnd, trailerVerdict]
  cases drainAndValidateWireSlot (slot.getD none) limits with
  | error text =>
      refine .inr ⟨_, _, rfl, ?_⟩
      exact ⟨rfl, rfl, rfl, rfl⟩
  | ok found =>
      cases found with
      | none =>
          refine .inl ⟨_, rfl, ?_⟩
          exact ⟨rfl, rfl, rfl, rfl, rfl⟩
      | some trailers =>
          cases completed with
          | none =>
              refine .inl ⟨_, rfl, ?_⟩
              exact ⟨rfl, rfl, rfl, rfl, rfl⟩
          | some earlier =>
              refine .inr ⟨_, _, rfl, ?_⟩
              exact ⟨rfl, rfl, rfl, rfl⟩

theorem acceptsEnd_of_checkEof (hEof : body.checkEof = .ok ()) :
    body.acceptsEnd = body.trailerVerdict.isOk := by
  rw [acceptsEnd, hEof]
  rfl

theorem refuses_of_checkEof {e : RequestBodyError} (hEof : body.checkEof = .error e) :
    body.acceptsEnd = false := by
  rw [acceptsEnd, hEof]
  rfl

theorem network_offer (body : RequestBody) (h : body.Network) (polls : List StreamPoll) :
    (body.offer polls).Network :=
  ⟨⟨polls, rfl⟩, h.slot⟩

theorem network_of_slot {after : RequestBody} {stream : List StreamPoll}
    (hInner : after.inner = some (.incoming stream)) (hSlot : after.wireSlot = some wire) :
    after.Network :=
  ⟨⟨stream, hInner⟩, by rw [hSlot, Option.isSome_some]⟩

theorem not_live_error {p : Prop} {state : BodyState} (h : state = .error) (hLive : state.Live) :
    p :=
  absurd hLive (not_live.mpr (.inr h))

/-- The end of the stream, as `next_chunk` meets it. -/
theorem nextChunk_hears_end (hLive : body.state.Live) (hInner : body.inner = some (.incoming []))
    (hSlot : body.wireSlot = some wire) :
    BodyHears body [] (toldByNextChunk (some body.nextChunk.1)) body.nextChunk.2 := by
  have hEnded := body.nextChunk_ended body.bytesReceived hLive
  have hSame : body.openAt [] body.bytesReceived body.state = body := by
    simp only [openAt, atPoint, ← hInner]
  rw [hSame] at hEnded
  cases hEof : body.checkEof with
  | error e =>
      rw [hEof] at hEnded
      rw [hEnded]
      exact .fails _ _ (network_of_slot rfl hSlot) (not_live_error rfl)
        fun _ => refuses_of_checkEof hEof
  | ok _ =>
      rw [hEof] at hEnded
      have hInit : (body.openAt [] body.bytesReceived .streaming).initSlot.wireSlot =
          some wire := by
        simp [initSlot, openAt, atPoint, hSlot]
      rcases completeWith_cases (none : Option (List UInt8)) hInit with
        ⟨after, hDone, hVerdict, hState, hAfter, hDrained, hError⟩ |
        ⟨e, after, hDone, hVerdict, hState, hAfter, hDrained⟩
      · rw [hEnded, hDone]
        exact .ends _ ((acceptsEnd_of_checkEof hEof).trans hVerdict)
          (network_of_slot hAfter hDrained) hState hError
      · rw [hEnded, hDone]
        exact .fails _ _ (network_of_slot hAfter hDrained) (not_live_error hState)
          fun _ => (acceptsEnd_of_checkEof hEof).trans hVerdict

/-- One poll of `next_chunk`. -/
theorem pollNextChunk_hears {polls : List StreamPoll} (hNetwork : body.Network)
    (hLive : body.state.Live) (hInner : body.inner = some (.incoming polls))
    (hShort : polls.length ≤ 1) :
    BodyHears body polls (toldByNextChunk body.pollNextChunk.1) body.pollNextChunk.2 := by
  obtain ⟨wire, hSlot⟩ := Option.isSome_iff_exists.mp hNetwork.slot
  have hStreaming : BodyState.Live .streaming := .inr rfl
  cases polls with
  | nil =>
      simp only [pollNextChunk, hInner]
      exact nextChunk_hears_end hLive hInner hSlot
  | cons answer rest =>
      obtain rfl : rest = [] := by simpa using hShort
      cases answer with
      | pending =>
          have hOpen : ¬(body.state = .error ∨ body.state = .complete) := by
            rcases hLive with hState | hState <;> simp [hState]
          simp only [pollNextChunk, hInner, if_neg hOpen]
          exact .waits .streaming hStreaming
      | error text =>
          have hFailed : body.nextChunk = (.error (.transport text),
              (body.openAt [] body.bytesReceived .streaming).fail) := by
            rcases hLive with hState | hState <;>
              simp [nextChunk, hState, hInner, awaitNext, openAt, atPoint]
          simp only [pollNextChunk, hInner, hFailed]
          exact .fails _ _ (network_of_slot rfl hSlot) (not_live_error rfl) (fun h => by cases h)
      | chunk data =>
          have hSame : body.openAt [.chunk data] body.bytesReceived body.state = body := by
            simp only [openAt, atPoint, ← hInner]
          have hChunk : (body.openAt [.chunk data] body.bytesReceived body.state).nextChunk = _ :=
            body.nextChunk_chunk hLive
          rw [hSame] at hChunk
          simp only [pollNextChunk, hInner, hChunk]
          cases checkedAdd body.bytesReceived data.length with
          | none =>
              exact .fails _ _ (network_of_slot rfl hSlot) (fun _ => rfl) (fun h => by cases h)
          | some total =>
              simp only
              cases body.checkTotal total with
              | error e =>
                  exact .fails _ _ (network_of_slot rfl hSlot) (not_live_error rfl)
                    (fun h => by cases h)
              | ok _ => exact .hands data .streaming total hStreaming

/-- One poll of the body as a stream. -/
theorem pollNext_hears {polls : List StreamPoll} (hNetwork : body.Network)
    (hLive : body.state.Live) (hInner : body.inner = some (.incoming polls))
    (hShort : polls.length ≤ 1) :
    BodyHears body polls (toldByPollNext body.pollNext.1) body.pollNext.2 := by
  obtain ⟨wire, hSlot⟩ := Option.isSome_iff_exists.mp hNetwork.slot
  have hOpen : ¬(body.state = .complete ∨ body.state = .error) := by
    rcases hLive with hState | hState <;> simp [hState]
  cases polls with
  | nil =>
      simp only [pollNext, if_neg hOpen, hInner]
      cases hEof : body.checkEof with
      | error e =>
          exact .fails _ _ (network_of_slot hInner hSlot) (not_live_error rfl)
            fun _ => refuses_of_checkEof hEof
      | ok _ =>
          simp only
          rcases body.pollEnd_accepts with
            ⟨after, hDone, hVerdict, hState, hAfter, hDrained, hError⟩ |
            ⟨e, after, hDone, hVerdict, hState, hAfter, hDrained⟩
          · rw [hDone]
            exact .ends _ ((acceptsEnd_of_checkEof hEof).trans hVerdict)
              (network_of_slot (hAfter.trans hInner) hDrained) hState hError
          · rw [hDone]
            exact .fails _ _ (network_of_slot (hAfter.trans hInner) hDrained)
              (not_live_error hState) fun _ => (acceptsEnd_of_checkEof hEof).trans hVerdict
  | cons answer rest =>
      obtain rfl : rest = [] := by simpa using hShort
      simp only [pollNext, if_neg hOpen, hInner]
      cases answer with
      | pending => exact .waits body.state hLive
      | error text =>
          exact .fails _ _ (network_of_slot rfl hSlot) (not_live_error rfl) (fun h => by cases h)
      | chunk data =>
          simp only
          split
          · exact .fails _ _ (network_of_slot rfl hSlot) (not_live_error rfl) (fun h => by cases h)
          · rename_i total _
            split
            · exact .fails _ _ (network_of_slot rfl hSlot) (not_live_error rfl)
                (fun h => by cases h)
            · simp only [pollChunk, toldByPollNext]
              split
              · exact .hands data .streaming total (.inr rfl)
              · exact .hands data body.state total hLive

end Hears

end RequestBody

namespace BodyOwner

/-- The body may still be read from its stream. -/
def Open : BodyOwner → Prop
  | .holding body | .readAll body | .readAllWithTrailers body => body.state.Live
  | .receiving _ _ _ _ | .collecting _ _ _ => True
  | .gone _ _ => False

/-- The body is where its owner expects it. -/
def WellFormed : BodyOwner → Prop
  | .holding body | .readAll body | .readAllWithTrailers body => body.Network
  | .receiving body _ _ _ => body.inner = none ∧ body.wireSlot.isSome = true
  | .collecting body _ _ => body.Network ∧ body.state.Live
  | .gone _ _ => True

/-- What an action that polls the stream makes of the owner and tells the caller. -/
inductive Hears (owner : BodyOwner) (polls : List StreamPoll) : Told → BodyOwner → Prop where
  | waits (after : BodyOwner) (hPolls : polls = [.pending]) (hOpen : after.Open)
      (hBuffer : after.buffer = owner.buffer) (hShared : after.shared = owner.shared) :
      Hears owner polls .nothing after
  | hands (data : List UInt8) (after : BodyOwner) (hPolls : polls = [.chunk data])
      (hOpen : after.Open) (hEmpty : owner.buffer = []) (hBuffer : after.buffer = [])
      (hShared : after.shared = owner.shared) : Hears owner polls (.chunk data) after
  | collects (data : List UInt8) (after : BodyOwner) (hPolls : polls = [.chunk data])
      (hOpen : after.Open) (hBuffer : after.buffer = owner.buffer ++ data)
      (hShared : after.shared = owner.shared) : Hears owner polls .nothing after
  | fails (after : BodyOwner) (hShared : after.Open → after.shared = owner.shared)
      (hRefused : polls = [] → owner.acceptsEnd = false) : Hears owner polls .error after
  | ends (after : BodyOwner) (hPolls : polls = []) (hAccepts : owner.acceptsEnd = true)
      (hClosed : ¬after.Open) : Hears owner polls (.ended owner.buffer) after

section Offers

variable (owner : BodyOwner) (polls : List StreamPoll) (f : WireTrailerSlot → WireTrailerSlot)

theorem open_offer : (owner.offer polls).Open ↔ owner.Open := by
  cases owner <;> exact Iff.rfl

theorem buffer_offer : (owner.offer polls).buffer = owner.buffer := by
  cases owner <;> rfl

theorem shared_offer : (owner.offer polls).shared = owner.shared := by
  cases owner <;> rfl

theorem acceptsEnd_offer : (owner.offer polls).acceptsEnd = owner.acceptsEnd := by
  cases owner <;> rfl

theorem asksStream_offer (action : OwnerAction) :
    (owner.offer polls).asksStream action = owner.asksStream action := by
  cases action with
  | use op => cases op <;> cases owner <;> rfl
  | _ => cases owner <;> rfl

theorem open_mapSlot : (owner.mapSlot f).Open ↔ owner.Open := by
  cases owner <;> exact Iff.rfl

theorem buffer_mapSlot : (owner.mapSlot f).buffer = owner.buffer := by
  cases owner <;> rfl

theorem shared_mapSlot : (owner.mapSlot f).shared = owner.shared := by
  cases owner <;> rfl

theorem asksStream_mapSlot (action : OwnerAction) :
    (owner.mapSlot f).asksStream action = owner.asksStream action := by
  cases action with
  | use op => cases op <;> cases owner <;> rfl
  | _ => cases owner <;> rfl

variable {owner}

theorem WellFormed.mapSlot (h : owner.WellFormed) : (owner.mapSlot f).WellFormed := by
  have hSlot : ∀ body : RequestBody, body.wireSlot.isSome = true →
      (body.mapSlot f).wireSlot.isSome = true := by
    intro body hSome
    rw [RequestBody.mapSlot, Option.isSome_map, hSome]
  cases owner with
  | holding body => exact ⟨h.incoming, hSlot body h.slot⟩
  | readAll body => exact ⟨h.incoming, hSlot body h.slot⟩
  | receiving body _ _ _ => exact ⟨h.1, hSlot body h.2⟩
  | readAllWithTrailers body => exact ⟨h.incoming, hSlot body h.slot⟩
  | collecting body _ _ => exact ⟨⟨h.1.incoming, hSlot body h.1.slot⟩, h.2⟩
  | gone _ _ => trivial

/-- What a watchdog does to the lifecycle concerns nothing else. -/
theorem use_markFailed {next : BodyOwner} {reason : RequestCancellationReason}
    (h : owner.WellFormed) (hUse : owner.use (.markFailed reason) = some next) :
    next.WellFormed ∧ (next.Open → owner.Open) ∧ next.buffer = owner.buffer ∧
      ∀ body, next = .holding body → ∃ before, owner = .holding before ∧
        before.state = body.state := by
  cases owner with
  | holding body =>
      obtain rfl := Option.some.inj hUse
      refine ⟨⟨h.incoming, h.slot⟩, id, rfl, ?_⟩
      intro after hAfter
      obtain rfl := BodyOwner.holding.inj hAfter
      exact ⟨body, rfl, rfl⟩
  | readAll body =>
      obtain rfl := Option.some.inj hUse
      exact ⟨⟨h.incoming, h.slot⟩, id, rfl, fun _ hAfter => by cases hAfter⟩
  | receiving body _ _ _ =>
      obtain rfl := Option.some.inj hUse
      exact ⟨h, id, rfl, fun _ hAfter => by cases hAfter⟩
  | readAllWithTrailers body =>
      obtain rfl := Option.some.inj hUse
      exact ⟨⟨h.incoming, h.slot⟩, id, rfl, fun _ hAfter => by cases hAfter⟩
  | collecting body _ _ =>
      obtain rfl := Option.some.inj hUse
      exact ⟨⟨⟨h.1.incoming, h.1.slot⟩, h.2⟩, id, rfl, fun _ hAfter => by cases hAfter⟩
  | gone _ _ =>
      obtain rfl := Option.some.inj hUse
      exact ⟨trivial, id, rfl, fun _ hAfter => by cases hAfter⟩

/-- Only a body that may still be read is polled. -/
theorem open_of_asksStream {action : OwnerAction} (hAsks : owner.asksStream action = true) :
    owner.Open := by
  unfold asksStream at hAsks
  split at hAsks
  · exact of_decide_eq_true (p := BodyState.Live _) hAsks
  · exact of_decide_eq_true (p := BodyState.Live _) hAsks
  · trivial
  · trivial
  · cases hAsks

end Offers

section Asking

variable {alloc : Allocator} {body : RequestBody} {polls : List StreamPoll}

theorem hears_holding {answer : Told} {after : RequestBody} (hNetwork : body.Network)
    (h : BodyHears body polls answer after) :
    Hears (.holding body) polls answer (.holding after) ∧ after.Network := by
  refine ⟨?_, h.network hNetwork⟩
  cases h with
  | waits state hState => exact .waits _ rfl hState rfl rfl
  | hands data state total hState => exact .hands data _ rfl hState rfl rfl rfl
  | fails _ _ _ hShared hRefused => exact .fails _ hShared hRefused
  | ends _ hAccepts _ hState _ =>
      exact .ends _ rfl hAccepts (RequestBody.not_live.mpr (.inl hState))

/-- The receive loop of `read_all` meets one answer. -/
theorem hears_receive (hInner : body.inner = none) (hSlot : body.wireSlot.isSome = true)
    (buf : List UInt8) (waiting : Bool) (hShort : polls.length ≤ 1) :
    Hears (.receiving body polls buf waiting) polls
        (told (.receiving body polls buf waiting) .poll (receive body buf polls))
        (receive body buf polls) ∧
      (receive body buf polls).WellFormed := by
  cases polls with
  | nil =>
      simp only [receive]
      cases hEof : body.checkEof with
      | error e =>
          exact ⟨.fails _ False.elim fun _ => RequestBody.refuses_of_checkEof hEof, trivial⟩
      | ok _ =>
          obtain ⟨wire, hWire⟩ := Option.isSome_iff_exists.mp hSlot
          have hAccepts := RequestBody.acceptsEnd_of_checkEof hEof
          simp only
          rcases RequestBody.completeWith_cases buf hWire with
            ⟨after, hDone, hVerdict, -⟩ | ⟨e, after, hDone, hVerdict, -⟩
          · rw [hDone]
            exact ⟨.ends _ rfl (hAccepts.trans hVerdict) id, trivial⟩
          · rw [hDone]
            exact ⟨.fails _ False.elim fun _ => hAccepts.trans hVerdict, trivial⟩
  | cons answer rest =>
      obtain rfl : rest = [] := by simpa using hShort
      cases answer with
      | pending => exact ⟨.waits _ rfl trivial rfl rfl, hInner, hSlot⟩
      | error text => exact ⟨.fails _ False.elim (fun h => by cases h), trivial⟩
      | chunk data =>
          simp only [receive]
          split
          · exact ⟨.fails _ False.elim (fun h => by cases h), trivial⟩
          · split
            · exact ⟨.fails _ False.elim (fun h => by cases h), trivial⟩
            · exact ⟨.collects data _ rfl trivial rfl rfl, hInner, hSlot⟩

/-- The loop of `read_all_with_trailers` meets one answer. -/
theorem hears_collect (hNetwork : body.Network) (hLive : body.state.Live)
    (hInner : body.inner = some (.incoming polls)) (buf : List UInt8) (waiting : Bool)
    (hShort : polls.length ≤ 1) :
    Hears (.collecting body buf waiting) polls
        (told (.collecting body buf waiting) .poll (collect body buf)) (collect body buf) ∧
      (collect body buf).WellFormed := by
  have hHears := RequestBody.pollNextChunk_hears hNetwork hLive hInner hShort
  have hAfter := hHears.network hNetwork
  unfold collect
  split <;> rename_i hPoll <;> rw [hPoll] at hHears hAfter
  · cases hHears with
    | waits state hState => exact ⟨.waits _ rfl trivial rfl rfl, hAfter, hState⟩
  · cases hHears with
    | fails _ _ _ _ hRefused =>
        refine ⟨.fails _ False.elim fun hNil => ?_, trivial⟩
        rw [acceptsEnd, hRefused hNil]
        rfl
  · cases hHears with
    | hands _ state total hState =>
        exact ⟨.collects _ _ rfl trivial rfl rfl, hAfter, hState⟩
  · cases hHears with
    | ends _ hAccepts _ hState hError =>
        split <;> rename_i hMessage <;> rw [hError] at hMessage
        · exact ⟨.fails _ False.elim fun _ => by simp [acceptsEnd, hMessage], trivial⟩
        · exact ⟨.ends _ rfl (by simp [acceptsEnd, hMessage, hAccepts]) id, trivial⟩

/-- Whatever polls the stream finds an open owner, and meets the answer it is
offered. -/
theorem hears_step {owner after : BodyOwner} {action : OwnerAction} (h : owner.WellFormed)
    (hShort : polls.length ≤ 1) (hAsks : (owner.offer polls).asksStream action = true)
    (hStep : step alloc (owner.offer polls) action = some after) :
    Hears (owner.offer polls) polls (told (owner.offer polls) action after) after ∧
      after.WellFormed := by
  cases owner with
  | holding body =>
      cases action with
      | use op =>
          obtain rfl := Option.some.inj hStep
          cases op with
          | nextChunk =>
              have hOffered := body.network_offer h polls
              exact hears_holding hOffered
                (RequestBody.pollNextChunk_hears hOffered (of_decide_eq_true hAsks) rfl hShort)
          | pollNext =>
              have hOffered := body.network_offer h polls
              exact hears_holding hOffered
                (RequestBody.pollNext_hears hOffered (of_decide_eq_true hAsks) rfl hShort)
          | _ => cases hAsks
      | _ => cases hAsks
  | receiving body stream buf waiting =>
      cases action with
      | poll =>
          obtain rfl := Option.some.inj hStep
          exact hears_receive h.1 h.2 buf waiting hShort
      | _ => cases hAsks
  | collecting body buf waiting =>
      cases action with
      | poll =>
          obtain rfl := Option.some.inj hStep
          exact hears_collect (body.network_offer h.1 polls) h.2 rfl buf waiting hShort
      | _ => cases hAsks
  | readAll body => cases action <;> cases hAsks
  | readAllWithTrailers body => cases action <;> cases hAsks
  | gone shared answer => cases action <;> cases hAsks

/-- Whatever does not poll the stream tells nothing, an error, or once more the
end of a body that is closed. -/
inductive Rests (owner : BodyOwner) : Told → BodyOwner → Prop where
  | quiet (after : BodyOwner) (hOpen : after.Open → owner.Open)
      (hBuffer : after.Open → after.buffer = owner.buffer)
      (hShared : after.Open → after.shared = owner.shared)
      (hState : ∀ body, after = .holding body →
        ∃ before, owner = .holding before ∧ before.state = body.state) :
      Rests owner .nothing after
  | fails (after : BodyOwner) (hClosed : ¬after.Open) : Rests owner .error after
  | endsAgain (body : RequestBody) (hOwner : owner = .holding body) (hClosed : ¬body.state.Live) :
      Rests owner (.ended []) owner

theorem rests_gone (owner : BodyOwner) (shared : RequestShared) (answer : Option FutureAnswer) :
    Rests owner .nothing (.gone shared answer) :=
  .quiet _ False.elim False.elim False.elim fun _ hHolding => by cases hHolding

/-- The body moves to a future, or from one, without being read. -/
theorem rests_moved {owner after : BodyOwner} (hOpen : after.Open → owner.Open)
    (hBuffer : after.buffer = owner.buffer) (hShared : after.shared = owner.shared)
    (hFuture : ∀ body, after ≠ .holding body) : Rests owner .nothing after :=
  .quiet _ hOpen (fun _ => hBuffer) (fun _ => hShared) fun body hHolding =>
    absurd hHolding (hFuture body)

theorem rests_holding {after : RequestBody} (hState : after.state = body.state)
    (hShared : after.shared = body.shared) : Rests (.holding body) .nothing (.holding after) := by
  refine .quiet _ ?_ (fun _ => rfl) (fun _ => hShared) ?_
  · intro hOpen
    change body.state.Live
    rw [← hState]
    exact hOpen
  · intro found hHolding
    obtain rfl := BodyOwner.holding.inj hHolding
    exact ⟨body, rfl, hState.symm⟩

theorem live_of_open {state : BodyState} (h : ¬(state = .complete ∨ state = .error)) :
    state.Live :=
  Classical.not_not.mp (mt RequestBody.not_live.mp h)

theorem rests_startReadAll (hNetwork : body.Network) :
    Rests (.readAll body) (told (.readAll body) .poll (startReadAll alloc body))
        (startReadAll alloc body) ∧
      (startReadAll alloc body).WellFormed := by
  obtain ⟨stream, hInner⟩ := hNetwork.incoming
  unfold startReadAll
  split
  · exact ⟨.fails _ id, trivial⟩
  · rename_i hOpen
    split
    · exact ⟨.fails _ id, trivial⟩
    · rw [hInner]
      simp only
      split
      · exact ⟨.fails _ id, trivial⟩
      · exact ⟨rests_moved (fun _ => live_of_open hOpen) rfl rfl (fun _ h => by cases h), rfl,
          hNetwork.slot⟩

theorem rests_startReadAllWithTrailers (hNetwork : body.Network) :
    Rests (.readAllWithTrailers body)
        (told (.readAllWithTrailers body) .poll (startReadAllWithTrailers body))
        (startReadAllWithTrailers body) ∧
      (startReadAllWithTrailers body).WellFormed := by
  unfold startReadAllWithTrailers
  split
  · exact ⟨.fails _ id, trivial⟩
  · rename_i hOpen
    have hLive := live_of_open hOpen
    split
    · exact ⟨.fails _ id, trivial⟩
    · split
      · exact ⟨.fails _ id, trivial⟩
      · exact ⟨rests_moved (fun _ => hLive) rfl rfl (fun _ h => by cases h), hNetwork, hLive⟩

/-- A call on a body that its owner holds and that is not read any more, or
that concerns only its trailers. -/
theorem rests_use {op : BodyOp} (hNetwork : body.Network) (hOutside : op.isOutside = false)
    (hAsks : (BodyOwner.holding body).asksStream (.use op) = false) :
    Rests (.holding body) (told (.holding body) (.use op) (.holding (apply body op)))
        (.holding (apply body op)) ∧
      (apply body op).Network := by
  refine ⟨?_, network_apply hNetwork op⟩
  cases op with
  | nextChunk =>
      have hClosed : ¬body.state.Live := of_decide_eq_false hAsks
      have hPoll := RequestBody.pollNextChunk_closed (RequestBody.not_live.mp hClosed)
      have hApply : apply body .nextChunk = body := by
        simp only [apply, BodyRun.step, BodyRun.start, hPoll]
      simp only [told, hPoll, hApply]
      split
      · exact .fails _ hClosed
      · exact .endsAgain body rfl hClosed
  | pollNext =>
      have hClosed : ¬body.state.Live := of_decide_eq_false hAsks
      have hPoll : body.pollNext = (.ready none, body) :=
        if_pos (RequestBody.not_live.mp hClosed)
      have hApply : apply body .pollNext = body := by
        simp only [apply, BodyRun.step, BodyRun.start, hPoll]
      simp only [told, hPoll, hApply]
      exact .endsAgain body rfl hClosed
  | setTrailers trailers => exact rests_holding rfl rfl
  | trailers => exact rests_holding rfl rfl
  | takeCompletedTrailers =>
      have hTaken : apply body .takeCompletedTrailers = body ∨
          apply body .takeCompletedTrailers = { body with completedTrailers := none } := by
        change body.takeCompletedTrailers.2 = body ∨
          body.takeCompletedTrailers.2 = { body with completedTrailers := none }
        unfold RequestBody.takeCompletedTrailers
        split
        · exact .inl rfl
        · split
          · exact .inl rfl
          · exact .inr rfl
      rcases hTaken with hTaken | hTaken
      · rw [hTaken]
        exact rests_holding rfl rfl
      · rw [hTaken]
        exact rests_holding rfl rfl
  | fillSlot wire => cases hOutside
  | markFailed reason => cases hOutside

/-- The step of an owner that does not poll the stream. -/
theorem rests_step {owner after : BodyOwner} {action : OwnerAction} (h : owner.WellFormed)
    (hOutside : action.isOutside = false) (hAsks : (owner.offer polls).asksStream action = false)
    (hStep : step alloc (owner.offer polls) action = some after) :
    Rests (owner.offer polls) (told (owner.offer polls) action after) after ∧
      after.WellFormed := by
  -- Only an owner that holds the body has calls of its own to make.
  have hUse : ∀ {op : BodyOp} {found : BodyOwner}, action = .use op →
      (if op.isOutside then some found else none) ≠ some after := by
    rintro op found rfl hOp
    exact absurd (enabled_iff.mp hOp).1 (Bool.eq_false_iff.mp hOutside)
  cases owner with
  | holding body =>
      have hOffered := body.network_offer h polls
      cases action with
      | use op =>
          obtain rfl := Option.some.inj hStep
          exact rests_use hOffered hOutside hAsks
      | drop =>
          obtain rfl := Option.some.inj hStep
          exact ⟨rests_gone _ _ _, trivial⟩
      | callReadAll =>
          obtain rfl := Option.some.inj hStep
          exact ⟨rests_moved id rfl rfl (fun _ h => by cases h), hOffered⟩
      | callReadAllWithTrailers =>
          obtain rfl := Option.some.inj hStep
          exact ⟨rests_moved id rfl rfl (fun _ h => by cases h), hOffered⟩
      | poll => cases hStep
  | readAll body =>
      cases action with
      | use op => exact absurd hStep (hUse rfl)
      | drop =>
          obtain rfl := Option.some.inj hStep
          exact ⟨rests_gone _ _ _, trivial⟩
      | poll =>
          obtain rfl := Option.some.inj hStep
          exact rests_startReadAll (body.network_offer h polls)
      | _ => cases hStep
  | receiving body stream buf waiting =>
      cases action with
      | use op => exact absurd hStep (hUse rfl)
      | drop =>
          cases waiting with
          | false => cases hStep
          | true =>
              obtain rfl := Option.some.inj hStep
              exact ⟨rests_gone _ _ _, trivial⟩
      | poll => cases hAsks
      | _ => cases hStep
  | readAllWithTrailers body =>
      cases action with
      | use op => exact absurd hStep (hUse rfl)
      | drop =>
          obtain rfl := Option.some.inj hStep
          exact ⟨rests_gone _ _ _, trivial⟩
      | poll =>
          obtain rfl := Option.some.inj hStep
          exact rests_startReadAllWithTrailers (body.network_offer h polls)
      | _ => cases hStep
  | collecting body buf waiting =>
      cases action with
      | use op => exact absurd hStep (hUse rfl)
      | drop =>
          cases waiting with
          | false => cases hStep
          | true =>
              obtain rfl := Option.some.inj hStep
              exact ⟨rests_gone _ _ _, trivial⟩
      | poll => exact absurd h.2 (of_decide_eq_false hAsks)
      | _ => cases hStep
  | gone shared answer =>
      cases action with
      | use op =>
          cases op with
          | markFailed reason => cases hOutside
          | _ => cases hStep
      | _ => cases hStep

end Asking

end BodyOwner

end Eggserve.Primitives
