import Eggserve.Primitives.BodyTold

/-! The trailers of a network body, from the slot to its consumer: what one call
finds of them, whichever way the body is consumed. -/
namespace Eggserve.Primitives
open Rust Transition

/-- The calls of a consumer. It neither fills the slot nor sets trailers itself. -/
def isConsumerAction : OwnerAction → Bool
  | .use (.setTrailers _) => false
  | action => !action.isOutside

/-- The trailers that can be had, in the answer of `trailers` or in the result
of `read_all_with_trailers`. -/
def exposes : BodyOwner → Option (Option Trailers)
  | .holding body => body.trailers.toOption
  | .gone _ (some (.readAllWithTrailers (.ok (_, found)))) => some found
  | _ => none

/-- The consumer has come to an end. -/
def Finished : BodyOwner → Prop
  | .holding body => ¬body.state.Live
  | .gone _ (some _) => True
  | _ => False

/-! One call on the body. -/

/-- The body has found no trailers yet. The slot holds the given content. -/
structure Awaits (slot : WireTrailerSlot) (body : RequestBody) : Prop where
  slot_eq : body.wireSlot = some slot
  no_trailers : body.completedTrailers = none
  no_error : body.completedTrailerError = none
  limits : body.trailerLimits = {}

/-- The stream has answered, and not with an error. -/
def GoesOn : List StreamPoll → Prop
  | .pending :: _ | .chunk _ :: _ => True
  | .error _ :: _ | [] => False

/-- After a call that met the given answers, a body that may be read on has
found nothing, and one that is complete has found what the slot held. -/
structure Settles (slot : WireTrailerSlot) (polls : List StreamPoll) (after : RequestBody) :
    Prop where
  reads : after.state.Live → Awaits slot after ∧ GoesOn polls
  found : ∀ trailers, after.trailers = .ok trailers →
    polls = [] ∧ drainAndValidateWireSlot slot {} = .ok trailers
  complete : after.state = .complete → ∃ trailers, after.trailers = .ok trailers

section Settling

variable {slot : WireTrailerSlot} {polls : List StreamPoll} {body after : RequestBody}

theorem trailers_eq_ok {found : Option Trailers} :
    body.trailers = .ok found ↔
      body.completedTrailerError = none ∧ body.state = .complete ∧
        body.completedTrailers = found := by
  unfold RequestBody.trailers
  cases body.completedTrailerError with
  | some message => simp
  | none =>
      by_cases hState : body.state = .complete
      · simp [hState]
      · simp [hState]

/-- What a body has found does not depend on how far it is read. -/
theorem Awaits.atPoint (h : Awaits slot body) (inner : Option BodyInner) (received : Nat)
    (state : BodyState) : Awaits slot (body.atPoint inner received state) :=
  ⟨h.slot_eq, h.no_trailers, h.no_error, h.limits⟩

theorem Settles.of_live (hAwaits : Awaits slot after) (hLive : after.state.Live)
    (hPolls : GoesOn polls) : Settles slot polls after where
  reads _ := ⟨hAwaits, hPolls⟩
  found _ h := absurd hLive (RequestBody.not_live.mpr (.inl (trailers_eq_ok.mp h).2.1))
  complete hState := absurd hLive (RequestBody.not_live.mpr (.inl hState))

theorem Settles.of_error (hState : after.state = .error) : Settles slot polls after where
  reads hLive := absurd hLive (RequestBody.not_live.mpr (.inr hState))
  found _ h := by cases hState.symm.trans (trailers_eq_ok.mp h).2.1
  complete h := by cases hState.symm.trans h

theorem Settles.of_complete {found : Option Trailers} (hState : after.state = .complete)
    (hError : after.completedTrailerError = none) (hFound : after.completedTrailers = found)
    (hDrain : drainAndValidateWireSlot slot {} = .ok found) : Settles slot [] after where
  reads hLive := absurd hLive (RequestBody.not_live.mpr (.inl hState))
  found trailers h := by
    obtain ⟨-, -, hSame⟩ := trailers_eq_ok.mp h
    rw [hDrain, ← hFound, hSame]
    exact ⟨rfl, rfl⟩
  complete _ := ⟨found, trailers_eq_ok.mpr ⟨hError, hState, hFound⟩⟩

/-- The end of the stream, as `poll_next` writes it out. -/
theorem settles_pollEnd (hAwaits : Awaits slot body) : Settles slot [] body.pollEnd.2 := by
  obtain ⟨hSlot, hNone, hError, hLimits⟩ := hAwaits
  unfold RequestBody.pollEnd
  rw [hSlot, hLimits, hNone]
  simp only [Option.getD_some, Option.isSome_none, Bool.false_eq_true, if_false]
  cases hDrain : drainAndValidateWireSlot slot {} with
  | error message => exact .of_error rfl
  | ok found =>
      cases found with
      | none => exact .of_complete rfl hError rfl hDrain
      | some trailers => exact .of_complete rfl hError rfl hDrain

/-- The end of the stream, as the other consumers come to it. -/
theorem settles_completeWith {α : Type} (value : α) (hAwaits : Awaits slot body) :
    Settles slot [] (body.completeWith value).2 := by
  rw [← RequestBody.pollEnd_eq_completeWith value body.state hAwaits.slot_eq]
  exact settles_pollEnd hAwaits

theorem settles_pollNext (hAwaits : Awaits slot body) (hLive : body.state.Live)
    (hInner : body.inner = some (.incoming polls)) : Settles slot polls body.pollNext.2 := by
  have hOpen : ¬(body.state = .complete ∨ body.state = .error) := fun h =>
    RequestBody.not_live.mpr h hLive
  cases polls with
  | nil =>
      simp only [RequestBody.pollNext, if_neg hOpen, hInner]
      cases body.checkEof with
      | error e => exact .of_error rfl
      | ok _ => exact settles_pollEnd hAwaits
  | cons answer rest =>
      simp only [RequestBody.pollNext, if_neg hOpen, hInner]
      cases answer with
      | pending => exact .of_live (hAwaits.atPoint _ _ _) hLive trivial
      | error message => exact .of_error rfl
      | chunk data =>
          simp only
          split
          · exact .of_error rfl
          · split
            · exact .of_error rfl
            · simp only [RequestBody.pollChunk]
              split
              · exact .of_live (hAwaits.atPoint _ _ _) (.inr rfl) trivial
              · exact .of_live (hAwaits.atPoint _ _ _) hLive trivial

theorem settles_pollNextChunk (hAwaits : Awaits slot body) (hLive : body.state.Live)
    (hInner : body.inner = some (.incoming polls)) :
    Settles slot polls body.pollNextChunk.2 := by
  have hOpen : ¬(body.state = .error ∨ body.state = .complete) := fun h =>
    RequestBody.not_live.mpr h.symm hLive
  have hSame : ∀ answers, body.inner = some (.incoming answers) →
      body.openAt answers body.bytesReceived body.state = body := by
    intro answers hAnswers
    simp only [RequestBody.openAt, RequestBody.atPoint, ← hAnswers]
  have hReading : BodyState.Live .streaming := .inr rfl
  cases polls with
  | nil =>
      have hEnded := body.nextChunk_ended body.bytesReceived hLive
      rw [hSame [] hInner] at hEnded
      simp only [RequestBody.pollNextChunk, hInner]
      cases hEof : body.checkEof with
      | error e =>
          rw [hEof] at hEnded
          rw [hEnded]
          exact .of_error rfl
      | ok _ =>
          rw [hEof] at hEnded
          rw [hEnded]
          have hInit : Awaits slot (body.openAt [] body.bytesReceived .streaming).initSlot := by
            refine ⟨?_, hAwaits.no_trailers, hAwaits.no_error, hAwaits.limits⟩
            simp [RequestBody.initSlot, RequestBody.openAt, RequestBody.atPoint, hAwaits.slot_eq]
          exact settles_completeWith none hInit
  | cons answer rest =>
      cases answer with
      | pending =>
          simp only [RequestBody.pollNextChunk, hInner, if_neg hOpen]
          exact .of_live (hAwaits.atPoint _ _ _) hReading trivial
      | error message =>
          have hFailed : body.nextChunk = (.error (.transport message),
              (body.openAt rest body.bytesReceived .streaming).fail) := by
            rcases hLive with hState | hState <;>
              simp [RequestBody.nextChunk, hState, hInner, RequestBody.awaitNext,
                RequestBody.openAt, RequestBody.atPoint]
          simp only [RequestBody.pollNextChunk, hInner, hFailed]
          exact .of_error rfl
      | chunk data =>
          have hChunk : (body.openAt (.chunk data :: rest) body.bytesReceived
              body.state).nextChunk = _ := body.nextChunk_chunk hLive
          rw [hSame _ hInner] at hChunk
          simp only [RequestBody.pollNextChunk, hInner, hChunk]
          cases checkedAdd body.bytesReceived data.length with
          | none => exact .of_live (hAwaits.atPoint _ _ _) hReading trivial
          | some total =>
              simp only
              cases body.checkTotal total with
              | error e => exact .of_error rfl
              | ok _ => exact .of_live (hAwaits.atPoint _ _ _) hReading trivial

end Settling

/-! One call of the owner. -/

def OwnerAwaits (slot : WireTrailerSlot) : BodyOwner → Prop
  | .holding body | .readAll body | .receiving body _ _ _ | .readAllWithTrailers body
  | .collecting body _ _ => Awaits slot body
  | .gone _ _ => False

/-- The same for an owner, after a call that polled the stream. -/
structure OwnerSettles (slot : WireTrailerSlot) (polls : List StreamPoll) (after : BodyOwner) :
    Prop where
  reads : after.Open → OwnerAwaits slot after ∧ GoesOn polls
  found : ∀ trailers, exposes after = some trailers →
    polls = [] ∧ drainAndValidateWireSlot slot {} = .ok trailers
  finished : ¬after.Open → Finished after
  complete : ∀ body, after = .holding body → body.state = .complete →
    ∃ trailers, body.trailers = .ok trailers

section Owners

variable {slot : WireTrailerSlot} {polls : List StreamPoll} {body : RequestBody}
  {owner after : BodyOwner} {alloc : Allocator} {action : OwnerAction} {op : BodyOp}

theorem Settles.holding {after : RequestBody} (h : Settles slot polls after) :
    OwnerSettles slot polls (.holding after) where
  reads := h.reads
  found trailers hExposes := by
    refine h.found trailers ?_
    cases hTrailers : after.trailers with
    | error e =>
        rw [exposes, hTrailers] at hExposes
        cases hExposes
    | ok found =>
        rw [exposes, hTrailers] at hExposes
        obtain rfl : found = trailers := Option.some.inj hExposes
        rfl
  finished := id
  complete body hBody := by
    obtain rfl := BodyOwner.holding.inj hBody
    exact h.complete

theorem OwnerSettles.gone (shared : RequestShared) (answer : FutureAnswer)
    (hFound : ∀ trailers, exposes (.gone shared (some answer)) = some trailers →
      polls = [] ∧ drainAndValidateWireSlot slot {} = .ok trailers) :
    OwnerSettles slot polls (.gone shared (some answer)) where
  reads := False.elim
  found := hFound
  finished _ := trivial
  complete _ h := by cases h

theorem OwnerSettles.receiving (hAwaits : Awaits slot body) (stream : List StreamPoll)
    (buf : List UInt8) (waiting : Bool) (hPolls : GoesOn polls) :
    OwnerSettles slot polls (.receiving body stream buf waiting) where
  reads _ := ⟨hAwaits, hPolls⟩
  found _ h := by cases h
  finished h := absurd trivial h
  complete _ h := by cases h

theorem OwnerSettles.collecting (hAwaits : Awaits slot body) (buf : List UInt8) (waiting : Bool)
    (hPolls : GoesOn polls) : OwnerSettles slot polls (.collecting body buf waiting) where
  reads _ := ⟨hAwaits, hPolls⟩
  found _ h := by cases h
  finished h := absurd trivial h
  complete _ h := by cases h

/-- `read_all` returns octets alone. -/
theorem settles_receive (hAwaits : Awaits slot body) (buf : List UInt8) :
    OwnerSettles slot polls (BodyOwner.receive body buf polls) := by
  cases polls with
  | nil =>
      unfold BodyOwner.receive
      cases body.checkEof with
      | error e => exact .gone _ _ fun _ h => by cases h
      | ok _ => exact .gone _ _ fun _ h => by cases h
  | cons answer rest =>
      cases answer with
      | pending => exact .receiving hAwaits _ _ _ trivial
      | error message => exact .gone _ _ fun _ h => by cases h
      | chunk data =>
          simp only [BodyOwner.receive]
          split
          · exact .gone _ _ fun _ h => by cases h
          · split
            · exact .gone _ _ fun _ h => by cases h
            · exact .receiving (hAwaits.atPoint _ _ _) _ _ _ trivial

/-- The loop of `read_all_with_trailers` returns what its last call found. -/
theorem settles_collect (hAwaits : Awaits slot body) (hNetwork : body.Network)
    (hLive : body.state.Live) (hInner : body.inner = some (.incoming polls))
    (hShort : polls.length ≤ 1) (buf : List UInt8) :
    OwnerSettles slot polls (BodyOwner.collect body buf) := by
  have hSettles := settles_pollNextChunk hAwaits hLive hInner
  have hHears := RequestBody.pollNextChunk_hears hNetwork hLive hInner hShort
  unfold BodyOwner.collect
  split <;> rename_i hPoll <;> rw [hPoll] at hSettles hHears
  · cases hHears with
    | waits state hState =>
        exact .collecting (hSettles.reads hState).1 _ _ trivial
  · exact .gone _ _ fun _ h => by cases h
  · cases hHears with
    | hands _ state total hState =>
        exact .collecting (hSettles.reads hState).1 _ _ trivial
  · cases hHears with
    | ends after _ _ hState _ =>
        obtain ⟨trailers, hTrailers⟩ := hSettles.complete hState
        obtain ⟨hError, -, hFound⟩ := trailers_eq_ok.mp hTrailers
        rw [hError]
        refine .gone _ _ fun found hExposes => ?_
        obtain rfl : _ = found := Option.some.inj hExposes
        rw [hFound]
        exact hSettles.found trailers hTrailers

theorem Awaits.offer (h : Awaits slot body) (polls : List StreamPoll) :
    Awaits slot (body.offer polls) := h.atPoint _ _ _

/-- Whatever polls the stream settles the trailers, or leaves them to be found. -/
theorem settles_step (h : owner.WellFormed) (hAwaits : OwnerAwaits slot owner)
    (hShort : polls.length ≤ 1) (hAsks : (owner.offer polls).asksStream action = true)
    (hStep : BodyOwner.step alloc (owner.offer polls) action = some after) :
    OwnerSettles slot polls after := by
  cases owner with
  | holding body =>
      cases action with
      | use op =>
          obtain rfl := Option.some.inj hStep
          cases op with
          | nextChunk =>
              exact (settles_pollNextChunk (Awaits.offer hAwaits polls) (of_decide_eq_true hAsks)
                rfl).holding
          | pollNext =>
              exact (settles_pollNext (Awaits.offer hAwaits polls) (of_decide_eq_true hAsks)
                rfl).holding
          | _ => cases hAsks
      | _ => cases hAsks
  | receiving body stream buf waiting =>
      cases action with
      | poll =>
          obtain rfl := Option.some.inj hStep
          exact settles_receive hAwaits buf
      | _ => cases hAsks
  | collecting body buf waiting =>
      cases action with
      | poll =>
          obtain rfl := Option.some.inj hStep
          exact settles_collect (Awaits.offer hAwaits polls) (body.network_offer h.1 polls) h.2 rfl
            hShort buf
      | _ => cases hAsks
  | readAll body => cases action <;> cases hAsks
  | readAllWithTrailers body => cases action <;> cases hAsks
  | gone shared answer => cases hAwaits

/-- A consumer that is told the end has found the slot in order. -/
theorem drained_of_acceptsEnd (hAwaits : OwnerAwaits slot owner)
    (hAccepts : owner.acceptsEnd = true) :
    ∃ found, drainAndValidateWireSlot slot {} = .ok found := by
  have hBody : ∀ body : RequestBody, Awaits slot body → body.acceptsEnd = true →
      ∃ found, drainAndValidateWireSlot slot {} = .ok found := by
    intro body hBody hAccepts
    rw [RequestBody.acceptsEnd, Bool.and_eq_true] at hAccepts
    obtain ⟨-, hVerdict⟩ := hAccepts
    unfold RequestBody.trailerVerdict at hVerdict
    rw [hBody.slot_eq, hBody.limits, Option.getD_some] at hVerdict
    cases hDrain : drainAndValidateWireSlot slot {} with
    | error message =>
        rw [hDrain] at hVerdict
        cases hVerdict
    | ok found => exact ⟨found, rfl⟩
  cases owner with
  | holding body => exact hBody body hAwaits hAccepts
  | readAll body => exact hBody body hAwaits hAccepts
  | receiving body _ _ _ => exact hBody body hAwaits hAccepts
  | readAllWithTrailers body => exact hBody body hAwaits hAccepts
  | collecting body _ _ =>
      rw [BodyOwner.acceptsEnd, Bool.and_eq_true] at hAccepts
      exact hBody body hAwaits hAccepts.1
  | gone shared answer => cases hAwaits

/-- An owner after a call that did not poll the stream. -/
structure OwnerRests (owner : BodyOwner) (action : OwnerAction) (answer : Told)
    (after : BodyOwner) : Prop where
  awaits : ∀ slot, after.Open → OwnerAwaits slot owner → OwnerAwaits slot after
  exposed : ∀ trailers, exposes after = some trailers → ∃ before, exposes owner = some before ∧
    (trailers = before ∨ action = .use .takeCompletedTrailers ∧ trailers = none)
  finished : Finished after → Finished owner ∨ answer = .error
  complete : ∀ body, after = .holding body → body.state = .complete →
    ∃ before, owner = .holding before ∧ before.state = .complete ∧
      body.completedTrailerError = before.completedTrailerError

theorem OwnerRests.same {before : RequestBody} (answer : Told)
    (hTrailers : body.trailers = before.trailers) (hState : body.state = before.state)
    (hError : body.completedTrailerError = before.completedTrailerError)
    (hAwaits : ∀ slot, Awaits slot before → Awaits slot body) :
    OwnerRests (.holding before) action answer (.holding body) where
  awaits slot _ := hAwaits slot
  exposed trailers h := by
    rw [exposes, hTrailers] at h
    exact ⟨trailers, h, .inl rfl⟩
  finished hFinished := by
    left
    change ¬before.state.Live
    rw [← hState]
    exact hFinished
  complete found hFound hComplete := by
    obtain rfl := BodyOwner.holding.inj hFound
    exact ⟨before, rfl, hState.symm.trans hComplete, hError⟩

/-- The body moves to a future that has not returned, or is dropped. -/
theorem OwnerRests.moves (answer : Told) (hExposes : exposes after = none)
    (hFinished : ¬Finished after)
    (hAwaits : ∀ slot, after.Open → OwnerAwaits slot owner → OwnerAwaits slot after)
    (hHolding : ∀ body, after ≠ .holding body) : OwnerRests owner action answer after where
  awaits := hAwaits
  exposed _ h := by cases hExposes.symm.trans h
  finished h := absurd h hFinished
  complete body h := absurd h (hHolding body)

/-- A future returns an error before its first poll of the stream. -/
theorem OwnerRests.fails (hExposes : exposes after = none) (hOpen : ¬after.Open)
    (hHolding : ∀ body, after ≠ .holding body) : OwnerRests owner action .error after where
  awaits _ h := absurd h hOpen
  exposed _ h := by cases hExposes.symm.trans h
  finished _ := .inr rfl
  complete body h := absurd h (hHolding body)

theorem rests_take : OwnerRests (.holding body) (.use .takeCompletedTrailers) .nothing
    (.holding body.takeCompletedTrailers.2) := by
  unfold RequestBody.takeCompletedTrailers
  by_cases hState : body.state = .complete
  · rw [if_neg (not_not.mpr hState)]
    by_cases hFailed : body.completedTrailerError.isSome = true
    · rw [if_pos hFailed]
      exact .same _ rfl rfl rfl fun _ => id
    · rw [if_neg hFailed]
      rw [Option.not_isSome_iff_eq_none] at hFailed
      have hBefore : body.trailers = .ok body.completedTrailers :=
        trailers_eq_ok.mpr ⟨hFailed, hState, rfl⟩
      have hAfter : ({ body with completedTrailers := none } : RequestBody).trailers = .ok none :=
        trailers_eq_ok.mpr ⟨hFailed, hState, rfl⟩
      exact {
        awaits := fun slot hOpen => absurd hOpen (RequestBody.not_live.mpr (.inl hState))
        exposed := fun trailers h => by
          rw [exposes, hAfter] at h
          obtain rfl := Option.some.inj h
          exact ⟨body.completedTrailers, by rw [exposes, hBefore]; rfl, .inr ⟨rfl, rfl⟩⟩
        finished := .inl
        complete := fun found hFound _ => by
          obtain rfl := BodyOwner.holding.inj hFound
          exact ⟨body, rfl, hState, rfl⟩ }
  · rw [if_pos hState]
    exact .same _ rfl rfl rfl fun _ => id

theorem rests_use (hAction : isConsumerAction (.use op) = true)
    (hAsks : (BodyOwner.holding body).asksStream (.use op) = false) :
    OwnerRests (.holding body) (.use op)
      ((BodyOwner.holding body).told (.use op) (.holding (BodyOwner.apply body op)))
      (.holding (BodyOwner.apply body op)) := by
  cases op with
  | nextChunk =>
      have hClosed : ¬body.state.Live := of_decide_eq_false hAsks
      have hPoll := RequestBody.pollNextChunk_closed (RequestBody.not_live.mp hClosed)
      have hApply : BodyOwner.apply body .nextChunk = body := by
        simp only [BodyOwner.apply, BodyRun.step, BodyRun.start, hPoll]
      rw [hApply]
      exact .same _ rfl rfl rfl fun _ => id
  | pollNext =>
      have hClosed : ¬body.state.Live := of_decide_eq_false hAsks
      have hPoll : body.pollNext = (.ready none, body) :=
        if_pos (RequestBody.not_live.mp hClosed)
      have hApply : BodyOwner.apply body .pollNext = body := by
        simp only [BodyOwner.apply, BodyRun.step, BodyRun.start, hPoll]
      rw [hApply]
      exact .same _ rfl rfl rfl fun _ => id
  | trailers => exact .same _ rfl rfl rfl fun _ => id
  | takeCompletedTrailers => exact rests_take
  | setTrailers trailers => cases hAction
  | fillSlot wire => cases hAction
  | markFailed reason => cases hAction

theorem rests_startReadAll (hInner : body.inner = some (.incoming polls)) :
    OwnerRests (.readAll body) .poll
      ((BodyOwner.readAll body).told .poll (BodyOwner.startReadAll alloc body))
      (BodyOwner.startReadAll alloc body) := by
  unfold BodyOwner.startReadAll
  split
  · exact .fails rfl id fun _ h => by cases h
  · split
    · exact .fails rfl id fun _ h => by cases h
    · rw [hInner]
      simp only
      split
      · exact .fails rfl id fun _ h => by cases h
      · exact .moves _ rfl id (fun _ _ h => Awaits.atPoint h _ _ _) fun _ h => by cases h

theorem rests_startReadAllWithTrailers :
    OwnerRests (.readAllWithTrailers body) .poll
      ((BodyOwner.readAllWithTrailers body).told .poll (BodyOwner.startReadAllWithTrailers body))
      (BodyOwner.startReadAllWithTrailers body) := by
  unfold BodyOwner.startReadAllWithTrailers
  split
  · exact .fails rfl id fun _ h => by cases h
  · split
    · exact .fails rfl id fun _ h => by cases h
    · split
      · exact .fails rfl id fun _ h => by cases h
      · exact .moves _ rfl id (fun _ _ h => h) fun _ h => by cases h

/-- Whatever does not poll the stream finds no trailers. -/
theorem rests_step (h : owner.WellFormed) (hAction : isConsumerAction action = true)
    (hAsks : owner.asksStream action = false)
    (hStep : BodyOwner.step alloc owner action = some after) :
    OwnerRests owner action (owner.told action after) after := by
  have hOutside : ∀ op, action = .use op → op.isOutside = false := by
    rintro op rfl
    cases op <;> first | rfl | cases hAction
  have hUse : ∀ {op : BodyOp} {found : BodyOwner}, action = .use op →
      (if op.isOutside then some found else none) ≠ some after := by
    intro op found hOp hSome
    exact absurd (enabled_iff.mp hSome).1 (Bool.eq_false_iff.mp (hOutside op hOp))
  have hGone : ∀ shared, OwnerRests owner action .nothing (.gone shared none) := fun shared =>
    .moves _ rfl id (fun _ => False.elim) fun _ h => by cases h
  cases owner with
  | holding body =>
      cases action with
      | use op =>
          obtain rfl := Option.some.inj hStep
          exact rests_use hAction hAsks
      | drop =>
          obtain rfl := Option.some.inj hStep
          exact hGone _
      | callReadAll =>
          obtain rfl := Option.some.inj hStep
          exact .moves _ rfl id (fun _ _ h => h) fun _ h => by cases h
      | callReadAllWithTrailers =>
          obtain rfl := Option.some.inj hStep
          exact .moves _ rfl id (fun _ _ h => h) fun _ h => by cases h
      | poll => cases hStep
  | readAll body =>
      cases action with
      | use op => exact absurd hStep (hUse rfl)
      | drop =>
          obtain rfl := Option.some.inj hStep
          exact hGone _
      | poll =>
          obtain rfl := Option.some.inj hStep
          obtain ⟨stream, hInner⟩ := h.incoming
          exact rests_startReadAll hInner
      | _ => cases hStep
  | receiving body stream buf waiting =>
      cases action with
      | use op => exact absurd hStep (hUse rfl)
      | drop =>
          cases waiting with
          | false => cases hStep
          | true =>
              obtain rfl := Option.some.inj hStep
              exact hGone _
      | poll => cases hAsks
      | _ => cases hStep
  | readAllWithTrailers body =>
      cases action with
      | use op => exact absurd hStep (hUse rfl)
      | drop =>
          obtain rfl := Option.some.inj hStep
          exact hGone _
      | poll =>
          obtain rfl := Option.some.inj hStep
          exact rests_startReadAllWithTrailers
      | _ => cases hStep
  | collecting body buf waiting =>
      cases action with
      | use op => exact absurd hStep (hUse rfl)
      | drop =>
          cases waiting with
          | false => cases hStep
          | true =>
              obtain rfl := Option.some.inj hStep
              exact hGone _
      | poll => exact absurd h.2 (of_decide_eq_false hAsks)
      | _ => cases hStep
  | gone shared answer =>
      cases action with
      | use op =>
          cases op with
          | markFailed reason => cases hAction
          | _ => cases hStep
      | _ => cases hStep

end Owners

end Eggserve.Primitives
