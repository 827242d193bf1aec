import Eggserve.Server.TrailerBridge

/-! The trailers of a request body on HTTP/1 and HTTP/2. The body looks at the
slot when its stream has ended, whichever way it is consumed, and the bridge
fills the slot while the stream is polled. -/
namespace Eggserve.Server
open Rust Transition Eggserve.Primitives

/-- The slot that the body shares with the bridge. -/
def slotOf : BodyOwner → WireTrailerSlot
  | .holding body | .readAll body | .receiving body _ _ _ | .readAllWithTrailers body
  | .collecting body _ _ => body.wireSlot.getD none
  | .gone _ _ => none

/-- A request body over the bridge, with the history of its run: whether its
consumer was told an error, whether it was told the end, and whether it took the
trailers out. The end that follows an error is not a success. -/
structure WireBody where
  frames : List FramePoll
  seen : Bool
  owner : BodyOwner
  errorTold : Bool
  endTold : Bool
  taken : Bool

namespace WireBody

def hear (s : WireBody) : Primitives.Told → WireBody
  | .nothing | .chunk _ => s
  | .error => { s with errorTold := true }
  | .ended _ => { s with endTold := s.endTold || !s.errorTold }

/-- The trailers are taken where they can be had. -/
def take (s : WireBody) : OwnerAction → WireBody
  | .use .takeCompletedTrailers => { s with taken := s.taken || (exposes s.owner).isSome }
  | _ => s

/-- The wrapped stream is polled. The slot has what the bridge left there, and the
body its answer. -/
def pollStream (s : WireBody) : WireBody :=
  let (polls, bridge, rest) := TrailerBridge.poll ⟨s.seen, slotOf s.owner⟩ s.frames
  { s with
    frames := rest
    seen := bridge.seen
    owner := (s.owner.mapSlot fun _ => bridge.slot).offer polls }

def call (alloc : Allocator) (s : WireBody) (action : OwnerAction) : Option WireBody :=
  (s.owner.step alloc action).map fun after =>
    { s.take action with owner := after }.hear (s.owner.told action after)

def step (alloc : Allocator) (s : WireBody) (action : OwnerAction) : Option WireBody :=
  if isConsumerAction action then
    if s.owner.asksStream action then s.pollStream.call alloc action else s.call alloc action
  else none

/-- The body as the pipeline hands it to the service. -/
def start (frames : List FramePoll) (declaredLength : Option Nat) (maxBytes : Nat)
    (shared : RequestShared) : WireBody where
  frames := frames
  seen := false
  owner := .holding (.fromIncomingWithSharedAndWireSlot [] declaredLength maxBytes shared none)
  errorTold := false
  endTold := false
  taken := false

def machine (alloc : Allocator) (frames : List FramePoll) :
    Transition.Machine WireBody OwnerAction where
  Initial s := ∃ declaredLength maxBytes shared, s = start frames declaredLength maxBytes shared
  step := step alloc

end WireBody

/-! The invariant. -/

namespace WireBody

variable {frames : List FramePoll} {s after : WireBody} {alloc : Allocator} {action : OwnerAction}

/-- While the body is read, the bridge has walked over the answers that are used
up and the slot has what it left there. Trailers that can be had, and an end
that was told, come from frames that were accepted as a whole. -/
structure Kept (frames : List FramePoll) (s : WireBody) : Prop where
  wellFormed : s.owner.WellFormed
  reading : s.owner.Open → ∃ used slot, frames = used ++ s.frames ∧
    TrailerBridge.new.walk used = some ⟨s.seen, slot⟩ ∧ OwnerAwaits slot s.owner
  exposed : ∀ trailers, exposes s.owner = some trailers → ∃ found, Accepts frames found ∧
    (trailers = found ∨ s.taken = true ∧ trailers = none)
  ended : s.endTold = true → ∃ found, Accepts frames found
  told : Finished s.owner → s.errorTold = true ∨ s.endTold = true
  complete : ∀ body, s.owner = .holding body → body.state = .complete →
    body.completedTrailerError = none

theorem Kept.start (declaredLength : Option Nat) (maxBytes : Nat) (shared : RequestShared) :
    Kept frames (start frames declaredLength maxBytes shared) where
  wellFormed := ⟨⟨[], rfl⟩, rfl⟩
  reading _ := ⟨[], none, rfl, rfl, rfl, rfl, rfl, rfl⟩
  exposed _ h := by cases h
  ended h := by cases h
  told h := absurd (.inl rfl) h
  complete _ h hState := by
    obtain rfl := BodyOwner.holding.inj h
    cases hState

theorem slotOf_of_awaits {slot : WireTrailerSlot} {owner : BodyOwner}
    (h : OwnerAwaits slot owner) : slotOf owner = slot := by
  have hBody : ∀ body : RequestBody, Awaits slot body → body.wireSlot.getD none = slot := by
    intro body hAwaits
    rw [hAwaits.slot_eq, Option.getD_some]
  cases owner with
  | holding body => exact hBody body h
  | readAll body => exact hBody body h
  | receiving body _ _ _ => exact hBody body h
  | readAllWithTrailers body => exact hBody body h
  | collecting body _ _ => exact hBody body h
  | gone _ _ => cases h

theorem awaits_mapSlot {slot : WireTrailerSlot} {owner : BodyOwner} (h : OwnerAwaits slot owner)
    (next : WireTrailerSlot) : OwnerAwaits next (owner.mapSlot fun _ => next) := by
  have hBody : ∀ body : RequestBody, Awaits slot body →
      Awaits next (body.mapSlot fun _ => next) := by
    intro body hAwaits
    refine ⟨?_, hAwaits.no_trailers, hAwaits.no_error, hAwaits.limits⟩
    rw [RequestBody.mapSlot, hAwaits.slot_eq]
    rfl
  cases owner with
  | holding body => exact hBody body h
  | readAll body => exact hBody body h
  | receiving body _ _ _ => exact hBody body h
  | readAllWithTrailers body => exact hBody body h
  | collecting body _ _ => exact hBody body h
  | gone _ _ => cases h

theorem not_open_of_finished {owner : BodyOwner} (h : Finished owner) : ¬owner.Open := by
  cases owner with
  | holding body => exact h
  | gone _ _ => exact id
  | _ => cases h

theorem goesOn_ne_nil {polls : List StreamPoll} (h : GoesOn polls) : polls ≠ [] := by
  rintro rfl
  exact h

theorem goesOn_ne_error {polls : List StreamPoll} (h : GoesOn polls) (message : Str) :
    polls ≠ [.error message] := by
  rintro rfl
  exact h

/-- What the bridge has walked over once a poll has not answered an error. -/
theorem passed {used rest : List FramePoll} {bridge next : TrailerBridge}
    {polls : List StreamPoll} (hFrames : frames = used ++ s.frames)
    (hWalk : TrailerBridge.new.walk used = some bridge)
    (hPolled : TrailerBridge.Polled bridge s.frames polls next rest)
    (hPolls : ∀ message, polls ≠ [.error message]) :
    ∃ used, frames = used ++ rest ∧ TrailerBridge.new.walk used = some next := by
  rcases hPolled.walked with ⟨⟨message, hError⟩, -⟩ | ⟨-, more, hMore, hNext⟩
  · exact absurd hError (hPolls message)
  · refine ⟨used ++ more, ?_, ?_⟩
    · rw [hFrames, hMore, List.append_assoc]
    · rw [TrailerBridge.walk_append, hWalk]
      exact hNext

/-- The owner after a poll of the stream, with what its consumer was told. -/
theorem Kept.settled {rest : List FramePoll} {bridge : TrailerBridge} {polls : List StreamPoll}
    {next : BodyOwner} {errorTold endTold taken : Bool} (hWellFormed : next.WellFormed)
    (hSettles : OwnerSettles bridge.slot polls next)
    (hPassed : (∀ message, polls ≠ [.error message]) →
      ∃ used, frames = used ++ rest ∧ TrailerBridge.new.walk used = some bridge)
    (hAccepts : ∀ found, polls = [] → drainAndValidateWireSlot bridge.slot {} = .ok found →
      Accepts frames found)
    (hEnded : endTold = true → ∃ found, Accepts frames found)
    (hTold : ¬next.Open → errorTold = true ∨ endTold = true) :
    Kept frames ⟨rest, bridge.seen, next, errorTold, endTold, taken⟩ where
  wellFormed := hWellFormed
  reading hOpen := by
    obtain ⟨hAwaits, hGoesOn⟩ := hSettles.reads hOpen
    obtain ⟨used, hFrames, hWalk⟩ := hPassed (goesOn_ne_error hGoesOn)
    exact ⟨used, bridge.slot, hFrames, hWalk, hAwaits⟩
  exposed trailers hExposes := by
    obtain ⟨hPolls, hDrain⟩ := hSettles.found trailers hExposes
    exact ⟨trailers, hAccepts trailers hPolls hDrain, .inl rfl⟩
  ended := hEnded
  told hFinished := hTold (not_open_of_finished hFinished)
  complete body hBody hState := by
    obtain ⟨trailers, hTrailers⟩ := hSettles.complete body hBody hState
    exact (trailers_eq_ok.mp hTrailers).1

theorem take_of_asksStream (hAsks : s.owner.asksStream action = true) (t : WireBody) :
    t.take action = t := by
  unfold WireBody.take
  split
  · unfold BodyOwner.asksStream at hAsks
    split at hAsks
    · rename_i hAction
      cases hAction
    · rename_i hAction
      cases hAction
    · rename_i hAction
      cases hAction
    · rename_i hAction
      cases hAction
    · cases hAsks
  · rfl

/-- A call that polls the stream keeps the invariant, and it ends the body or
uses up an answer. -/
theorem Kept.asked (h : Kept frames s) (hAsks : s.owner.asksStream action = true)
    (hStep : s.pollStream.call alloc action = some after) :
    Kept frames after ∧ (Finished after.owner ∨ after.frames.length < s.frames.length) := by
  obtain ⟨used, slot, hFrames, hWalk, hAwaits⟩ := h.reading (BodyOwner.open_of_asksStream hAsks)
  have hPolled := TrailerBridge.polled ⟨s.seen, slot⟩ s.frames
  obtain ⟨next, hNext, rfl⟩ := Option.map_eq_some_iff.mp hStep
  rw [take_of_asksStream hAsks]
  unfold pollStream at hNext ⊢
  rw [slotOf_of_awaits hAwaits] at hNext ⊢
  generalize TrailerBridge.poll ⟨s.seen, slot⟩ s.frames = answered at hPolled hNext ⊢
  obtain ⟨polls, bridge, rest⟩ := answered
  dsimp only at hPolled hNext ⊢
  have hOwner := h.wellFormed.mapSlot fun _ => bridge.slot
  have hMapped := awaits_mapSlot hAwaits bridge.slot
  have hOffered : ((s.owner.mapSlot fun _ => bridge.slot).offer polls).asksStream action =
      true := by
    rw [BodyOwner.asksStream_offer, BodyOwner.asksStream_mapSlot]
    exact hAsks
  have hSettles := settles_step hOwner hMapped hPolled.short hOffered hNext
  obtain ⟨hHears, hWellFormed⟩ := BodyOwner.hears_step hOwner hPolled.short hOffered hNext
  have hPassed := passed hFrames hWalk hPolled
  have hAccepts : ∀ found, polls = [] → drainAndValidateWireSlot bridge.slot {} = .ok found →
      Accepts frames found := by
    rintro found rfl hDrain
    obtain ⟨all, hAll, hBridge⟩ := hPassed nofun
    rw [hPolled.ended rfl, List.append_nil] at hAll
    exact ⟨bridge, hAll ▸ hBridge, hDrain⟩
  have hProgress : Finished next ∨ rest.length < s.frames.length := by
    by_cases hOpen : next.Open
    · exact .inr (hPolled.shrinks (goesOn_ne_nil (hSettles.reads hOpen).2))
    · exact .inl (hSettles.finished hOpen)
  generalize ((s.owner.mapSlot fun _ => bridge.slot).offer polls).told action next = answer
    at hHears ⊢
  cases hHears with
  | waits _ _ hOpen _ _ =>
      exact ⟨.settled hWellFormed hSettles hPassed hAccepts h.ended (absurd hOpen), hProgress⟩
  | hands _ _ _ hOpen _ _ _ =>
      exact ⟨.settled hWellFormed hSettles hPassed hAccepts h.ended (absurd hOpen), hProgress⟩
  | collects _ _ _ hOpen _ _ =>
      exact ⟨.settled hWellFormed hSettles hPassed hAccepts h.ended (absurd hOpen), hProgress⟩
  | fails _ _ _ =>
      exact ⟨.settled hWellFormed hSettles hPassed hAccepts h.ended fun _ => .inl rfl, hProgress⟩
  | ends _ hPolls hAccept _ =>
      rw [BodyOwner.acceptsEnd_offer] at hAccept
      obtain ⟨found, hDrain⟩ := drained_of_acceptsEnd hMapped hAccept
      refine ⟨.settled hWellFormed hSettles hPassed hAccepts
        (fun _ => ⟨found, hAccepts found hPolls hDrain⟩) fun _ => ?_, hProgress⟩
      cases s.errorTold with
      | true => exact .inl rfl
      | false => exact .inr (Bool.or_true _)

theorem offer_self {owner : BodyOwner} (h : owner.WellFormed) :
    ∃ polls, owner.offer polls = owner := by
  have hBody : ∀ body : RequestBody, body.Network → ∃ polls, body.offer polls = body := by
    intro body hNetwork
    obtain ⟨stream, hInner⟩ := hNetwork.incoming
    refine ⟨stream, ?_⟩
    rw [RequestBody.offer, ← hInner]
  cases owner with
  | holding body => exact (hBody body h).imp fun _ hSame => congrArg _ hSame
  | readAll body => exact (hBody body h).imp fun _ hSame => congrArg _ hSame
  | receiving body stream _ _ => exact ⟨stream, rfl⟩
  | readAllWithTrailers body => exact (hBody body h).imp fun _ hSame => congrArg _ hSame
  | collecting body _ _ =>
      obtain ⟨polls, hSame⟩ := hBody body h.1
      exact ⟨polls, by rw [BodyOwner.offer, hSame]⟩
  | gone _ _ => exact ⟨[], rfl⟩

/-- The owner after a call that did not poll the stream, with what its consumer
was told. -/
theorem Kept.moved (h : Kept frames s) {next : BodyOwner} {answer : Primitives.Told}
    {errorTold endTold : Bool} (hWellFormed : next.WellFormed)
    (hRests : OwnerRests s.owner action answer next) (hOpen : next.Open → s.owner.Open)
    (hEnded : endTold = true → ∃ found, Accepts frames found)
    (hTold : Finished next → errorTold = true ∨ endTold = true) :
    Kept frames { s.take action with
      owner := next
      errorTold := errorTold
      endTold := endTold } where
  wellFormed := hWellFormed
  reading hNext := by
    obtain ⟨used, slot, hFrames, hWalk, hAwaits⟩ := h.reading (hOpen hNext)
    refine ⟨used, slot, ?_, ?_, hRests.awaits slot hNext hAwaits⟩
    · unfold WireBody.take
      split <;> exact hFrames
    · unfold WireBody.take
      split <;> exact hWalk
  exposed trailers hExposes := by
    obtain ⟨before, hBefore, hTrailers⟩ := hRests.exposed trailers hExposes
    obtain ⟨found, hAccepts, hFound⟩ := h.exposed before hBefore
    refine ⟨found, hAccepts, ?_⟩
    rcases hTrailers with rfl | ⟨rfl, rfl⟩
    · refine hFound.imp_right fun hTaken => ⟨?_, hTaken.2⟩
      unfold WireBody.take
      split
      · exact Bool.or_eq_true_iff.mpr (.inl hTaken.1)
      · exact hTaken.1
    · refine .inr ⟨?_, rfl⟩
      change (s.taken || (exposes s.owner).isSome) = true
      rw [hBefore]
      exact Bool.or_true _
  ended := hEnded
  told := hTold
  complete body hBody hState := by
    obtain ⟨before, hBefore, hComplete, hError⟩ := hRests.complete body hBody hState
    rw [hError]
    exact h.complete before hBefore hComplete

theorem take_told (s : WireBody) (action : OwnerAction) :
    (s.take action).errorTold = s.errorTold ∧ (s.take action).endTold = s.endTold := by
  unfold WireBody.take
  split <;> exact ⟨rfl, rfl⟩

/-- So does a call that does not poll it. -/
theorem Kept.rested (h : Kept frames s) (hAction : isConsumerAction action = true)
    (hAsks : s.owner.asksStream action = false) (hStep : s.call alloc action = some after) :
    Kept frames after := by
  obtain ⟨next, hNext, rfl⟩ := Option.map_eq_some_iff.mp hStep
  obtain ⟨hSameError, hSameEnd⟩ := s.take_told action
  have hOutside : action.isOutside = false := by
    cases action with
    | use op => cases op <;> first | rfl | cases hAction
    | _ => rfl
  have hRests := rests_step h.wellFormed hAction hAsks hNext
  obtain ⟨polls, hOffered⟩ := offer_self h.wellFormed
  rw [← hOffered] at hAsks hNext
  obtain ⟨hQuiet, hWellFormed⟩ := BodyOwner.rests_step h.wellFormed hOutside hAsks hNext
  rw [hOffered] at hQuiet
  generalize s.owner.told action next = answer at hRests hQuiet ⊢
  cases hQuiet with
  | quiet _ hOpen _ _ _ =>
      refine h.moved hWellFormed hRests hOpen ?_ ?_
      · rw [hSameEnd]
        exact h.ended
      · intro hFinished
        rw [hSameError, hSameEnd]
        exact h.told ((hRests.finished hFinished).resolve_right nofun)
  | fails _ hClosed =>
      refine h.moved hWellFormed hRests (absurd · hClosed) ?_ fun _ => .inl rfl
      rw [hSameEnd]
      exact h.ended
  | endsAgain body hOwner hClosed =>
      have hTold : s.errorTold = true ∨ s.endTold = true := by
        refine h.told ?_
        rw [hOwner]
        exact hClosed
      refine h.moved hWellFormed hRests id ?_ fun _ => ?_
      · intro hEnd
        rw [hSameEnd, hSameError] at hEnd
        rcases hTold with hError | hBefore
        · rw [hError, Bool.not_true, Bool.or_false] at hEnd
          exact h.ended hEnd
        · exact h.ended hBefore
      · rw [hSameEnd, hSameError]
        refine hTold.imp_right fun hBefore => ?_
        rw [hBefore]
        rfl

theorem Kept.step (h : Kept frames s) (hStep : s.step alloc action = some after) :
    Kept frames after := by
  unfold WireBody.step at hStep
  by_cases hAction : isConsumerAction action = true
  · rw [if_pos hAction] at hStep
    cases hAsks : s.owner.asksStream action with
    | true =>
        rw [hAsks, if_pos rfl] at hStep
        exact (h.asked hAsks hStep).1
    | false =>
        rw [hAsks, if_neg Bool.false_ne_true] at hStep
        exact h.rested hAction hAsks hStep
  · rw [if_neg hAction] at hStep
    cases hStep

theorem Kept.of_reachable (hReach : (machine alloc frames).Reachable s) : Kept frames s :=
  hReach.invariant
    (fun _ hInitial => by
      obtain ⟨declaredLength, maxBytes, shared, rfl⟩ := hInitial
      exact .start declaredLength maxBytes shared)
    fun _ _ _ h _ hStep => h.step hStep

theorem step_of_asksStream (hAsks : s.owner.asksStream action = true) :
    ∃ after, s.step alloc action = some after := by
  have hAction : isConsumerAction action = true := by
    unfold BodyOwner.asksStream at hAsks
    split at hAsks
    · rfl
    · rfl
    · rfl
    · rfl
    · cases hAsks
  rw [WireBody.step, if_pos hAction, if_pos hAsks, call]
  unfold pollStream
  generalize TrailerBridge.poll ⟨s.seen, slotOf s.owner⟩ s.frames = answered
  obtain ⟨polls, bridge, rest⟩ := answered
  unfold BodyOwner.asksStream at hAsks
  split at hAsks
  · rename_i hOwner
    rw [hOwner]
    exact ⟨_, rfl⟩
  · rename_i hOwner
    rw [hOwner]
    exact ⟨_, rfl⟩
  · rename_i hOwner
    rw [hOwner]
    exact ⟨_, rfl⟩
  · rename_i hOwner
    rw [hOwner]
    exact ⟨_, rfl⟩
  · cases hAsks

/-! The result. -/

/-- Offending frames never let a consumer come to an end without an error, and
never expose trailers. Of other frames the trailers that can be had are those of
the trailer frame, until they are taken. -/
structure Guarded (frames : List FramePoll) (s : WireBody) : Prop where
  refused : Offends frames → exposes s.owner = none ∧ s.endTold = false ∧
    (Finished s.owner → s.errorTold = true)
  exact : ¬Offends frames → ∀ trailers, exposes s.owner = some trailers →
    trailers.map fieldsOf = (trailerMaps frames).head?.map canonicalFields ∨
      s.taken = true ∧ trailers = none
  complete : ∀ body, s.owner = .holding body → body.state = .complete →
    (exposes s.owner).isSome = true

/-- In every run all states are guarded, and a consumer that reads on comes to
an end: each read is possible, and it ends the body or uses up an answer. -/
def TrailersSafe (frames : List FramePoll) : Prop :=
  ∀ alloc s, (machine alloc frames).Reachable s → Guarded frames s ∧
    ∀ action, s.owner.asksStream action = true → ∃ after, s.step alloc action = some after ∧
      (Finished after.owner ∨ after.frames.length < s.frames.length)

theorem exposes_of_complete {body : RequestBody} (hState : body.state = .complete)
    (hError : body.completedTrailerError = none) :
    exposes (.holding body) = some body.completedTrailers := by
  rw [exposes, trailers_eq_ok.mpr ⟨hError, hState, rfl⟩]
  rfl

theorem Kept.guarded (h : Kept frames s) (hOnce : ¬RepeatsValid frames) : Guarded frames s where
  refused hOffends := by
    have hNever : ∀ found, ¬Accepts frames found := fun _ hAccepts =>
      hOnce (repeatsValid_of_accepts hOffends hAccepts)
    have hEnd : s.endTold = false := by
      rw [← Bool.not_eq_true]
      intro hEnd
      obtain ⟨found, hAccepts⟩ := h.ended hEnd
      exact hNever found hAccepts
    refine ⟨?_, hEnd, fun hFinished => ?_⟩
    · cases hExposes : exposes s.owner with
      | none => rfl
      | some trailers =>
          obtain ⟨found, hAccepts, -⟩ := h.exposed trailers hExposes
          exact absurd hAccepts (hNever found)
    · refine (h.told hFinished).resolve_right ?_
      rw [hEnd]
      exact Bool.false_ne_true
  exact _ trailers hExposes := by
    obtain ⟨found, hAccepts, rfl | hTaken⟩ := h.exposed trailers hExposes
    · exact .inl hAccepts.fields
    · exact .inr hTaken
  complete body hBody hState := by
    rw [hBody, exposes_of_complete hState (h.complete body hBody hState)]
    rfl

theorem Kept.progress (h : Kept frames s) {action : OwnerAction}
    (hAsks : s.owner.asksStream action = true) :
    ∃ after, s.step alloc action = some after ∧
      (Finished after.owner ∨ after.frames.length < s.frames.length) := by
  obtain ⟨after, hStep⟩ := @step_of_asksStream s alloc action hAsks
  refine ⟨after, hStep, ?_⟩
  unfold WireBody.step at hStep
  obtain ⟨-, hCall⟩ := Option.ite_none_right_eq_some.mp hStep
  rw [if_pos hAsks] at hCall
  exact (h.asked hAsks hCall).2

/-! A run over frames that are accepted. -/

/-- Without bounds `next_chunk` reads on unless the stream fails. -/
theorem pollNextChunk_unbounded {body : RequestBody} {polls : List StreamPoll}
    (hLive : body.state.Live) (hInner : body.inner = some (.incoming polls))
    (hShort : polls.length ≤ 1) (hPolls : GoesOn polls) (hDeclared : body.declaredLength = none)
    (hMax : body.maxBytes = u64Max) :
    ∃ received, body.pollNextChunk.2 = body.openAt [] received .streaming := by
  have hOpen : ¬(body.state = .error ∨ body.state = .complete) := fun h =>
    RequestBody.not_live.mpr h.symm hLive
  cases polls with
  | nil => cases hPolls
  | cons answer rest =>
      obtain rfl : rest = [] := by simpa using hShort
      cases answer with
      | error message => cases hPolls
      | pending =>
          simp only [RequestBody.pollNextChunk, hInner, if_neg hOpen]
          exact ⟨body.bytesReceived, rfl⟩
      | chunk data =>
          have hSame : body.openAt [.chunk data] body.bytesReceived body.state = body := by
            simp only [RequestBody.openAt, RequestBody.atPoint, ← hInner]
          have hChunk : (body.openAt [.chunk data] body.bytesReceived body.state).nextChunk = _ :=
            body.nextChunk_chunk hLive
          rw [hSame] at hChunk
          simp only [RequestBody.pollNextChunk, hInner, hChunk]
          cases hAdd : checkedAdd body.bytesReceived data.length with
          | none => exact ⟨body.bytesReceived, rfl⟩
          | some total =>
              obtain ⟨hWord, rfl⟩ := enabled_iff.mp hAdd
              have hTotal : body.checkTotal (body.bytesReceived + data.length) = .ok () := by
                refine RequestBody.checkTotal_eq_ok.mpr ⟨hMax ▸ hWord, fun declared h => ?_⟩
                cases hDeclared.symm.trans h
              simp only [hTotal]
              exact ⟨_, rfl⟩

/-- What the consumer hears concerns neither the frames nor the owner. -/
theorem hear_frame (s : WireBody) (answer : Primitives.Told) :
    (s.hear answer).frames = s.frames ∧ (s.hear answer).seen = s.seen ∧
      (s.hear answer).owner = s.owner := by
  cases answer <;> exact ⟨rfl, rfl, rfl⟩

/-- One call of `next_chunk` on a body that is held. -/
theorem step_nextChunk {body : RequestBody} {polls : List StreamPoll} {bridge : TrailerBridge}
    {rest : List FramePoll} (hOwner : s.owner = .holding body) (hLive : body.state.Live)
    (hPoll : TrailerBridge.poll ⟨s.seen, slotOf s.owner⟩ s.frames = (polls, bridge, rest)) :
    ∃ after, s.step alloc (.use .nextChunk) = some after ∧ after.frames = rest ∧
      after.seen = bridge.seen ∧
      after.owner = .holding
        ((body.mapSlot fun _ => bridge.slot).offer polls).pollNextChunk.2 := by
  have hAsks : s.owner.asksStream (.use .nextChunk) = true := by
    rw [hOwner]
    exact decide_eq_true hLive
  have hConsumer : isConsumerAction (.use .nextChunk) = true := rfl
  rw [WireBody.step, if_pos hConsumer, if_pos hAsks, call]
  unfold pollStream
  rw [hPoll, hOwner]
  exact ⟨_, rfl, hear_frame _ _⟩

/-- The end of a body without bounds whose slot is in order. -/
theorem complete_of_ended {body : RequestBody} {slot : WireTrailerSlot} {found : Option Trailers}
    (hLive : body.state.Live) (hNetwork : body.Network) (hInner : body.inner = some (.incoming []))
    (hAwaits : Awaits slot body) (hDeclared : body.declaredLength = none)
    (hDrain : drainAndValidateWireSlot slot {} = .ok found) :
    body.pollNextChunk.2.state = .complete := by
  have hVerdict : body.trailerVerdict.isOk = true := by
    unfold RequestBody.trailerVerdict
    rw [hAwaits.slot_eq, hAwaits.limits, hAwaits.no_trailers, Option.getD_some, hDrain]
    cases found <;> rfl
  have hAccepts : body.acceptsEnd = true := by
    rw [RequestBody.acceptsEnd, hVerdict, Bool.and_true, RequestBody.checkEof, hDeclared]
    rfl
  have hHears := RequestBody.pollNextChunk_hears hNetwork hLive hInner (Nat.zero_le 1)
  generalize toldByNextChunk body.pollNextChunk.1 = answer at hHears
  cases hHears with
  | fails _ _ _ _ hRefused => cases (hRefused rfl).symm.trans hAccepts
  | ends _ _ _ hState _ => exact hState

/-- A body without bounds over frames that are accepted can be read to its end. -/
theorem completes {final : TrailerBridge} {found : Option Trailers}
    (hReach : (machine alloc frames).Reachable s) {body : RequestBody} {slot : WireTrailerSlot}
    (hOwner : s.owner = .holding body) (hLive : body.state.Live) (hNetwork : body.Network)
    (hAwaits : Awaits slot body) (hDeclared : body.declaredLength = none)
    (hMax : body.maxBytes = u64Max)
    (hWalk : TrailerBridge.walk ⟨s.seen, slot⟩ s.frames = some final)
    (hDrain : drainAndValidateWireSlot final.slot {} = .ok found) :
    ∃ s' body, (machine alloc frames).Reachable s' ∧ s'.owner = .holding body ∧
      body.state = .complete := by
  induction hLength : s.frames.length using Nat.strong_induction_on generalizing s body slot with
  | _ length ih =>
      subst hLength
      have hSlot : slotOf s.owner = slot := by
        rw [hOwner]
        exact @slotOf_of_awaits slot (.holding body) hAwaits
      have hPolled := TrailerBridge.polled ⟨s.seen, slot⟩ s.frames
      generalize hPoll : TrailerBridge.poll ⟨s.seen, slot⟩ s.frames = answered at hPolled
      obtain ⟨polls, bridge, rest⟩ := answered
      rw [← hSlot] at hPoll
      obtain ⟨after, hStep, hFrames, hSeen, hAfter⟩ :=
        @step_nextChunk s alloc body polls bridge rest hOwner hLive hPoll
      have hNext : (machine alloc frames).Reachable after :=
        @Machine.ReachableUnder.step _ _ (machine alloc frames) _ s after (.use .nextChunk) hReach
          trivial hStep
      rcases hPolled.walked with ⟨-, hNone⟩ | ⟨hError, used, hUsed, hWalked⟩
      · cases hNone.symm.trans hWalk
      rw [hUsed, TrailerBridge.walk_append, hWalked, Option.bind_some] at hWalk
      have hMapped : Awaits bridge.slot ((body.mapSlot fun _ => bridge.slot).offer polls) :=
        Awaits.offer (@awaits_mapSlot slot (.holding body) hAwaits bridge.slot) polls
      have hOnNetwork : ((body.mapSlot fun _ => bridge.slot).offer polls).Network :=
        RequestBody.network_of_slot rfl hMapped.slot_eq
      cases polls with
      | nil =>
          rw [hPolled.ended rfl] at hWalk
          obtain rfl := Option.some.inj hWalk
          exact ⟨after, _, hNext, hAfter,
            complete_of_ended hLive hOnNetwork rfl hMapped hDeclared hDrain⟩
      | cons answer more =>
          have hGoesOn : GoesOn (answer :: more) := by
            cases answer with
            | error message =>
                obtain rfl : more = [] := by simpa using hPolled.short
                exact hError message rfl
            | pending => trivial
            | chunk data => trivial
          obtain ⟨received, hBody⟩ := @pollNextChunk_unbounded
            ((body.mapSlot fun _ => bridge.slot).offer (answer :: more)) _ hLive rfl hPolled.short
            hGoesOn hDeclared hMax
          have hShorter : after.frames.length < s.frames.length := by
            rw [hFrames]
            exact hPolled.shrinks nofun
          refine ih _ hShorter hNext (hAfter.trans (congrArg _ hBody)) (.inr rfl)
            (RequestBody.network_of_slot rfl hMapped.slot_eq) (hMapped.atPoint _ _ _) hDeclared hMax
            ?_ rfl
          rw [hSeen, hFrames]
          exact hWalk

/-- Trailers are safe on exactly those frames that do not repeat valid trailers. -/
theorem trailersSafe_iff (frames : List FramePoll) :
    TrailersSafe frames ↔ ¬RepeatsValid frames := by
  constructor
  · intro hSafe hRepeats
    obtain ⟨found, bridge, hWalk, hDrain⟩ := hRepeats.accepts
    have hStart : (machine ⟨0, fun _ => true⟩ frames).Reachable
        (start frames none u64Max {}) := .start ⟨none, u64Max, {}, rfl⟩
    obtain ⟨s, body, hReach, hOwner, hState⟩ := completes hStart rfl (.inl rfl) ⟨⟨[], rfl⟩, rfl⟩
      ⟨rfl, rfl, rfl, rfl⟩ rfl rfl hWalk hDrain
    obtain ⟨hGuarded, -⟩ := hSafe _ s hReach
    have hSome := hGuarded.complete body hOwner hState
    rw [(hGuarded.refused (.inl hRepeats.second)).1] at hSome
    cases hSome
  · intro hOnce alloc s hReach
    have hKept := Kept.of_reachable hReach
    exact ⟨hKept.guarded hOnce, fun action hAsks => hKept.progress hAsks⟩

/-- Two trailer frames. -/
def repeatedFrames : List FramePoll :=
  [.frame (.trailers [⟨"x-first", utf8 "1"⟩]), .frame (.trailers [⟨"x-second", utf8 "2"⟩])]

/-- Of two trailer frames the first is exposed, although the second offends. -/
theorem first_of_two_exposed : ¬TrailersSafe repeatedFrames := by
  intro hSafe
  have hStart : (machine ⟨0, fun _ => true⟩ repeatedFrames).Reachable
      (start repeatedFrames none u64Max {}) := .start ⟨none, u64Max, {}, rfl⟩
  have hOffends : Offends repeatedFrames := .inl ⟨_, _, List.Sublist.refl _⟩
  obtain ⟨-, hEnds⟩ := hSafe _ _ hStart
  obtain ⟨after, hStep, -⟩ := hEnds (.use .nextChunk) (by decide)
  have hExposed : ((step ⟨0, fun _ => true⟩ (start repeatedFrames none u64Max {})
      (.use .nextChunk)).bind fun s => exposes s.owner).isSome = true := by decide +kernel
  rw [hStep] at hExposed
  have hNext : (machine ⟨0, fun _ => true⟩ repeatedFrames).Reachable after :=
    @Machine.ReachableUnder.step _ _ _ _ _ after (.use .nextChunk) hStart trivial hStep
  rw [Option.bind_some, ((hSafe _ after hNext).1.refused hOffends).1] at hExposed
  cases hExposed

end WireBody

end Eggserve.Server
