import Eggserve.Primitives.BodyRun

/-! What an owner of a network body can do with it, up to the point where the
body and every future that owned it are gone. A future is advanced one answer
of the stream at a time, so a watchdog may act between any two of them. It can
be dropped before its first poll and wherever it waits. -/
namespace Eggserve.Primitives
open Rust Transition

inductive FutureAnswer where
  | readAll (result : Except RequestBodyError (List UInt8))
  | readAllWithTrailers (result : Except RequestBodyError (List UInt8 × Option Trailers))
  deriving DecidableEq

/-- Who owns the body. A future that owns it knows whether it is waiting. -/
inductive BodyOwner where
  | holding (body : RequestBody)
  | readAll (body : RequestBody)
  | receiving (body : RequestBody) (stream : List StreamPoll) (buf : List UInt8) (waiting : Bool)
  | readAllWithTrailers (body : RequestBody)
  | collecting (body : RequestBody) (buf : List UInt8) (waiting : Bool)
  | gone (shared : RequestShared) (answer : Option FutureAnswer)

inductive OwnerAction where
  | use (op : BodyOp)
  | drop
  | callReadAll
  | callReadAllWithTrailers
  | poll

/-- What happens without the owner. -/
def BodyOp.isOutside : BodyOp → Bool
  | .fillSlot _ | .markFailed _ => true
  | _ => false

namespace BodyOwner

/-- The end of the future of `read_all`: its body goes with it. -/
def returnReadAll (outcome : Except RequestBodyError (List UInt8) × RequestBody) : BodyOwner :=
  .gone outcome.2.drop.shared (some (.readAll outcome.1))

/-- `read_all` up to its receive loop. The stream is taken out of the body. -/
def startReadAll (alloc : Allocator) (body : RequestBody) : BodyOwner :=
  if body.state = .complete ∨ body.state = .error then
    returnReadAll (.error .alreadyConsumed, body)
  else if body.state = .streaming then returnReadAll (.error .mixedConsumptionMode, body)
  else
    match body.inner with
    | some (.incoming stream) =>
        let body := { body with inner := none }
        if body.ReserveRefused alloc then
          returnReadAll (.error (.limitExceeded body.maxBytes
            (min (body.declaredLength.getD 0) body.maxBytes)), body.fail)
        else .receiving body stream [] false
    | _ => .gone (body.readAll alloc).2.shared (some (.readAll (body.readAll alloc).1))

/-- One answer of the stream in the receive loop of `read_all`. -/
def receive (body : RequestBody) (buf : List UInt8) : List StreamPoll → BodyOwner
  | [] =>
      match body.checkEof with
      | .error e => returnReadAll (.error e, body.fail)
      | .ok () => returnReadAll (body.completeWith buf)
  | .pending :: rest => .receiving body rest buf true
  | .error message :: _ => returnReadAll (.error (.transport message), body.fail)
  | .chunk chunk :: rest =>
      match checkedAdd body.bytesReceived chunk.length with
      | none => returnReadAll (.error body.overflowError, body)
      | some total =>
          match body.checkTotal total with
          | .error e => returnReadAll (.error e, body.fail)
          | .ok () => .receiving { body with bytesReceived := total } rest (buf ++ chunk) false

def returnWithTrailers (body : RequestBody)
    (result : Except RequestBodyError (List UInt8 × Option Trailers)) : BodyOwner :=
  .gone body.drop.shared (some (.readAllWithTrailers result))

def startReadAllWithTrailers (body : RequestBody) : BodyOwner :=
  if body.state = .complete ∨ body.state = .error then
    returnWithTrailers body (.error .alreadyConsumed)
  else if body.state = .streaming then returnWithTrailers body (.error .mixedConsumptionMode)
  else if body.inner = none then returnWithTrailers body (.error .alreadyConsumed)
  else .collecting body [] false

/-- One poll of `next_chunk` in the loop of `read_all_with_trailers`. The
stream stays in the body. -/
def collect (body : RequestBody) (buf : List UInt8) : BodyOwner :=
  match body.pollNextChunk with
  | (none, body) => .collecting body buf true
  | (some (.error e), body) => returnWithTrailers body (.error e)
  | (some (.ok (some chunk)), body) => .collecting body (buf ++ chunk) false
  | (some (.ok none), body) =>
      match body.completedTrailerError with
      | some message => returnWithTrailers body (.error (.invalidTrailers message))
      | none => returnWithTrailers body (.ok (buf, body.completedTrailers))

/-- An operation on a body that is held. -/
def apply (body : RequestBody) (op : BodyOp) : RequestBody := ((BodyRun.start body).step op).body

/-- The transport and the watchdog reach the slot and the lifecycle of a body
that a future owns, and the lifecycle of one that is gone. -/
def use : BodyOwner → BodyOp → Option BodyOwner
  | .holding body, op => some (.holding (apply body op))
  | .readAll body, op => if op.isOutside then some (.readAll (apply body op)) else none
  | .receiving body stream buf waiting, op =>
      if op.isOutside then some (.receiving (apply body op) stream buf waiting) else none
  | .readAllWithTrailers body, op =>
      if op.isOutside then some (.readAllWithTrailers (apply body op)) else none
  | .collecting body buf waiting, op =>
      if op.isOutside then some (.collecting (apply body op) buf waiting) else none
  | .gone shared answer, .markFailed reason =>
      some (.gone (shared.markFailedWithReason reason) answer)
  | .gone _ _, _ => none

def step (alloc : Allocator) (owner : BodyOwner) : OwnerAction → Option BodyOwner
  | .use op => owner.use op
  | .drop =>
      match owner with
      | .holding body | .readAll body | .readAllWithTrailers body
      | .receiving body _ _ true | .collecting body _ true => some (.gone body.drop.shared none)
      | _ => none
  | .callReadAll =>
      match owner with
      | .holding body => some (.readAll body)
      | _ => none
  | .callReadAllWithTrailers =>
      match owner with
      | .holding body => some (.readAllWithTrailers body)
      | _ => none
  | .poll =>
      match owner with
      | .readAll body => some (startReadAll alloc body)
      | .receiving body stream buf _ => some (receive body buf stream)
      | .readAllWithTrailers body => some (startReadAllWithTrailers body)
      | .collecting body buf _ => some (collect body buf)
      | _ => none

/-- An owner at work, from any body that the runtime builds on the network. -/
def machine (alloc : Allocator) : Transition.Machine BodyOwner OwnerAction where
  Initial owner := ∃ body : RequestBody, body.BuiltFromIncoming ∧ owner = .holding body
  step := step alloc

/-! The awaited calls are these futures, polled to their end. -/

theorem polled_receiving (alloc : Allocator) (stream : List StreamPoll) (body : RequestBody)
    (buf : List UInt8) (waiting : Bool) :
    ∃ polls, (machine alloc).run (fun _ _ => True) (.receiving body stream buf waiting)
      (List.replicate polls .poll) = some (returnReadAll (body.readStream buf stream)) := by
  induction stream generalizing body buf waiting with
  | nil =>
      refine ⟨1, ?_⟩
      rw [RequestBody.readStream]
      simp only [List.replicate_one, Machine.run, machine, step, receive, if_true,
        Option.bind_some]
      cases body.checkEof <;> rfl
  | cons answer rest ih =>
      cases answer with
      | pending =>
          obtain ⟨polls, hPolls⟩ := ih body buf true
          exact ⟨polls + 1, hPolls⟩
      | error message => exact ⟨1, rfl⟩
      | chunk data =>
          rw [RequestBody.readStream]
          cases hAdd : checkedAdd body.bytesReceived data.length with
          | none =>
              refine ⟨1, ?_⟩
              simp [Machine.run, machine, step, receive, hAdd]
          | some total =>
              cases hTotal : body.checkTotal total with
              | error e =>
                  refine ⟨1, ?_⟩
                  simp [Machine.run, machine, step, receive, hAdd, hTotal]
              | ok _ =>
                  obtain ⟨polls, hPolls⟩ := ih { body with bytesReceived := total } (buf ++ data)
                    false
                  refine ⟨polls + 1, ?_⟩
                  simpa [Machine.run, machine, step, receive, hAdd, hTotal, List.replicate_succ]
                    using hPolls

/-- `read_all().await` is its future, polled to the end. -/
theorem polled_readAll (alloc : Allocator) (body : RequestBody) :
    ∃ polls, (machine alloc).run (fun _ _ => True) (.readAll body) (List.replicate polls .poll) =
      some (.gone (body.readAll alloc).2.shared (some (.readAll (body.readAll alloc).1))) := by
  by_cases hClosed : body.state = .complete ∨ body.state = .error
  · refine ⟨1, ?_⟩
    simp [Machine.run, machine, step, startReadAll, RequestBody.readAll, hClosed, returnReadAll]
  · by_cases hStreaming : body.state = .streaming
    · refine ⟨1, ?_⟩
      simp [Machine.run, machine, step, startReadAll, RequestBody.readAll, hStreaming,
        returnReadAll]
    · cases hInner : body.inner with
      | none => exact ⟨1, by simp [Machine.run, machine, step, startReadAll, hClosed, hStreaming,
          hInner]⟩
      | some inner =>
          cases inner with
          | empty => exact ⟨1, by simp [Machine.run, machine, step, startReadAll, hClosed,
              hStreaming, hInner]⟩
          | fixed data offset => exact ⟨1, by simp [Machine.run, machine, step, startReadAll,
              hClosed, hStreaming, hInner]⟩
          | incoming stream =>
              by_cases hRefused : ({ body with inner := none } : RequestBody).ReserveRefused alloc
              · refine ⟨1, ?_⟩
                simp [Machine.run, machine, step, startReadAll, RequestBody.readAll, hClosed,
                  hStreaming, hInner, hRefused, returnReadAll]
              · obtain ⟨polls, hPolls⟩ := polled_receiving alloc stream { body with inner := none }
                  [] false
                refine ⟨polls + 1, ?_⟩
                simpa [Machine.run, machine, step, startReadAll, RequestBody.readAll, hClosed,
                  hStreaming, hInner, hRefused, returnReadAll, List.replicate_succ] using hPolls

/-! The way out. -/

/-- The steps after which nobody owns the body although its lifecycle is still
active: the future of `read_all` is dropped while it waits for the stream, or
it returns because the count of octets overflows. -/
def LeavesActive : BodyOwner → OwnerAction → Prop
  | .receiving body _ _ true, .drop => body.shared.isBodyActive = true
  | .receiving body (.chunk chunk :: _) _ _, .poll =>
      body.shared.isBodyActive = true ∧ checkedAdd body.bytesReceived chunk.length = none
  | _, _ => False

/-- A body that can still be abandoned is where its owner expects it, and one
that is gone is terminal. -/
def Accounted : BodyOwner → Prop
  | .holding body | .readAll body | .readAllWithTrailers body | .collecting body _ _ =>
      body.Network
  | .receiving body _ _ _ => body.inner = none
  | .gone shared _ => shared.isBodyTerminal = true

theorem isBodyTerminal_drop_of_network {body : RequestBody} (h : body.Network) :
    body.drop.shared.isBodyTerminal = true := by
  obtain ⟨stream, hInner⟩ := h.incoming
  rw [RequestBody.drop, hInner]
  exact RequestShared.isBodyTerminal_markAbandoned body.shared

theorem isBodyTerminal_drop {body : RequestBody} (h : body.shared.isBodyActive = false) :
    body.drop.shared.isBodyTerminal = true := by
  unfold RequestBody.drop
  split
  · exact RequestShared.isBodyTerminal_markAbandoned body.shared
  · exact RequestShared.isBodyTerminal_iff.mpr h

theorem isBodyActive_completeWith {α : Type} (body : RequestBody) (value : α) :
    (body.completeWith value).2.shared.isBodyActive = false := by
  unfold RequestBody.completeWith
  cases hFinal : body.finalizeTrailers with
  | mk result after =>
      cases result with
      | ok _ => exact RequestShared.isBodyActive_markComplete after.shared
      | error e =>
          have hFail : ∀ (drained : RequestBody) (message : Str),
              drained.failTrailers message = (.error e, after) →
                after.shared.isBodyActive = false := by
            rintro drained message hEq
            obtain ⟨-, rfl⟩ := Prod.mk.inj hEq
            exact RequestShared.isBodyActive_markFailed drained.shared
          unfold RequestBody.finalizeTrailers at hFinal
          split at hFinal
          · cases hFinal
          · simp only at hFinal
            split at hFinal
            · cases hFinal
            · split at hFinal
              · exact hFail _ _ hFinal
              · cases hFinal
            · exact hFail _ _ hFinal

theorem accounted_startReadAll {alloc : Allocator} {body : RequestBody} (h : body.Network) :
    (startReadAll alloc body).Accounted := by
  obtain ⟨stream, hInner⟩ := h.incoming
  rw [startReadAll, hInner]
  split
  · exact isBodyTerminal_drop_of_network h
  · split
    · exact isBodyTerminal_drop_of_network h
    · simp only
      split
      · exact isBodyTerminal_drop (RequestShared.isBodyActive_markFailed body.shared)
      · rfl

theorem accounted_startReadAllWithTrailers {body : RequestBody} (h : body.Network) :
    (startReadAllWithTrailers body).Accounted := by
  unfold startReadAllWithTrailers
  split
  · exact isBodyTerminal_drop_of_network h
  · split
    · exact isBodyTerminal_drop_of_network h
    · split
      · exact isBodyTerminal_drop_of_network h
      · exact h

theorem accounted_receive {body : RequestBody} {buf : List UInt8} {waiting : Bool}
    (stream : List StreamPoll) (hInner : body.inner = none)
    (hGuard : ¬LeavesActive (.receiving body stream buf waiting) .poll) :
    (receive body buf stream).Accounted := by
  cases stream with
  | nil =>
      simp only [receive]
      split
      · exact isBodyTerminal_drop (RequestShared.isBodyActive_markFailed body.shared)
      · exact isBodyTerminal_drop (isBodyActive_completeWith body buf)
  | cons answer rest =>
      cases answer with
      | pending => exact hInner
      | error message => exact isBodyTerminal_drop (RequestShared.isBodyActive_markFailed body.shared)
      | chunk data =>
          simp only [receive]
          split
          · rename_i hAdd
            refine isBodyTerminal_drop ?_
            rw [← Bool.not_eq_true]
            intro hActive
            exact hGuard (by cases waiting <;> exact ⟨hActive, hAdd⟩)
          · split
            · exact isBodyTerminal_drop (RequestShared.isBodyActive_markFailed body.shared)
            · exact hInner

theorem accounted_collect {body : RequestBody} {buf : List UInt8} (h : body.Network) :
    (collect body buf).Accounted := by
  have hNetwork := (RequestBody.pollNextChunk_effect h).network h
  unfold collect
  split <;> rename_i after hPoll <;> rw [hPoll] at hNetwork
  · exact hNetwork
  · exact isBodyTerminal_drop_of_network hNetwork
  · exact hNetwork
  · split <;> exact isBodyTerminal_drop_of_network hNetwork

theorem network_apply {body : RequestBody} (h : body.Network) (op : BodyOp) :
    (apply body op).Network := by
  have hRun : (BodyRun.start body).body.Network := h
  exact BodyRun.network_step hRun op

/-- Every step outside the two gaps keeps track of the body. -/
theorem accounted_step {alloc : Allocator} {owner after : BodyOwner} {action : OwnerAction}
    (h : owner.Accounted) (hGuard : ¬owner.LeavesActive action)
    (hStep : step alloc owner action = some after) : after.Accounted := by
  cases action with
  | use op =>
      cases owner with
      | holding body =>
          obtain rfl := Option.some.inj hStep
          exact network_apply h op
      | readAll body =>
          obtain ⟨-, rfl⟩ := enabled_iff.mp hStep
          exact network_apply h op
      | receiving body stream buf waiting =>
          obtain ⟨hOutside, rfl⟩ := enabled_iff.mp hStep
          cases op with
          | fillSlot wire => exact h
          | markFailed reason => exact h
          | _ => cases hOutside
      | readAllWithTrailers body =>
          obtain ⟨-, rfl⟩ := enabled_iff.mp hStep
          exact network_apply h op
      | collecting body buf waiting =>
          obtain ⟨-, rfl⟩ := enabled_iff.mp hStep
          exact network_apply h op
      | gone shared answer =>
          cases op with
          | markFailed reason =>
              obtain rfl := Option.some.inj hStep
              exact RequestShared.isBodyTerminal_markFailedWithReason h reason
          | _ => cases hStep
  | drop =>
      cases owner with
      | holding body =>
          obtain rfl := Option.some.inj hStep
          exact isBodyTerminal_drop_of_network h
      | readAll body =>
          obtain rfl := Option.some.inj hStep
          exact isBodyTerminal_drop_of_network h
      | receiving body stream buf waiting =>
          cases waiting with
          | false => cases hStep
          | true =>
              obtain rfl := Option.some.inj hStep
              exact isBodyTerminal_drop (Bool.not_eq_true _ ▸ hGuard)
      | readAllWithTrailers body =>
          obtain rfl := Option.some.inj hStep
          exact isBodyTerminal_drop_of_network h
      | collecting body buf waiting =>
          cases waiting with
          | false => cases hStep
          | true =>
              obtain rfl := Option.some.inj hStep
              exact isBodyTerminal_drop_of_network h
      | gone shared answer => cases hStep
  | callReadAll =>
      cases owner with
      | holding body =>
          obtain rfl := Option.some.inj hStep
          exact h
      | _ => cases hStep
  | callReadAllWithTrailers =>
      cases owner with
      | holding body =>
          obtain rfl := Option.some.inj hStep
          exact h
      | _ => cases hStep
  | poll =>
      cases owner with
      | readAll body =>
          obtain rfl := Option.some.inj hStep
          exact accounted_startReadAll h
      | receiving body stream buf waiting =>
          obtain rfl := Option.some.inj hStep
          exact accounted_receive stream h hGuard
      | readAllWithTrailers body =>
          obtain rfl := Option.some.inj hStep
          exact accounted_startReadAllWithTrailers h
      | collecting body buf waiting =>
          obtain rfl := Option.some.inj hStep
          exact accounted_collect h
      | holding body => cases hStep
      | gone shared answer => cases hStep

/-- A step into one of the gaps leaves an active lifecycle without an owner. -/
theorem gone_active_of_leavesActive {alloc : Allocator} {owner : BodyOwner} {action : OwnerAction}
    (h : owner.Accounted) (hLeaves : owner.LeavesActive action) :
    ∃ shared answer, step alloc owner action = some (.gone shared answer) ∧
      shared.isBodyTerminal = false := by
  have hActive : ∀ {shared : RequestShared}, shared.isBodyActive = true →
      shared.isBodyTerminal = false := by
    intro shared hShared
    simpa [RequestShared.isBodyTerminal, RequestShared.isBodyActive] using hShared
  have hTaken : ∀ {body : RequestBody}, body.inner = none → body.drop = body := by
    intro body hInner
    rw [RequestBody.drop, hInner]
  unfold LeavesActive at hLeaves
  split at hLeaves
  · rename_i body stream buf
    refine ⟨_, _, rfl, ?_⟩
    rw [hTaken h]
    exact hActive hLeaves
  · rename_i body chunk rest buf waiting
    refine ⟨body.shared, some (.readAll (.error body.overflowError)), ?_, hActive hLeaves.1⟩
    simp only [step, receive, hLeaves.2, returnReadAll, hTaken h]
  · exact hLeaves.elim

end BodyOwner

/-- In every run without a step into one of the two gaps, a network body whose
owner is gone is terminal. The first step into a gap leaves it active. -/
theorem network_body_terminal_when_gone (alloc : Allocator) (owner : BodyOwner)
    (hReach : (BodyOwner.machine alloc).ReachableUnder
      (fun owner action => ¬owner.LeavesActive action) owner) :
    (∀ shared answer, owner = .gone shared answer → shared.isBodyTerminal = true) ∧
      ∀ action, owner.LeavesActive action →
        ∃ shared answer, (BodyOwner.machine alloc).step owner action = some (.gone shared answer) ∧
          shared.isBodyTerminal = false := by
  have hAccounted : owner.Accounted := by
    refine hReach.invariant ?_ ?_
    · rintro _ ⟨body, hBuilt, rfl⟩
      exact hBuilt.network
    · intro before action after h hGuard hStep
      exact BodyOwner.accounted_step h hGuard hStep
  constructor
  · rintro shared answer rfl
    exact hAccounted
  · intro action hLeaves
    exact BodyOwner.gone_active_of_leavesActive hAccounted hLeaves

/-- A body of five announced octets whose first answer is pending. -/
def waitingBody : RequestBody := .fromIncoming [.pending, .chunk [1, 2, 3, 4, 5]] (some 5) 10

def unboundedAllocator : Allocator := ⟨u64Max, fun _ => true⟩

/-- A waiting `read_all_with_trailers` that is dropped abandons the body. -/
theorem network_body_terminal_when_gone_collecting :
    ∃ shared, (BodyOwner.machine unboundedAllocator).ReachableUnder
        (fun owner action => ¬owner.LeavesActive action) (.gone shared none) ∧
      shared.bodyState = .abandoned ∧ shared.isBodyTerminal = true := by
  have hStart : (BodyOwner.machine unboundedAllocator).ReachableUnder
      (fun owner action => ¬owner.LeavesActive action) (.holding waitingBody) :=
    .start ⟨waitingBody, .plain _ _ _, rfl⟩
  have hCalled := hStart.step (a := .callReadAllWithTrailers) id rfl
  have hPolled := (hCalled.step (a := .poll) id rfl).step (a := .poll) id rfl
  have hDropped := hPolled.step (a := .drop) id rfl
  exact ⟨_, hDropped, rfl, (network_body_terminal_when_gone _ _ hDropped).1 _ _ rfl⟩

/-- A waiting `read_all` that is dropped leaves the lifecycle active for good. -/
theorem dropped_read_all_leaves_body_active :
    ∃ shared, (BodyOwner.machine unboundedAllocator).Reachable (.gone shared none) ∧
      shared.isBodyTerminal = false := by
  have hStart : (BodyOwner.machine unboundedAllocator).Reachable (.holding waitingBody) :=
    .start ⟨waitingBody, .plain _ _ _, rfl⟩
  have hRun : (BodyOwner.machine unboundedAllocator).run (fun _ _ => True) (.holding waitingBody)
      [.callReadAll, .poll, .poll, .drop] = some (.gone {} none) := rfl
  exact ⟨{}, hStart.run hRun, rfl⟩

end Eggserve.Primitives
