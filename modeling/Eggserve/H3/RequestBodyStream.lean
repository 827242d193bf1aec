import Eggserve.Primitives.BodyTold
import Eggserve.Transition.Watch

/-! The request body of an HTTP/3 stream. Its octets come out of a stream that
also listens to the watchdog of the body, and that looks for trailers once the
DATA of the peer has ended. Peer, watchdog and consumer act in any order. -/
namespace Eggserve.H3
open Rust Transition Eggserve.Primitives

/-! The parties. -/

/-- The receive side of the request stream. Of the octets that the peer sent,
some wait to be received. -/
structure PeerStream where
  sent : List UInt8
  inFlight : List (List UInt8)
  ended : Bool
  deriving DecidableEq

inductive PeerEvent where
  | data (chunk : List UInt8)
  | finish
  deriving DecidableEq

/-- After the end of its DATA the peer sends none. -/
def PeerStream.step (peer : PeerStream) (event : PeerEvent) : Option PeerStream :=
  if peer.ended then none
  else
    match event with
    | .data chunk =>
        some { peer with sent := peer.sent ++ chunk, inFlight := peer.inFlight ++ [chunk] }
    | .finish => some { peer with ended := true }

/-- The task of `spawn_body_timeout_watchdog`. It fails the body, sends the
signal and ends, or it ends because the body is terminal. -/
inductive Watchdog where
  | waiting
  | marked
  | signalled
  | gone
  deriving DecidableEq

inductive WatchdogEvent where
  | bodyTerminal
  | deadline
  | signal
  deriving DecidableEq

namespace Watchdog

/-- The watchdog has failed the body. -/
def fired : Watchdog → Bool
  | marked | signalled => true
  | waiting | gone => false

/-- The task has ended, and its half of the channel with it. -/
def senderDropped : Watchdog → Bool
  | signalled | gone => true
  | waiting | marked => false

end Watchdog

/-- `h3_trailers_to_block`. -/
def h3TrailersToBlock (map : List (Str × List UInt8)) : Except Str HeaderBlock :=
  map.mapM fun (name, value) => do
    let name ← (HeaderName.new name).mapError fun _ => ("invalid trailer name" : Str)
    let value ← (HeaderValue.fromBytes value).mapError fun _ => ("invalid trailer value" : Str)
    return ⟨name, value⟩

/-- A trailer block that arrives is stored in the slot. -/
def storeTrailers (slot : WireTrailerSlot) : Except Str HeaderBlock → WireTrailerSlot
  | .ok block =>
      if slot.isNone then some (.ok block) else some (.error repeatedTrailerBlock)
  | .error message => if slot.isNone then some (.error message) else slot

/-- What `recv_data` answers. -/
inductive RecvData where
  | data
  | finished
  | failed (message : Str)
  deriving DecidableEq

/-- What becomes of `recv_trailers` under its timeout. -/
inductive TrailerProbe where
  | block (map : List (Str × List UInt8))
  | absent
  | failed
  | timedOut
  deriving DecidableEq

/-- Where the closure of the stream stands. -/
inductive StreamPhase where
  | resting
  | selecting
  | probing
  | ended
  deriving DecidableEq

/-- What the closure meets when it is polled on. -/
inductive StreamEvent where
  | enter
  | wait
  | cancelChanged
  | recvData (answer : RecvData)
  | probe (answer : TrailerProbe)
  deriving DecidableEq

/-- A request body over the stream, with the history of its run: what the
consumer was handed, whether it was told an error, where the watchdog stood when
it was first told a successful end, and whether `recv_trailers` failed. The end
that follows an error is not a success. -/
structure H3Body where
  peer : PeerStream
  phase : StreamPhase
  cancel : Watch Bool Unit
  watchdog : Watchdog
  owner : BodyOwner
  delivered : List UInt8
  errorTold : Bool
  endTold : Option Watchdog
  probeFailed : Bool

inductive H3Action where
  | peer (event : PeerEvent)
  | watchdog (event : WatchdogEvent)
  | consumer (action : OwnerAction) (event : Option StreamEvent)

namespace H3Body

/-- The stream ends, and its half of the channel goes with it. -/
def endStream (s : H3Body) : H3Body :=
  { s with phase := .ended, cancel := s.cancel.unsubscribe () }

def recvData (s : H3Body) : RecvData → Option (List StreamPoll × H3Body)
  | .data =>
      match s.peer.inFlight with
      | [] => none
      | chunk :: rest =>
          some ([.chunk chunk], { s with peer.inFlight := rest, phase := .resting })
  | .finished =>
      if s.peer.ended = true ∧ s.peer.inFlight = [] then
        some ([.pending], { s with phase := .probing })
      else none
  | .failed message => some ([.error message], { s with phase := .resting })

/-- The probe for trailers. A failure of the transport leaves no trace in the
slot. -/
def probe (s : H3Body) : TrailerProbe → H3Body
  | .block map =>
      { s with owner := s.owner.mapSlot (storeTrailers · (h3TrailersToBlock map)) }.endStream
  | .failed => { s with probeFailed := true }.endStream
  | .absent | .timedOut => s.endStream

/-- The closure of the stream is polled on. While it has not answered, the
consumer sees that the stream is pending; without any answer left the stream
has ended. -/
def pollStream (s : H3Body) : StreamEvent → Option (List StreamPoll × H3Body)
  | .enter =>
      if s.phase = .resting then
        if s.cancel.value then some ([], s.endStream)
        else some ([.pending], { s with phase := .selecting })
      else none
  | .wait =>
      if s.phase = .selecting ∨ s.phase = .probing then some ([.pending], s) else none
  | .cancelChanged =>
      if s.phase = .selecting ∧
          (s.cancel.hasChanged () = true ∨ s.watchdog.senderDropped = true) then
        some ([], s.endStream)
      else none
  | .recvData answer => if s.phase = .selecting then s.recvData answer else none
  | .probe answer => if s.phase = .probing then some ([], s.probe answer) else none

/-- The consumer hears of it. -/
def hear (s : H3Body) : Told → H3Body
  | .nothing => s
  | .chunk data => { s with delivered := s.delivered ++ data }
  | .error => { s with errorTold := true }
  | .ended data =>
      if s.errorTold = true ∨ s.endTold.isSome = true then s
      else { s with delivered := s.delivered ++ data, endTold := some s.watchdog }

def consume (alloc : Allocator) (s : H3Body) (action : OwnerAction) (polls : List StreamPoll) :
    Option H3Body :=
  let owner := s.owner.offer polls
  (owner.step alloc action).map fun after =>
    { s with owner := after }.hear (owner.told action after)

def watchdogStep (s : H3Body) : WatchdogEvent → Option H3Body
  | .bodyTerminal =>
      if s.watchdog = .waiting ∧ s.owner.shared.isBodyTerminal = true then
        some { s with watchdog := .gone }
      else none
  | .deadline =>
      if s.watchdog = .waiting then
        if s.owner.shared.isBodyActive then
          (s.owner.use (.markFailed .connectionTimeout)).map fun owner =>
            { s with owner, watchdog := .marked }
        else some { s with watchdog := .gone }
      else none
  | .signal =>
      if s.watchdog = .marked then
        some { s with watchdog := .signalled, cancel := s.cancel.send true }
      else none

def step (alloc : Allocator) (s : H3Body) : H3Action → Option H3Body
  | .peer event => (s.peer.step event).map fun peer => { s with peer }
  | .watchdog event => s.watchdogStep event
  | .consumer action event =>
      if action.isOutside then none
      else
        match event with
        | some event =>
            if s.owner.asksStream action then
              (s.pollStream event).bind fun (polls, s) => s.consume alloc action polls
            else none
        | none => if s.owner.asksStream action then none else s.consume alloc action []

/-- The body as the adapter hands it to the service. -/
def start (declaredLength : Option Nat) (maxBytes : Nat) (shared : RequestShared) : H3Body where
  peer := ⟨[], [], false⟩
  phase := .resting
  cancel := (Watch.channel false).subscribe ()
  watchdog := .waiting
  owner := .holding (.fromIncomingWithSharedAndWireSlot [] declaredLength maxBytes shared none)
  delivered := []
  errorTold := false
  endTold := none
  probeFailed := false

def machine (alloc : Allocator) : Transition.Machine H3Body H3Action where
  Initial s := ∃ declaredLength maxBytes shared, shared.isBodyActive = true ∧
    s = start declaredLength maxBytes shared
  step := step alloc

/-- Who is told of a successful end has all that the peer sent, and the peer
had ended; the watchdog had not failed the body before, and no trailers were
lost to the transport. -/
def EndHonest (s : H3Body) : Prop :=
  ∀ watchdog, s.endTold = some watchdog →
    s.peer.ended = true ∧ s.delivered = s.peer.sent ∧ watchdog.fired = false ∧
      s.probeFailed = false

/-- A consumer that was told no error meets the end of the stream after the
watchdog has failed the body, or because the probe for trailers failed, and
neither the declared length nor the trailers stand against that end. -/
def MeetsFalseEnd (s : H3Body) : H3Action → Prop
  | .consumer _ (some event) =>
      s.errorTold = false ∧ ∃ after, s.pollStream event = some ([], after) ∧
        (s.watchdog.fired = true ∨ event = .probe .failed) ∧ after.owner.acceptsEnd = true
  | _ => False

/-! The invariant. -/

/-- While nobody was told an error, what was handed out, what a future has
collected and what is in flight make up what the peer sent. The watchdog leaves
a body that may still be read only after it has failed it. -/
structure Kept (s : H3Body) : Prop where
  wellFormed : s.owner.WellFormed
  probing : s.phase = .probing → s.peer.ended = true ∧ s.peer.inFlight = []
  conserved : s.errorTold = false → s.owner.Open →
    s.delivered ++ s.owner.buffer ++ s.peer.inFlight.flatten = s.peer.sent
  watched : s.owner.Open → s.owner.shared.isBodyActive = true ∨ s.watchdog.fired = true
  left : s.watchdog = .gone → ¬s.owner.Open
  signalled : s.cancel.value = true ∨ s.cancel.hasChanged () = true → s.watchdog.fired = true
  failedProbe : s.probeFailed = true → s.errorTold = true
  untold : s.owner.Open → s.endTold = none
  closed : ∀ body, s.owner = .holding body → ¬body.state.Live →
    s.errorTold = true ∨ s.endTold.isSome = true
  honest : s.EndHonest

/-- The octets in the answers of the stream. -/
def octets (polls : List StreamPoll) : List UInt8 :=
  polls.flatMap fun
    | .chunk data => data
    | _ => []

/-- The state in which a consumer meets the answers of the stream. -/
structure Offered (s : H3Body) (polls : List StreamPoll) : Prop where
  wellFormed : s.owner.WellFormed
  probing : s.phase = .probing → s.peer.ended = true ∧ s.peer.inFlight = []
  short : polls.length ≤ 1
  conserved : s.errorTold = false →
    s.delivered ++ s.owner.buffer ++ octets polls ++ s.peer.inFlight.flatten = s.peer.sent
  watched : s.owner.shared.isBodyActive = true ∨ s.watchdog.fired = true
  stays : s.watchdog ≠ .gone
  signalled : s.cancel.value = true ∨ s.cancel.hasChanged () = true → s.watchdog.fired = true
  untold : s.endTold = none
  ended : polls = [] → s.owner.acceptsEnd = true → s.errorTold = false →
    s.peer.ended = true ∧ s.peer.inFlight = [] ∧ s.watchdog.fired = false ∧ s.probeFailed = false
  failedProbe : s.probeFailed = true →
    s.errorTold = true ∨ polls = [] ∧ s.owner.acceptsEnd = false

theorem Kept.start {s : H3Body} {alloc : Allocator} (hInitial : (machine alloc).Initial s) :
    s.Kept := by
  obtain ⟨declaredLength, maxBytes, shared, hActive, rfl⟩ := hInitial
  exact {
    wellFormed := ⟨⟨[], rfl⟩, rfl⟩
    probing := fun h => by cases h
    conserved := fun _ _ => rfl
    watched := fun _ => .inl hActive
    left := fun h => by cases h
    signalled := fun h => by
      rcases h with h | h
      · cases h
      · simp [H3Body.start, Watch.hasChanged, Watch.subscribe] at h
    failedProbe := fun h => by cases h
    untold := fun _ => rfl
    closed := fun body hOwner hClosed => by
      obtain rfl := BodyOwner.holding.inj hOwner
      exact absurd (.inl rfl) hClosed
    honest := fun _ h => by cases h }

section PollStream

variable {s after : H3Body} {polls : List StreamPoll}

/-- A stream that goes on. -/
theorem Kept.goesOn (h : s.Kept) (hOpen : s.owner.Open) (peer : PeerStream) (phase : StreamPhase)
    (hShort : polls.length ≤ 1) (hPolls : polls ≠ [])
    (hProbing : phase = .probing → peer.ended = true ∧ peer.inFlight = [])
    (hSent : peer.sent = s.peer.sent)
    (hFlight : octets polls ++ peer.inFlight.flatten = s.peer.inFlight.flatten) :
    Offered { s with peer, phase } polls where
  wellFormed := h.wellFormed
  probing := hProbing
  short := hShort
  conserved hTold := by
    rw [hSent, List.append_assoc _ (octets polls), hFlight]
    exact h.conserved hTold hOpen
  watched := h.watched hOpen
  stays hGone := h.left hGone hOpen
  signalled := h.signalled
  untold := h.untold hOpen
  ended hNil := absurd hNil hPolls
  failedProbe hFailed := .inl (h.failedProbe hFailed)

/-- A stream that ends. -/
theorem Kept.comesToEnd (h : s.Kept) (hOpen : s.owner.Open) (owner : BodyOwner)
    (probeFailed : Bool) (hWellFormed : owner.WellFormed) (hBuffer : owner.buffer = s.owner.buffer)
    (hShared : owner.shared = s.owner.shared)
    (hEnded : owner.acceptsEnd = true → s.errorTold = false →
      s.peer.ended = true ∧ s.peer.inFlight = [] ∧ s.watchdog.fired = false ∧ probeFailed = false)
    (hFailed : probeFailed = true → s.errorTold = true ∨ owner.acceptsEnd = false) :
    Offered { s with owner, probeFailed }.endStream [] where
  wellFormed := hWellFormed
  probing hPhase := by cases hPhase
  short := Nat.zero_le 1
  conserved hTold := by
    change s.delivered ++ owner.buffer ++ [] ++ s.peer.inFlight.flatten = s.peer.sent
    rw [hBuffer, List.append_nil]
    exact h.conserved hTold hOpen
  watched := by
    change owner.shared.isBodyActive = true ∨ _
    rw [hShared]
    exact h.watched hOpen
  stays hGone := h.left hGone hOpen
  signalled := h.signalled
  untold := h.untold hOpen
  ended _ := hEnded
  failedProbe hProbe := (hFailed hProbe).imp_right fun hRefused => ⟨rfl, hRefused⟩

/-- An end that is met after the watchdog has failed the body. -/
theorem Kept.cutOff (h : s.Kept) (hOpen : s.owner.Open) (hFired : s.watchdog.fired = true)
    (hRefused : s.errorTold = false → s.watchdog.fired = true → s.owner.acceptsEnd ≠ true) :
    Offered s.endStream [] :=
  h.comesToEnd hOpen s.owner s.probeFailed h.wellFormed rfl rfl
    (fun hAccepts hTold => absurd hAccepts (hRefused hTold hFired))
    fun hProbe => .inl (h.failedProbe hProbe)

/-- The end after the probe for trailers. -/
theorem Kept.probed (h : s.Kept) (hOpen : s.owner.Open) (hPhase : s.phase = .probing)
    (answer : TrailerProbe)
    (hGuard : s.errorTold = false → s.watchdog.fired = true ∨ answer = .failed →
      (s.probe answer).owner.acceptsEnd ≠ true) : Offered (s.probe answer) [] := by
  obtain ⟨hPeer, hFlight⟩ := h.probing hPhase
  have hUnfired : (s.probe answer).owner.acceptsEnd = true → s.errorTold = false →
      s.watchdog.fired = false := by
    intro hAccepts hTold
    by_contra hFired
    exact hGuard hTold (.inl (Bool.of_not_eq_false hFired)) hAccepts
  have hUnfailed : s.errorTold = false → s.probeFailed = false := by
    intro hTold
    by_contra hFailed
    rw [h.failedProbe (Bool.of_not_eq_false hFailed)] at hTold
    cases hTold
  cases answer with
  | block map =>
      refine h.comesToEnd hOpen _ s.probeFailed (h.wellFormed.mapSlot _)
        (BodyOwner.buffer_mapSlot _ _) (BodyOwner.shared_mapSlot _ _) ?_ ?_
      · intro hAccepts hTold
        exact ⟨hPeer, hFlight, hUnfired hAccepts hTold, hUnfailed hTold⟩
      · intro hProbe
        exact .inl (h.failedProbe hProbe)
  | failed =>
      refine h.comesToEnd hOpen s.owner true h.wellFormed rfl rfl ?_ ?_
      · intro hAccepts hTold
        exact absurd hAccepts (hGuard hTold (.inr rfl))
      · intro _
        cases hTold : s.errorTold with
        | true => exact .inl rfl
        | false => exact .inr (Bool.eq_false_iff.mpr (hGuard hTold (.inr rfl)))
  | absent =>
      refine h.comesToEnd hOpen s.owner s.probeFailed h.wellFormed rfl rfl ?_ ?_
      · intro hAccepts hTold
        exact ⟨hPeer, hFlight, hUnfired hAccepts hTold, hUnfailed hTold⟩
      · intro hProbe
        exact .inl (h.failedProbe hProbe)
  | timedOut =>
      refine h.comesToEnd hOpen s.owner s.probeFailed h.wellFormed rfl rfl ?_ ?_
      · intro hAccepts hTold
        exact ⟨hPeer, hFlight, hUnfired hAccepts hTold, hUnfailed hTold⟩
      · intro hProbe
        exact .inl (h.failedProbe hProbe)

/-- The stream answers. The signal and a dropped sender are met by an open body
only after the watchdog has failed it. -/
theorem Kept.pollStream {event : StreamEvent} (h : s.Kept) (hOpen : s.owner.Open)
    (hGuard : s.errorTold = false → ∀ after, s.pollStream event = some ([], after) →
      s.watchdog.fired = true ∨ event = .probe .failed → after.owner.acceptsEnd ≠ true)
    (hPoll : s.pollStream event = some (polls, after)) : Offered after polls := by
  have hSteady : octets [.pending] ++ s.peer.inFlight.flatten = s.peer.inFlight.flatten := rfl
  cases event with
  | enter =>
      simp only [H3Body.pollStream, Option.ite_none_right_eq_some] at hPoll
      obtain ⟨hPhase, hPoll⟩ := hPoll
      split at hPoll
      · rename_i hSignal
        obtain ⟨rfl, rfl⟩ := Prod.mk.inj (Option.some.inj hPoll)
        refine h.cutOff hOpen (h.signalled (.inl hSignal)) fun hTold hFired => ?_
        refine hGuard hTold s.endStream ?_ (.inl hFired)
        simp only [H3Body.pollStream, if_pos hPhase, if_pos hSignal]
      · obtain ⟨rfl, rfl⟩ := Prod.mk.inj (Option.some.inj hPoll)
        exact h.goesOn hOpen s.peer .selecting (Nat.le_refl 1) (by simp)
          (fun hPhase => by cases hPhase) rfl hSteady
  | wait =>
      obtain ⟨-, hPoll⟩ := enabled_iff.mp hPoll
      obtain ⟨rfl, rfl⟩ := Prod.mk.inj hPoll
      exact h.goesOn hOpen s.peer s.phase (Nat.le_refl 1) (by simp) h.probing rfl hSteady
  | cancelChanged =>
      have hEnabled := hPoll
      obtain ⟨⟨-, hChanged⟩, hEnd⟩ := enabled_iff.mp hPoll
      obtain ⟨rfl, rfl⟩ := Prod.mk.inj hEnd
      have hFired : s.watchdog.fired = true := by
        rcases hChanged with hChanged | hDropped
        · exact h.signalled (.inr hChanged)
        · cases hWatchdog : s.watchdog with
          | signalled => rfl
          | gone => exact absurd hOpen (h.left hWatchdog)
          | waiting => rw [hWatchdog] at hDropped; cases hDropped
          | marked => rw [hWatchdog] at hDropped; cases hDropped
      exact h.cutOff hOpen hFired fun hTold _ => hGuard hTold s.endStream hEnabled (.inl hFired)
  | recvData answer =>
      simp only [H3Body.pollStream, Option.ite_none_right_eq_some] at hPoll
      obtain ⟨-, hPoll⟩ := hPoll
      cases answer with
      | data =>
          simp only [H3Body.recvData] at hPoll
          split at hPoll
          · cases hPoll
          · rename_i chunk rest hFlight
            obtain ⟨rfl, rfl⟩ := Prod.mk.inj (Option.some.inj hPoll)
            refine h.goesOn hOpen _ .resting (Nat.le_refl 1) (by simp)
              (fun hPhase => by cases hPhase) rfl ?_
            simp [octets, hFlight]
      | finished =>
          obtain ⟨hPeer, hPoll⟩ := enabled_iff.mp hPoll
          obtain ⟨rfl, rfl⟩ := Prod.mk.inj hPoll
          exact h.goesOn hOpen s.peer .probing (Nat.le_refl 1) (by simp) (fun _ => hPeer) rfl
            hSteady
      | failed message =>
          obtain ⟨rfl, rfl⟩ := Prod.mk.inj (Option.some.inj hPoll)
          exact h.goesOn hOpen s.peer .resting (Nat.le_refl 1) (by simp)
            (fun hPhase => by cases hPhase) rfl rfl
  | probe answer =>
      have hEnabled := hPoll
      obtain ⟨hPhase, hEnd⟩ := enabled_iff.mp hPoll
      obtain ⟨rfl, rfl⟩ := Prod.mk.inj hEnd
      refine h.probed hOpen hPhase answer fun hTold hFalse => hGuard hTold _ hEnabled ?_
      exact hFalse.imp_right (congrArg StreamEvent.probe)

end PollStream

section Consume

variable {alloc : Allocator} {s after : H3Body} {polls : List StreamPoll} {action : OwnerAction}

/-- The consumer goes on reading. -/
theorem Offered.readsOn (h : Offered s polls) (hPolls : polls ≠ []) {next : BodyOwner}
    {delivered : List UInt8} (hWellFormed : next.WellFormed) (hOpen : next.Open)
    (hShared : next.shared = s.owner.shared)
    (hConserved : s.errorTold = false →
      delivered ++ next.buffer ++ s.peer.inFlight.flatten = s.peer.sent) :
    Kept { s with owner := next, delivered } where
  wellFormed := hWellFormed
  probing := h.probing
  conserved hTold _ := hConserved hTold
  watched _ := by
    change next.shared.isBodyActive = true ∨ _
    rw [hShared]
    exact h.watched
  left hGone := absurd hGone h.stays
  signalled := h.signalled
  failedProbe hFailed := (h.failedProbe hFailed).resolve_right fun hEnd => hPolls hEnd.1
  untold _ := h.untold
  closed body hOwner hClosed := by
    obtain rfl : next = .holding body := hOwner
    exact absurd hOpen hClosed
  honest watchdog hTold := by
    have hNone : s.endTold = some watchdog := hTold
    rw [h.untold] at hNone
    cases hNone

/-- The consumer is told an error. -/
theorem Offered.failsOn (h : Offered s polls) {next : BodyOwner} (hWellFormed : next.WellFormed)
    (hShared : next.Open → next.shared = s.owner.shared) :
    Kept { s with owner := next, errorTold := true } where
  wellFormed := hWellFormed
  probing := h.probing
  conserved hTold := by cases hTold
  watched hOpen := by
    change next.shared.isBodyActive = true ∨ _
    rw [hShared hOpen]
    exact h.watched
  left hGone := absurd hGone h.stays
  signalled := h.signalled
  failedProbe _ := rfl
  untold _ := h.untold
  closed _ _ _ := .inl rfl
  honest watchdog hTold := by
    have hNone : s.endTold = some watchdog := hTold
    rw [h.untold] at hNone
    cases hNone

/-- The consumer is told the end. -/
theorem Offered.endsOn (h : Offered s []) {next : BodyOwner} (hWellFormed : next.WellFormed)
    (hAccepts : s.owner.acceptsEnd = true) (hClosed : ¬next.Open) :
    Kept ({ s with owner := next }.hear (.ended s.owner.buffer)) := by
  have hNone := h.untold
  by_cases hTold : s.errorTold = true
  · rw [hear, if_pos (.inl hTold)]
    exact {
      wellFormed := hWellFormed
      probing := h.probing
      conserved := fun _ hOpen => absurd hOpen hClosed
      watched := fun hOpen => absurd hOpen hClosed
      left := fun _ => hClosed
      signalled := h.signalled
      failedProbe := fun _ => hTold
      untold := fun hOpen => absurd hOpen hClosed
      closed := fun _ _ _ => .inl hTold
      honest := fun watchdog hEnd => by cases hNone.symm.trans hEnd }
  · have hFirst : ¬(s.errorTold = true ∨ s.endTold.isSome = true) := by
      rw [hNone]
      simpa using hTold
    have hUntold : s.errorTold = false := Bool.eq_false_iff.mpr hTold
    obtain ⟨hPeer, hFlight, hFired, hProbe⟩ := h.ended rfl hAccepts hUntold
    have hAll : s.delivered ++ s.owner.buffer = s.peer.sent := by
      have hSent := h.conserved hUntold
      rw [hFlight] at hSent
      simpa [octets] using hSent
    rw [hear, if_neg hFirst]
    exact {
      wellFormed := hWellFormed
      probing := h.probing
      conserved := fun _ hOpen => absurd hOpen hClosed
      watched := fun hOpen => absurd hOpen hClosed
      left := fun _ => hClosed
      signalled := h.signalled
      failedProbe := fun hFailed => by cases hProbe.symm.trans hFailed
      untold := fun hOpen => absurd hOpen hClosed
      closed := fun _ _ _ => .inr rfl
      honest := fun watchdog hEnd => by
        obtain rfl := Option.some.inj hEnd
        exact ⟨hPeer, hAll, hFired, hProbe⟩ }

/-- A poll of the stream keeps the invariant. -/
theorem Offered.consume (h : Offered s polls) (hAsks : s.owner.asksStream action = true)
    (hStep : s.consume alloc action polls = some after) : after.Kept := by
  obtain ⟨next, hNext, rfl⟩ := Option.map_eq_some_iff.mp hStep
  have hOffered : (s.owner.offer polls).asksStream action = true := by
    rw [BodyOwner.asksStream_offer]
    exact hAsks
  obtain ⟨hHears, hWellFormed⟩ := BodyOwner.hears_step h.wellFormed h.short hOffered hNext
  have hBuffer := s.owner.buffer_offer polls
  have hShared := s.owner.shared_offer polls
  generalize (s.owner.offer polls).told action next = answer at hHears ⊢
  cases hHears with
  | waits _ hPolls hOpen hSame hLife =>
      subst hPolls
      refine h.readsOn (by simp) hWellFormed hOpen (hLife.trans hShared) fun hTold => ?_
      rw [hSame, hBuffer]
      simpa [octets] using h.conserved hTold
  | hands data _ hPolls hOpen hEmpty hSame hLife =>
      subst hPolls
      refine h.readsOn (by simp) hWellFormed hOpen (hLife.trans hShared) fun hTold => ?_
      have hSent := h.conserved hTold
      rw [← hBuffer, hEmpty] at hSent
      rw [hSame]
      simpa [octets] using hSent
  | collects data _ hPolls hOpen hSame hLife =>
      subst hPolls
      refine h.readsOn (by simp) hWellFormed hOpen (hLife.trans hShared) fun hTold => ?_
      rw [hSame, hBuffer]
      simpa [octets] using h.conserved hTold
  | fails _ hLife _ =>
      exact h.failsOn hWellFormed fun hOpen => (hLife hOpen).trans hShared
  | ends _ hPolls hAccepts hClosed =>
      subst hPolls
      rw [hBuffer]
      rw [BodyOwner.acceptsEnd_offer] at hAccepts
      exact h.endsOn hWellFormed hAccepts hClosed

/-- The owner changes without being told anything. -/
theorem Kept.moves (h : s.Kept) {next : BodyOwner} (hWellFormed : next.WellFormed)
    (hOpen : next.Open → s.owner.Open) (hBuffer : next.Open → next.buffer = s.owner.buffer)
    (hShared : next.Open → next.shared = s.owner.shared)
    (hState : ∀ body, next = .holding body →
      ∃ before, s.owner = .holding before ∧ before.state = body.state) :
    Kept { s with owner := next } where
  wellFormed := hWellFormed
  probing := h.probing
  conserved hTold hNext := by
    change s.delivered ++ next.buffer ++ _ = _
    rw [hBuffer hNext]
    exact h.conserved hTold (hOpen hNext)
  watched hNext := by
    change next.shared.isBodyActive = true ∨ _
    rw [hShared hNext]
    exact h.watched (hOpen hNext)
  left hGone hNext := h.left hGone (hOpen hNext)
  signalled := h.signalled
  failedProbe := h.failedProbe
  untold hNext := h.untold (hOpen hNext)
  closed body hOwner hClosed := by
    obtain ⟨before, hBefore, hSame⟩ := hState body hOwner
    exact h.closed before hBefore (by rwa [hSame])
  honest := h.honest

/-- The consumer is told an error without a poll of the stream. -/
theorem Kept.refuses (h : s.Kept) {next : BodyOwner} (hWellFormed : next.WellFormed)
    (hClosed : ¬next.Open) : Kept { s with owner := next, errorTold := true } where
  wellFormed := hWellFormed
  probing := h.probing
  conserved hTold := by cases hTold
  watched hOpen := absurd hOpen hClosed
  left _ := hClosed
  signalled := h.signalled
  failedProbe _ := rfl
  untold hOpen := absurd hOpen hClosed
  closed _ _ _ := .inl rfl
  honest := h.honest

/-- A call that does not poll the stream keeps the invariant. -/
theorem Kept.consume (h : s.Kept) (hOutside : action.isOutside = false)
    (hAsks : s.owner.asksStream action = false)
    (hStep : s.consume alloc action [] = some after) : after.Kept := by
  obtain ⟨next, hNext, rfl⟩ := Option.map_eq_some_iff.mp hStep
  have hOffered : (s.owner.offer []).asksStream action = false := by
    rw [BodyOwner.asksStream_offer]
    exact hAsks
  obtain ⟨hRests, hWellFormed⟩ := BodyOwner.rests_step h.wellFormed hOutside hOffered hNext
  have hHolding : ∀ body, s.owner.offer [] = .holding body →
      ∃ before, s.owner = .holding before ∧ before.state = body.state := by
    intro body hOwner
    cases hBefore : s.owner with
    | holding before =>
        rw [hBefore] at hOwner
        obtain rfl := BodyOwner.holding.inj hOwner
        exact ⟨before, rfl, rfl⟩
    | _ =>
        rw [hBefore] at hOwner
        cases hOwner
  have hBuffer := s.owner.buffer_offer []
  have hShared := s.owner.shared_offer []
  have hOpen := s.owner.open_offer []
  generalize (s.owner.offer []).told action next = answer at hRests ⊢
  cases hRests with
  | quiet _ hNextOpen hNextBuffer hNextShared hNextState =>
      refine h.moves hWellFormed (fun hOn => hOpen.mp (hNextOpen hOn))
        (fun hOn => (hNextBuffer hOn).trans hBuffer) (fun hOn => (hNextShared hOn).trans hShared) ?_
      intro body hOwner
      obtain ⟨middle, hMiddle, hSame⟩ := hNextState body hOwner
      obtain ⟨before, hBefore, hState⟩ := hHolding middle hMiddle
      exact ⟨before, hBefore, hState.trans hSame⟩
  | fails _ hClosed => exact h.refuses hWellFormed hClosed
  | endsAgain body hOwner hClosed =>
      obtain ⟨before, hBefore, hState⟩ := hHolding body hOwner
      have hTold := h.closed before hBefore (by rwa [hState])
      rw [hear, if_pos hTold]
      exact h.moves hWellFormed hOpen.mp (fun _ => hBuffer) (fun _ => hShared) hHolding

end Consume

/-! One step, and every run. -/

theorem Kept.peerStep {s : H3Body} {event : PeerEvent} {peer : PeerStream} (h : s.Kept)
    (hStep : s.peer.step event = some peer) : Kept { s with peer } := by
  simp only [PeerStream.step, Option.ite_none_left_eq_some] at hStep
  obtain ⟨hRunning, hStep⟩ := hStep
  have hIdle : s.phase ≠ .probing := fun hPhase => hRunning (h.probing hPhase).1
  have hUntold : s.endTold = none := by
    by_contra hTold
    obtain ⟨watchdog, hEnd⟩ := Option.ne_none_iff_exists'.mp hTold
    exact hRunning (h.honest watchdog hEnd).1
  refine { h with
    probing := fun hPhase => absurd hPhase hIdle
    conserved := fun hTold hOpen => ?_
    honest := fun watchdog hEnd => by cases hUntold.symm.trans hEnd }
  have hSent := h.conserved hTold hOpen
  cases event with
  | data chunk =>
      obtain rfl := Option.some.inj hStep
      change s.delivered ++ s.owner.buffer ++ (s.peer.inFlight ++ [chunk]).flatten =
        s.peer.sent ++ chunk
      rw [← hSent]
      simp
  | finish =>
      obtain rfl := Option.some.inj hStep
      exact hSent

/-- A watchdog that leaves without failing the body leaves one that is not
read any more. -/
theorem Kept.leaves {s : H3Body} (h : s.Kept) (hWaiting : s.watchdog = .waiting)
    (hTerminal : s.owner.shared.isBodyActive = false) : Kept { s with watchdog := .gone } := by
  have hUnfired : s.watchdog.fired = false := by rw [hWaiting]; rfl
  have hClosed : ¬s.owner.Open := by
    intro hOpen
    rcases h.watched hOpen with hActive | hFired
    · cases hTerminal.symm.trans hActive
    · cases hUnfired.symm.trans hFired
  exact { h with
    watched := fun hOpen => absurd hOpen hClosed
    left := fun _ => hClosed
    signalled := fun hSignal => by cases hUnfired.symm.trans (h.signalled hSignal) }

theorem Kept.watchdogStep {s after : H3Body} {event : WatchdogEvent} (h : s.Kept)
    (hStep : s.watchdogStep event = some after) : after.Kept := by
  cases event with
  | bodyTerminal =>
      obtain ⟨⟨hWaiting, hTerminal⟩, rfl⟩ := enabled_iff.mp hStep
      exact h.leaves hWaiting (RequestShared.isBodyTerminal_iff.mp hTerminal)
  | deadline =>
      simp only [H3Body.watchdogStep, Option.ite_none_right_eq_some] at hStep
      obtain ⟨hWaiting, hStep⟩ := hStep
      split at hStep
      · obtain ⟨next, hUse, rfl⟩ := Option.map_eq_some_iff.mp hStep
        obtain ⟨hWellFormed, hOpen, hBuffer, hState⟩ :=
          BodyOwner.use_markFailed h.wellFormed hUse
        exact { h with
          wellFormed := hWellFormed
          conserved := fun hTold hNext => by
            change s.delivered ++ next.buffer ++ _ = _
            rw [hBuffer]
            exact h.conserved hTold (hOpen hNext)
          watched := fun _ => .inr rfl
          left := fun hGone => by cases hGone
          signalled := fun _ => rfl
          untold := fun hNext => h.untold (hOpen hNext)
          closed := fun body hOwner hClosed => by
            obtain ⟨before, hBefore, hSame⟩ := hState body hOwner
            exact h.closed before hBefore (by rwa [hSame]) }
      · rename_i hTerminal
        obtain rfl := Option.some.inj hStep
        exact h.leaves hWaiting (Bool.eq_false_iff.mpr hTerminal)
  | signal =>
      obtain ⟨-, rfl⟩ := enabled_iff.mp hStep
      exact { h with
        watched := fun _ => .inr rfl
        left := fun hGone => by cases hGone
        signalled := fun _ => rfl }

/-- What the stream leaves alone: the watchdog, what was told so far, and the
owner but for its trailer slot. -/
theorem pollStream_frame {s after : H3Body} {event : StreamEvent} {polls : List StreamPoll}
    (hPoll : s.pollStream event = some (polls, after)) :
    (after.owner = s.owner ∨ ∃ f, after.owner = s.owner.mapSlot f) ∧
      after.watchdog = s.watchdog ∧ after.errorTold = s.errorTold ∧ after.endTold = s.endTold ∧
      (event = .probe .failed → after.probeFailed = true) := by
  cases event with
  | enter =>
      simp only [pollStream, Option.ite_none_right_eq_some] at hPoll
      obtain ⟨-, hPoll⟩ := hPoll
      split at hPoll
      · obtain ⟨-, rfl⟩ := Prod.mk.inj (Option.some.inj hPoll)
        exact ⟨.inl rfl, rfl, rfl, rfl, fun h => by cases h⟩
      · obtain ⟨-, rfl⟩ := Prod.mk.inj (Option.some.inj hPoll)
        exact ⟨.inl rfl, rfl, rfl, rfl, fun h => by cases h⟩
  | wait =>
      obtain ⟨-, hEq⟩ := enabled_iff.mp hPoll
      obtain ⟨-, rfl⟩ := Prod.mk.inj hEq
      exact ⟨.inl rfl, rfl, rfl, rfl, fun h => by cases h⟩
  | cancelChanged =>
      obtain ⟨-, hEq⟩ := enabled_iff.mp hPoll
      obtain ⟨-, rfl⟩ := Prod.mk.inj hEq
      exact ⟨.inl rfl, rfl, rfl, rfl, fun h => by cases h⟩
  | recvData answer =>
      simp only [pollStream, Option.ite_none_right_eq_some] at hPoll
      obtain ⟨-, hPoll⟩ := hPoll
      cases answer with
      | data =>
          simp only [recvData] at hPoll
          split at hPoll
          · cases hPoll
          · obtain ⟨-, rfl⟩ := Prod.mk.inj (Option.some.inj hPoll)
            exact ⟨.inl rfl, rfl, rfl, rfl, fun h => by cases h⟩
      | finished =>
          obtain ⟨-, hEq⟩ := enabled_iff.mp hPoll
          obtain ⟨-, rfl⟩ := Prod.mk.inj hEq
          exact ⟨.inl rfl, rfl, rfl, rfl, fun h => by cases h⟩
      | failed message =>
          obtain ⟨-, rfl⟩ := Prod.mk.inj (Option.some.inj hPoll)
          exact ⟨.inl rfl, rfl, rfl, rfl, fun h => by cases h⟩
  | probe answer =>
      obtain ⟨-, hEq⟩ := enabled_iff.mp hPoll
      obtain ⟨-, rfl⟩ := Prod.mk.inj hEq
      cases answer with
      | block map => exact ⟨.inr ⟨_, rfl⟩, rfl, rfl, rfl, fun h => by cases h⟩
      | absent => exact ⟨.inl rfl, rfl, rfl, rfl, fun h => by cases h⟩
      | failed => exact ⟨.inl rfl, rfl, rfl, rfl, fun _ => rfl⟩
      | timedOut => exact ⟨.inl rfl, rfl, rfl, rfl, fun h => by cases h⟩

/-- The consumer goes on as it was about to. -/
theorem owner_pollStream {s after : H3Body} {event : StreamEvent} {polls : List StreamPoll}
    (hPoll : s.pollStream event = some (polls, after)) (hWellFormed : s.owner.WellFormed)
    {action : OwnerAction} (hAsks : s.owner.asksStream action = true) :
    after.owner.WellFormed ∧ after.owner.asksStream action = true := by
  rcases (pollStream_frame hPoll).1 with hOwner | ⟨f, hOwner⟩
  · rw [hOwner]
    exact ⟨hWellFormed, hAsks⟩
  · rw [hOwner, BodyOwner.asksStream_mapSlot]
    exact ⟨hWellFormed.mapSlot f, hAsks⟩

/-- Every step that does not meet a false end keeps the invariant. -/
theorem Kept.step {alloc : Allocator} {s after : H3Body} {action : H3Action} (h : s.Kept)
    (hGuard : ¬s.MeetsFalseEnd action) (hStep : (machine alloc).step s action = some after) :
    after.Kept := by
  cases action with
  | peer event =>
      obtain ⟨peer, hPeer, rfl⟩ := Option.map_eq_some_iff.mp hStep
      exact h.peerStep hPeer
  | watchdog event => exact h.watchdogStep hStep
  | consumer action event =>
      simp only [machine, H3Body.step, Option.ite_none_left_eq_some, Bool.not_eq_true] at hStep
      obtain ⟨hOutside, hStep⟩ := hStep
      cases event with
      | none =>
          simp only [Option.ite_none_left_eq_some, Bool.not_eq_true] at hStep
          exact h.consume hOutside hStep.1 hStep.2
      | some event =>
          simp only [Option.ite_none_right_eq_some, Option.bind_eq_some_iff] at hStep
          obtain ⟨hAsks, ⟨polls, middle⟩, hPoll, hConsume⟩ := hStep
          have hOffered : Offered middle polls := by
            refine h.pollStream (BodyOwner.open_of_asksStream hAsks) ?_ hPoll
            intro hTold found hFound hFalse hAccepts
            exact hGuard ⟨hTold, found, hFound, hFalse, hAccepts⟩
          exact hOffered.consume (owner_pollStream hPoll h.wellFormed hAsks).2 hConsume


theorem Kept.of_reachable {alloc : Allocator} {s : H3Body}
    (hReach : (machine alloc).ReachableUnder (fun s action => ¬s.MeetsFalseEnd action) s) :
    s.Kept :=
  hReach.invariant (fun _ hInitial => .start hInitial) fun _ _ _ h hGuard hStep =>
    h.step hGuard hStep

/-- A step that meets a false end tells it. -/
theorem Kept.tells {alloc : Allocator} {s after : H3Body} {action : H3Action} (h : s.Kept)
    (hMeets : s.MeetsFalseEnd action) (hStep : (machine alloc).step s action = some after) :
    ¬after.EndHonest := by
  unfold MeetsFalseEnd at hMeets
  split at hMeets
  · rename_i call event
    obtain ⟨hTold, middle, hPoll, hFalse, hAccepts⟩ := hMeets
    simp only [machine, H3Body.step, Option.ite_none_left_eq_some, Option.ite_none_right_eq_some,
      hPoll, Option.bind_some] at hStep
    obtain ⟨-, hAsks, hConsume⟩ := hStep
    obtain ⟨next, hNext, rfl⟩ := Option.map_eq_some_iff.mp hConsume
    obtain ⟨-, hWatchdog, hSameTold, hSameEnd, hProbe⟩ := pollStream_frame hPoll
    obtain ⟨hWellFormed, hStill⟩ := owner_pollStream hPoll h.wellFormed hAsks
    rw [← BodyOwner.asksStream_offer middle.owner []] at hStill
    have hShort : ([] : List StreamPoll).length ≤ 1 := Nat.zero_le 1
    obtain ⟨hHears, -⟩ := BodyOwner.hears_step hWellFormed hShort hStill hNext
    rw [← BodyOwner.acceptsEnd_offer middle.owner []] at hAccepts
    have hFirst : ¬(middle.errorTold = true ∨ middle.endTold.isSome = true) := by
      rw [hSameTold, hSameEnd, hTold, h.untold (BodyOwner.open_of_asksStream hAsks)]
      simp
    generalize (middle.owner.offer []).told call next = answer at hHears ⊢
    cases hHears with
    | waits _ hPolls => cases hPolls
    | hands _ _ hPolls => cases hPolls
    | collects _ _ hPolls => cases hPolls
    | fails _ _ hRefused => cases (hRefused rfl).symm.trans hAccepts
    | ends _ _ _ _ =>
        rw [hear, if_neg hFirst]
        intro hHonest
        obtain ⟨-, -, hUnfired, hUnfailed⟩ := hHonest middle.watchdog rfl
        rcases hFalse with hFired | hEvent
        · rw [hWatchdog, hFired] at hUnfired
          cases hUnfired
        · cases (hProbe hEvent).symm.trans hUnfailed
  · exact hMeets.elim

theorem not_meetsFalseEnd {s : H3Body} {action : H3Action} (hFired : s.watchdog.fired = false)
    (hProbe : ∀ call, action ≠ .consumer call (some (.probe .failed))) :
    ¬s.MeetsFalseEnd action := by
  intro hMeets
  unfold MeetsFalseEnd at hMeets
  split at hMeets
  · rename_i call event
    obtain ⟨-, _, -, hFalse | rfl, -⟩ := hMeets
    · cases hFired.symm.trans hFalse
    · exact hProbe call rfl
  · exact hMeets

end H3Body

/-- In every run in which no consumer meets a false end, whoever is told of a
successful end has the whole body. The first false end is told as a success. -/
theorem told_end_is_whole_body (alloc : Allocator) (s : H3Body)
    (hReach : (H3Body.machine alloc).ReachableUnder
      (fun s action => ¬s.MeetsFalseEnd action) s) :
    s.EndHonest ∧ ∀ action after, s.MeetsFalseEnd action →
      (H3Body.machine alloc).step s action = some after → ¬after.EndHonest := by
  have hKept := H3Body.Kept.of_reachable hReach
  refine ⟨hKept.honest, ?_⟩
  intro action after hMeets hStep
  exact hKept.tells hMeets hStep

/-- The body of a request without a declared length. -/
def unsizedBody : H3Body := .start none 10 {}

/-- The stream is polled by a consumer that awaits the next chunk. -/
def awaitChunk (event : StreamEvent) : H3Action := .consumer (.use .nextChunk) (some event)

theorem reachable_unsizedBody (guard : H3Body → H3Action → Prop) :
    (H3Body.machine unboundedAllocator).ReachableUnder guard unsizedBody :=
  .start ⟨none, 10, {}, rfl, rfl⟩

/-- A chunk, the end of the DATA and no trailers. -/
theorem told_end_is_whole_body_chunk :
    ∃ s, (H3Body.machine unboundedAllocator).ReachableUnder
        (fun s action => ¬s.MeetsFalseEnd action) s ∧
      s.endTold = some .waiting ∧ s.delivered = [1, 2] ∧ s.EndHonest := by
  have hStart := reachable_unsizedBody fun s action => ¬s.MeetsFalseEnd action
  have hSent := hStart.step (a := .peer (.data [1, 2])) id rfl
  have hEntered := hSent.step (a := awaitChunk .enter) (H3Body.not_meetsFalseEnd rfl nofun) rfl
  have hChunk := hEntered.step (a := awaitChunk (.recvData .data))
    (H3Body.not_meetsFalseEnd rfl nofun) rfl
  have hFinished := hChunk.step (a := .peer .finish) id rfl
  have hAgain := hFinished.step (a := awaitChunk .enter) (H3Body.not_meetsFalseEnd rfl nofun) rfl
  have hProbing := hAgain.step (a := awaitChunk (.recvData .finished))
    (H3Body.not_meetsFalseEnd rfl nofun) rfl
  have hEnded := hProbing.step (a := awaitChunk (.probe .absent))
    (H3Body.not_meetsFalseEnd rfl nofun) rfl
  exact ⟨_, hEnded, rfl, rfl, (told_end_is_whole_body _ _ hEnded).1⟩

/-- The watchdog cuts a body short, and the consumer is told that it is
complete. The same happens when the trailers are lost to the transport. -/
theorem cut_body_told_complete :
    (∃ s, (H3Body.machine unboundedAllocator).Reachable s ∧ s.endTold = some .signalled ∧
      s.peer.ended = false ∧ s.delivered = [1, 2] ∧ s.peer.sent = [1, 2, 3] ∧ ¬s.EndHonest) ∧
    ∃ s, (H3Body.machine unboundedAllocator).Reachable s ∧ s.endTold = some .waiting ∧
      s.probeFailed = true ∧ ¬s.EndHonest := by
  have hStart : (H3Body.machine unboundedAllocator).Reachable unsizedBody :=
    reachable_unsizedBody fun _ _ => True
  constructor
  · have hChunk := ((hStart.step (a := .peer (.data [1, 2])) trivial rfl).step
      (a := awaitChunk .enter) trivial rfl).step (a := awaitChunk (.recvData .data)) trivial rfl
    have hFired := ((hChunk.step (a := .peer (.data [3])) trivial rfl).step
      (a := .watchdog .deadline) trivial rfl).step (a := .watchdog .signal) trivial rfl
    have hEnded := hFired.step (a := awaitChunk .enter) trivial rfl
    refine ⟨_, hEnded, rfl, rfl, rfl, rfl, fun hHonest => ?_⟩
    exact absurd (hHonest .signalled rfl).1 (by decide)
  · have hProbing := ((hStart.step (a := .peer .finish) trivial rfl).step
      (a := awaitChunk .enter) trivial rfl).step (a := awaitChunk (.recvData .finished)) trivial rfl
    have hEnded := hProbing.step (a := awaitChunk (.probe .failed)) trivial rfl
    refine ⟨_, hEnded, rfl, rfl, fun hHonest => ?_⟩
    exact absurd (hHonest .waiting rfl).2.2.2 (by decide)

end Eggserve.H3
