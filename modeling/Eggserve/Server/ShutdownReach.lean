import Eggserve.Server.AcceptLoop

/-! Whom the shutdown message reaches. -/
namespace Eggserve.Server
open Transition

variable {γ : Type}

/-- Whoever is still running has consumed no shutdown message, and has one before it
as soon as one was sent. -/
structure ShutdownReaches (s : Runtime γ) : Prop where
  leaves : 0 < s.shutdownRx.next → s.loop.inLoop = false
  loopObserves : s.channel.sent ≠ [] → s.loop.inLoop = true →
    s.channel.receivable s.shutdownRx = true
  connectionObserves : s.channel.sent ≠ [] → ∀ connection rx,
    s.connection connection = .live rx → s.channel.receivable rx = true

/-- The two steps that lose the message: the wait after an error that is not fatal
consumes it, or a connection gets its receiver after it was sent. -/
def losesShutdown (s : Runtime γ) : RuntimeAction γ → Bool
  | .backoffRecv => s.loop = .backingOff false
  | .spawn _ => !s.channel.sent.isEmpty
  | _ => false

/-- Every receiver in use stands before the first message. -/
structure BeforeMessage (s : Runtime γ) : Prop where
  loop : s.loop.inLoop = true → s.shutdownRx.next = 0
  connection : ∀ connection rx, s.connection connection = .live rx → rx.next = 0

theorem BeforeMessage.reaches {s : Runtime γ} (hBefore : BeforeMessage s) : ShutdownReaches s where
  leaves hConsumed := by
    by_contra hIn
    have hNext := hBefore.loop (by simpa using hIn)
    omega
  loopObserves hSent hIn := by
    rw [Broadcast.receivable_iff, hBefore.loop hIn]
    exact List.length_pos_of_ne_nil hSent
  connectionObserves hSent connection rx hLive := by
    rw [Broadcast.receivable_iff, hBefore.connection connection rx hLive]
    exact List.length_pos_of_ne_nil hSent

theorem beforeMessage_initial {s : Runtime γ} (hInitial : s.Initial) : BeforeMessage s := by
  obtain ⟨-, -, -, -, hRx, -, -, hConnection⟩ := hInitial
  exact ⟨fun _ => by rw [hRx], by simp [hConnection]⟩

section Steps

variable {s s' : Runtime γ}

/-- Out of the loop the receiver no longer matters. -/
theorem BeforeMessage.leave (hBefore : BeforeMessage s) (rx : Receiver) :
    BeforeMessage { s with shutdownRx := rx }.leave where
  loop hIn := by cases hIn
  connection := hBefore.connection

/-- A step within the loop that touches neither receiver nor connection. -/
theorem BeforeMessage.mono (hBefore : BeforeMessage s) (hRx : s'.shutdownRx = s.shutdownRx)
    (hLoop : s'.loop.inLoop = true → s.loop.inLoop = true)
    (hConnection : ∀ connection rx, s'.connection connection = .live rx →
      s.connection connection = .live rx) : BeforeMessage s' where
  loop hIn := hRx ▸ hBefore.loop (hLoop hIn)
  connection c rx hLive := hBefore.connection c rx (hConnection c rx hLive)

theorem BeforeMessage.afterError (hBefore : BeforeMessage s) (hIn : s.loop.inLoop = true)
    (fatal : Bool) : BeforeMessage (s.afterError fatal) := by
  cases fatal with
  | true => exact hBefore.leave s.shutdownRx
  | false => exact hBefore.mono rfl (fun _ => hIn) fun _ _ hLive => hLive

variable [DecidableEq γ]

/-- Connections only end. -/
theorem BeforeMessage.setConnection (hBefore : BeforeMessage s) (connection : γ)
    {pc : ConnectionPc} (hPc : ∀ rx, pc ≠ .live rx) :
    BeforeMessage (s.setConnection connection pc) := by
  refine hBefore.mono rfl id fun c rx hLive => ?_
  by_cases hSame : c = connection
  · subst hSame
    simp only [Runtime.setConnection, Function.update_self] at hLive
    exact absurd hLive (hPc rx)
  · simpa [Runtime.setConnection, Function.update_apply, hSame] using hLive

theorem BeforeMessage.step {action : RuntimeAction γ} (hBefore : BeforeMessage s)
    (hKeeps : losesShutdown s action = false) (hStep : s.step action = some s') :
    BeforeMessage s' := by
  cases action with
  | drain =>
      obtain ⟨-, rfl⟩ := enabled_iff.mp hStep
      exact hBefore.mono rfl id fun _ _ hLive => hLive
  | send =>
      obtain ⟨-, rfl⟩ := enabled_iff.mp hStep
      exact hBefore.mono rfl id fun _ _ hLive => hLive
  | markRunning =>
      obtain ⟨hPc, hStep⟩ := Option.ite_none_right_eq_some.mp hStep
      have hIn : s.loop.inLoop = true := by rw [hPc]; rfl
      split at hStep <;> obtain rfl := Option.some.inj hStep <;>
        exact hBefore.mono rfl (fun _ => hIn) fun _ _ hLive => hLive
  | accept =>
      obtain ⟨hPc, rfl⟩ := enabled_iff.mp hStep
      exact hBefore.mono rfl (fun _ => by rw [hPc]; rfl) fun _ _ hLive => hLive
  | acceptError e =>
      obtain ⟨hPc, rfl⟩ := enabled_iff.mp hStep
      have hIn : s.loop.inLoop = true := by rw [hPc]; rfl
      unfold Runtime.handleError
      have hNoted : BeforeMessage { s with log := (s.log.note e).2 } :=
        hBefore.mono rfl id fun _ _ hLive => hLive
      simp only
      split
      · exact hNoted.mono rfl (fun _ => hIn) fun _ _ hLive => hLive
      · exact hNoted.afterError hIn _
  | tryAcquire =>
      obtain ⟨hPc, hStep⟩ := Option.ite_none_right_eq_some.mp hStep
      have hIn : s.loop.inLoop = true := by rw [hPc]; rfl
      split at hStep <;> obtain rfl := Option.some.inj hStep <;>
        exact hBefore.mono rfl (fun _ => hIn) fun _ _ hLive => hLive
  | spawn connection =>
      obtain ⟨⟨hPc, -⟩, rfl⟩ := enabled_iff.mp hStep
      have hUnsent : s.channel.sent = [] := by simpa [losesShutdown] using hKeeps
      constructor
      · intro _
        exact hBefore.loop (by rw [hPc]; rfl)
      · intro c rx hLive
        by_cases hSame : c = connection
        · subst hSame
          simp only [Runtime.setConnection, Function.update_self, ConnectionPc.live.injEq] at hLive
          rw [← hLive, Broadcast.subscribe, hUnsent, List.length_nil]
        · refine hBefore.connection c rx ?_
          simpa [Runtime.setConnection, Function.update_apply, hSame] using hLive
  | recv =>
      obtain ⟨-, hStep⟩ := Option.ite_none_right_eq_some.mp hStep
      obtain ⟨⟨_, rx⟩, -, rfl⟩ := Option.map_eq_some_iff.mp hStep
      exact hBefore.leave rx
  | backoffElapsed =>
      simp only [Runtime.step] at hStep
      split at hStep
      · rename_i fatal hPc
        obtain rfl := Option.some.inj hStep
        exact hBefore.afterError (by rw [hPc]; rfl) fatal
      · cases hStep
  | backoffRecv =>
      simp only [Runtime.step] at hStep
      split at hStep
      · rename_i fatal hPc
        obtain ⟨⟨_, rx⟩, -, rfl⟩ := Option.map_eq_some_iff.mp hStep
        obtain rfl : fatal = true := by simpa [losesShutdown, hPc] using hKeeps
        exact hBefore.leave rx
      · cases hStep
  | joinAll =>
      obtain ⟨-, rfl⟩ := enabled_iff.mp hStep
      exact hBefore.mono rfl (fun hIn => by cases hIn) fun _ _ hLive => hLive
  | abortAll =>
      obtain ⟨-, rfl⟩ := enabled_iff.mp hStep
      refine hBefore.mono rfl (fun hIn => by cases hIn) fun c rx hLive => ?_
      simp only [Runtime.finish, Runtime.abort] at hLive
      split at hLive <;> cases hLive
  | connectionRecv connection =>
      simp only [Runtime.step] at hStep
      split at hStep
      · obtain ⟨_, -, rfl⟩ := Option.map_eq_some_iff.mp hStep
        exact hBefore.setConnection connection (by simp)
      · cases hStep
  | connectionDone connection =>
      have hEnded : BeforeMessage (s.endConnection connection) :=
        (hBefore.setConnection connection (by simp)).mono rfl id fun _ _ hLive => hLive
      simp only [Runtime.step] at hStep
      split at hStep
      · obtain rfl := Option.some.inj hStep
        exact hEnded
      · obtain rfl := Option.some.inj hStep
        exact hEnded
      · cases hStep

/-- A step that loses the message leaves someone without it at once. -/
theorem BeforeMessage.not_reaches {action : RuntimeAction γ}
    (hLoses : losesShutdown s action = true) (hStep : s.step action = some s') :
    ¬ShutdownReaches s' := by
  intro hReaches
  cases action with
  | backoffRecv =>
      have hPc : s.loop = .backingOff false := by simpa [losesShutdown] using hLoses
      simp only [Runtime.step, hPc] at hStep
      obtain ⟨⟨_, rx⟩, hRecv, rfl⟩ := Option.map_eq_some_iff.mp hStep
      have hLeft := hReaches.leaves (Broadcast.next_pos_of_recv hRecv)
      cases hLeft
  | spawn connection =>
      obtain ⟨-, rfl⟩ := enabled_iff.mp hStep
      have hSent : s.channel.sent ≠ [] := by simpa [losesShutdown] using hLoses
      have hReceivable : s.channel.receivable s.channel.subscribe = true :=
        hReaches.connectionObserves hSent connection s.channel.subscribe
          (by simp [Runtime.setConnection])
      rw [Broadcast.not_receivable_subscribe] at hReceivable
      cases hReceivable
  | _ => cases hLoses

end Steps

variable [DecidableEq γ]

/-- In a run in which no step loses the shutdown message it reaches the loop and every
connection; the first step that loses it leaves one of them without it. -/
theorem shutdown_reaches_exactly {s : Runtime γ}
    (hReach : (runtime γ).ReachableUnder (fun s action => losesShutdown s action = false) s) :
    ShutdownReaches s ∧ ∀ action s', losesShutdown s action = true →
      (runtime γ).step s action = some s' → ¬ShutdownReaches s' := by
  have hBefore : BeforeMessage s :=
    hReach.invariant (fun _ hInitial => beforeMessage_initial hInitial)
      fun _ _ _ hBefore hKeeps hStep => BeforeMessage.step hBefore hKeeps hStep
  exact ⟨hBefore.reaches, fun _ _ hLoses hStep => BeforeMessage.not_reaches hLoses hStep⟩

/-- A server that has just started, with room for one connection. -/
def justStarted : Runtime Unit where
  channel := ⟨1, []⟩
  lifecycle := .starting
  handle := .ready
  loop := .starting
  shutdownRx := ⟨0⟩
  log := {}
  permits := 1
  tasks := 0
  connection := fun _ => .absent

theorem justStarted_initial : justStarted.Initial :=
  ⟨rfl, rfl, rfl, rfl, rfl, rfl, rfl, fun _ => rfl⟩

/-- A connection is there when the shutdown comes. -/
theorem shutdown_reaches_exactly_connected :
    ∃ s : Runtime Unit,
      (runtime Unit).ReachableUnder (fun s action => losesShutdown s action = false) s ∧
      s.channel.sent = [()] ∧ s.loop = .selecting ∧ s.connection () = .live ⟨0⟩ ∧
      ShutdownReaches s := by
  obtain ⟨s, hRun, hSent, hLoop, hLive⟩ : ∃ s,
      (runtime Unit).run (fun s action => losesShutdown s action = false) justStarted
        [.markRunning, .accept, .tryAcquire, .spawn (), .drain, .send] = some s ∧
      s.channel.sent = [()] ∧ s.loop = .selecting ∧ s.connection () = .live ⟨0⟩ :=
    ⟨_, rfl, rfl, rfl, rfl⟩
  have hReach := (Machine.ReachableUnder.start justStarted_initial).run hRun
  exact ⟨s, hReach, hSent, hLoop, hLive, (shutdown_reaches_exactly hReach).1⟩

/-- The wait after an aborted connection swallows the message and the loop goes on; and a
connection accepted before the message but spawned after it never sees it. -/
theorem shutdown_lost :
    (∃ s : Runtime Unit, (runtime Unit).Reachable s ∧ s.channel.sent = [()] ∧
      s.loop = .selecting ∧ s.channel.receivable s.shutdownRx = false) ∧
    ∃ s : Runtime Unit, (runtime Unit).Reachable s ∧ s.channel.sent = [()] ∧
      ∃ rx, s.connection () = .live rx ∧ s.channel.receivable rx = false := by
  have hStart : (runtime Unit).Reachable justStarted := .start justStarted_initial
  constructor
  · obtain ⟨s, hRun, hLost⟩ : ∃ s,
        (runtime Unit).run (fun _ _ => True) justStarted
          [.markRunning, .acceptError ⟨.connectionAborted, none, []⟩, .drain, .send,
            .backoffRecv] = some s ∧
        s.channel.sent = [()] ∧ s.loop = .selecting ∧
        s.channel.receivable s.shutdownRx = false := ⟨_, rfl, rfl, rfl, rfl⟩
    exact ⟨s, hStart.run hRun, hLost⟩
  · obtain ⟨s, hRun, hLost⟩ : ∃ s,
        (runtime Unit).run (fun _ _ => True) justStarted
          [.markRunning, .accept, .tryAcquire, .drain, .send, .spawn ()] = some s ∧
        s.channel.sent = [()] ∧
        ∃ rx, s.connection () = .live rx ∧ s.channel.receivable rx = false :=
      ⟨_, rfl, rfl, _, rfl, rfl⟩
    exact ⟨s, hStart.run hRun, hLost⟩

end Eggserve.Server
