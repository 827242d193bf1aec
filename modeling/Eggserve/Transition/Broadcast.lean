import Mathlib.Order.Basic

/-! A bounded broadcast channel. Every receiver has its own place in the sequence
of all messages sent. -/
namespace Eggserve.Transition

universe u

/-- All messages sent so far. Only the last `capacity` of them are kept. -/
structure Broadcast (μ : Type u) where
  capacity : Nat
  sent : List μ

/-- A receiver, by the number of the message it reads next. -/
structure Receiver where
  next : Nat
  deriving DecidableEq, Repr

namespace Broadcast

variable {μ : Type u} (channel : Broadcast μ)

def send (message : μ) : Broadcast μ := { channel with sent := channel.sent ++ [message] }

/-- A new receiver starts after everything sent so far, also when it is made from
another receiver. -/
def subscribe : Receiver := ⟨channel.sent.length⟩

/-- What `recv` completes with: a message, or the number of messages that were
dropped before the receiver read them. `none` means that it waits. -/
def recv (receiver : Receiver) : Option (Except Nat μ × Receiver) :=
  if receiver.next + channel.capacity < channel.sent.length then
    some (.error (channel.sent.length - channel.capacity - receiver.next),
      ⟨channel.sent.length - channel.capacity⟩)
  else (channel.sent[receiver.next]?).map fun message => (.ok message, ⟨receiver.next + 1⟩)

/-- Something is there for the receiver. -/
def receivable (receiver : Receiver) : Bool := (channel.recv receiver).isSome

/-- A receiver completes exactly when a message was sent after its place. -/
theorem receivable_iff (receiver : Receiver) :
    channel.receivable receiver = true ↔ receiver.next < channel.sent.length := by
  unfold receivable recv
  split
  · simp
    omega
  · simp

/-- A receiver that completed has moved on. -/
theorem next_pos_of_recv {channel : Broadcast μ} {receiver after : Receiver} {item : Except Nat μ}
    (hRecv : channel.recv receiver = some (item, after)) : 0 < after.next := by
  unfold recv at hRecv
  split at hRecv
  · obtain ⟨-, rfl⟩ := Prod.mk.inj (Option.some.inj hRecv)
    simp only
    omega
  · obtain ⟨message, -, hEq⟩ := Option.map_eq_some_iff.mp hRecv
    obtain ⟨-, rfl⟩ := Prod.mk.inj hEq
    exact Nat.succ_pos _

/-- A new receiver has nothing to read. -/
theorem not_receivable_subscribe : channel.receivable channel.subscribe = false := by
  simp [← Bool.not_eq_true, receivable_iff, subscribe]

end Broadcast

end Eggserve.Transition
