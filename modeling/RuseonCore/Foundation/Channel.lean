import Mathlib.Tactic

/-!
# Buffered channels

A channel is given by everything ever sent on it, the number of items already
received, and whether it was closed.  The items still buffered are the sent
items past the received ones.  Keeping the whole send history makes statements
about delivery statements about one list.

Sending on a closed channel and closing a channel twice are run-time panics;
both set `misused`, so that their absence is a property of reachable states.
-/

namespace RuseonCore

/-- A buffered channel with its complete send history.  Only sent items are
received, and the buffer never holds more than its capacity. -/
structure Channel (Item : Type) where
  capacity : Nat
  sent : List Item
  received : Nat
  closed : Bool
  misused : Bool
  received_le : received ≤ sent.length
  sent_le : sent.length ≤ received + capacity

namespace Channel

/-- A fresh open channel. -/
def make (capacity : Nat) : Channel Item where
  capacity := capacity
  sent := []
  received := 0
  closed := false
  misused := false
  received_le := by simp
  sent_le := by simp

/-- There is no room for another item. -/
def Full (channel : Channel Item) : Prop :=
  channel.sent.length = channel.received + channel.capacity

instance (channel : Channel Item) : Decidable channel.Full := by
  unfold Full
  infer_instance

/-- Append an item to a channel with room. -/
def push
    (channel : Channel Item)
    (item : Item)
    (room : ¬channel.Full) : Channel Item where
  capacity := channel.capacity
  sent := channel.sent ++ [item]
  received := channel.received
  closed := channel.closed
  misused := channel.misused
  received_le := by
    have := channel.received_le
    simp only [List.length_append, List.length_singleton]
    omega
  sent_le := by
    have := channel.sent_le
    unfold Full at room
    simp only [List.length_append, List.length_singleton]
    omega

/-- Blocking send: `none` means that the sender blocks. -/
def send (channel : Channel Item) (item : Item) : Option (Channel Item) :=
  if channel.closed then some { channel with misused := true }
  else if room : ¬channel.Full then some (channel.push item room)
  else none

/-- Non-blocking send of a `select` with a default branch; the flag tells
whether the item was sent. -/
def trySend (channel : Channel Item) (item : Item) : Channel Item × Bool :=
  if channel.closed then ({ channel with misused := true }, false)
  else if room : ¬channel.Full then (channel.push item room, true)
  else (channel, false)

/-- Receive the oldest buffered item.  A closed and drained channel yields no
item; `none` means that the receiver blocks. -/
def receive (channel : Channel Item) : Option (Option Item × Channel Item) :=
  if pending : channel.received < channel.sent.length then
    some (channel.sent[channel.received]?,
      { channel with
        received := channel.received + 1
        received_le := pending
        sent_le := by
          have := channel.sent_le
          omega })
  else if channel.closed then some (none, channel)
  else none

/-- Close the channel. -/
def close (channel : Channel Item) : Channel Item :=
  if channel.closed then { channel with misused := true }
  else { channel with closed := true }

@[simp] theorem sent_make (capacity : Nat) :
    (make capacity : Channel Item).sent = [] := rfl

@[simp] theorem capacity_make (capacity : Nat) :
    (make capacity : Channel Item).capacity = capacity := rfl

@[simp] theorem sent_push
    (channel : Channel Item)
    (item : Item)
    (room : ¬channel.Full) :
    (channel.push item room).sent = channel.sent ++ [item] := rfl

@[simp] theorem sent_close (channel : Channel Item) :
    channel.close.sent = channel.sent := by
  unfold close
  split <;> rfl

@[simp] theorem capacity_close (channel : Channel Item) :
    channel.close.capacity = channel.capacity := by
  unfold close
  split <;> rfl

@[simp] theorem received_close (channel : Channel Item) :
    channel.close.received = channel.received := by
  unfold close
  split <;> rfl

@[simp] theorem closed_close (channel : Channel Item) :
    channel.close.closed = true := by
  unfold close
  split
  · assumption
  · rfl

/-- A channel whose sent items were all received has room. -/
theorem not_full_of_sent_eq_nil
    (channel : Channel Item)
    (positive : 0 < channel.capacity)
    (unsent : channel.sent = []) :
    ¬channel.Full := by
  unfold Full
  rw [unsent, List.length_nil]
  omega

/-- A non-blocking send on an open channel either appends the item or leaves
the channel unchanged because it is full. -/
theorem trySend_cases
    (channel : Channel Item)
    (item : Item)
    (opened : channel.closed = false) :
    (∃ room : ¬channel.Full,
      channel.trySend item = (channel.push item room, true)) ∨
    (channel.Full ∧ channel.trySend item = (channel, false)) := by
  unfold trySend
  by_cases room : ¬channel.Full
  · left
    exact ⟨room, by simp [opened, room]⟩
  · right
    exact ⟨not_not.mp room, by simp [opened, room]⟩

/-- Receiving changes neither what was sent nor the channel's parameters. -/
theorem receive_frame
    {channel next : Channel Item}
    {item : Option Item}
    (taken : channel.receive = some (item, next)) :
    next.sent = channel.sent ∧ next.capacity = channel.capacity ∧
      next.closed = channel.closed ∧ next.misused = channel.misused := by
  unfold receive at taken
  split at taken
  · simp only [Option.some.injEq, Prod.mk.injEq] at taken
    rw [← taken.2]
    simp
  · split at taken
    · simp only [Option.some.injEq, Prod.mk.injEq] at taken
      rw [← taken.2]
      simp
    · simp at taken

/-- A received item is the oldest one that was not received before. -/
theorem receive_item
    {channel next : Channel Item}
    {item : Item}
    (taken : channel.receive = some (some item, next)) :
    next.received = channel.received + 1 ∧
      next.sent.take next.received = channel.sent.take channel.received ++ [item] := by
  unfold receive at taken
  split at taken
  · simp only [Option.some.injEq, Prod.mk.injEq] at taken
    obtain ⟨oldest, rfl⟩ := taken
    exact ⟨rfl, by rw [List.take_add_one, oldest, Option.toList_some]⟩
  · split at taken <;> simp at taken

/-- A receiver learns that a channel is closed once it is drained. -/
theorem receive_closed
    {channel next : Channel Item}
    (taken : channel.receive = some (none, next)) :
    next = channel ∧ channel.closed = true ∧ channel.received = channel.sent.length := by
  unfold receive at taken
  split at taken
  · rename_i pending
    simp [List.getElem?_eq_getElem pending] at taken
  · rename_i drained
    have bound := channel.received_le
    split at taken
    · rename_i closed
      simp only [Option.some.injEq, Prod.mk.injEq, true_and] at taken
      exact ⟨taken.symm, closed, by omega⟩
    · simp at taken

end Channel
end RuseonCore
