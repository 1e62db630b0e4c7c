import BinaryRecord.Channel

/-!
# Operations of a channel

What a channel must be like for an operation to have each of its results.
-/

set_option autoImplicit false

namespace BinaryRecord.Channel

variable {α : Type} {channel after : Channel α} {item : α} {released : Option (SendResult α)}

/-- A half that lasts, with no send blocked, pushes into the queue. -/
theorem send_eq_push (senderAlive : channel.senderAlive = true)
    (unblocked : channel.blocked = none) (item : α) :
    channel.send item = (.ofPush (channel.push item).1, ⟨(channel.push item).2⟩) := by
  simp [send, senderAlive, unblocked]

theorem receive_eq_pop (receiverAlive : channel.receiverAlive = true) :
    channel.receive = (.ofPop channel.pop.1, channel.pop.2.1.map .ofPush, ⟨channel.pop.2.2⟩) := by
  simp [receive, receiverAlive]

theorem eq_of_send_accepted (sent : channel.send item = (.accepted, after)) :
    after = { channel with buffered := channel.buffered ++ [item] } := by
  obtain ⟨_, _, same⟩ := BoundedQueue.of_push_entered (push_of_send_accepted sent).2
  exact congrArg Channel.mk same

theorem lt_capacity_of_send_accepted (sent : channel.send item = (.accepted, after)) :
    channel.buffered.length < channel.capacity :=
  (BoundedQueue.of_push_entered (push_of_send_accepted sent).2).2.1

theorem send_of_space (senderAlive : channel.senderAlive = true)
    (unblocked : channel.blocked = none) (receiverAlive : channel.receiverAlive = true)
    (space : channel.buffered.length < channel.capacity) :
    channel.send item =
      (.accepted, { channel with buffered := channel.buffered ++ [item] }) := by
  rw [send_eq_push senderAlive unblocked, BoundedQueue.push_of_space receiverAlive space]
  rfl

theorem send_of_full (senderAlive : channel.senderAlive = true)
    (unblocked : channel.blocked = none) (receiverAlive : channel.receiverAlive = true)
    (full : channel.capacity ≤ channel.buffered.length) :
    channel.send item = (.blocked, { channel with blocked := some item }) := by
  rw [send_eq_push senderAlive unblocked, BoundedQueue.push_of_full receiverAlive full]
  rfl

theorem send_of_dropped (senderAlive : channel.senderAlive = true)
    (unblocked : channel.blocked = none) (dropped : channel.receiverAlive = false) :
    channel.send item = (.returned item, channel) := by
  rw [send_eq_push senderAlive unblocked, BoundedQueue.push_of_disconnected dropped]
  rfl

/-- A channel whose receiver is dropped takes no item, and no send waits on it. -/
theorem send_of_receiver_dropped (dropped : channel.receiverAlive = false) (item : α) :
    (channel.send item).1 ≠ .accepted ∧ (channel.send item).1 ≠ .blocked := by
  unfold send
  split
  · exact ⟨nofun, nofun⟩
  split
  · exact ⟨nofun, nofun⟩
  · rw [BoundedQueue.push_of_disconnected dropped]
    exact ⟨nofun, nofun⟩

theorem receive_of_cons {later : List α} (receiverAlive : channel.receiverAlive = true)
    (unblocked : channel.blocked = none) (buffered : channel.buffered = item :: later) :
    channel.receive = (.item item, none, { channel with buffered := later }) := by
  rw [receive_eq_pop receiverAlive, BoundedQueue.pop_of_cons buffered unblocked]
  rfl

/-- The place that the oldest item leaves goes to the send that is blocked. -/
theorem receive_of_blocked {later : List α} {admitted : α}
    (receiverAlive : channel.receiverAlive = true) (buffered : channel.buffered = item :: later)
    (blocked : channel.blocked = some admitted) :
    channel.receive =
      (.item item, some .accepted,
        { channel with buffered := later ++ [admitted], blocked := none }) := by
  rw [receive_eq_pop receiverAlive, BoundedQueue.pop_of_blocked buffered blocked]
  rfl

theorem receive_of_nil (receiverAlive : channel.receiverAlive = true)
    (buffered : channel.buffered = []) :
    channel.receive = (if channel.senderAlive then .waiting else .ended, none, channel) := by
  rw [receive_eq_pop receiverAlive, BoundedQueue.pop_of_nil buffered]
  cases channel.senderAlive <;> rfl

theorem buffered_of_receive_item (unblocked : channel.blocked = none)
    (taken : channel.receive = (.item item, released, after)) :
    ∃ later, channel.buffered = item :: later ∧ after = { channel with buffered := later } := by
  cases receiver : channel.receiverAlive with
  | false => simp [receive, receiver] at taken
  | true =>
      cases buffered : channel.buffered with
      | nil =>
          rw [receive_of_nil receiver buffered] at taken
          cases alive : channel.senderAlive <;> simp [alive] at taken
      | cons first later =>
          rw [receive_of_cons receiver unblocked buffered] at taken
          cases taken
          exact ⟨later, rfl, by rw [receiver]⟩

theorem ended_of_receive_ended (taken : channel.receive = (.ended, released, after)) :
    channel.buffered = [] ∧ channel.senderAlive = false := by
  cases receiver : channel.receiverAlive with
  | false => simp [receive, receiver] at taken
  | true =>
      rw [receive_eq_pop receiver] at taken
      have disconnected := ReceiveResult.ofPop_eq_ended_iff.mp (Prod.mk.inj taken).1
      exact BoundedQueue.pop_eq_disconnected_iff.mp disconnected

end BinaryRecord.Channel
