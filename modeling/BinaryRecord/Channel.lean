import BinaryRecord.BoundedQueue

/-!
# Bounded channels

A channel is a bounded queue between a sender and a receiver, with at least one place. Its halves
are used while they last, and a send only while no other one is blocked. A channel without a
receiver gives every item back, and a channel without a sender ends once it is empty.
-/

set_option autoImplicit false

namespace BinaryRecord

structure Channel (α : Type) extends BoundedQueue α
  deriving DecidableEq, Repr

inductive SendResult (α : Type) where
  | accepted
  | blocked
  | returned (item : α)
  | busy
  | closed
  deriving DecidableEq, Repr

inductive ReceiveResult (α : Type) where
  | item (item : α)
  /-- The channel is empty and has no sender. -/
  | ended
  /-- The channel is empty, and a sender may still send. -/
  | waiting
  | closed
  deriving DecidableEq, Repr

def SendResult.ofPush {α : Type} : PushResult α → SendResult α
  | .entered => .accepted
  | .waiting => .blocked
  | .disconnected item => .returned item

theorem SendResult.ofPush_eq_blocked_iff {α : Type} {result : PushResult α} :
    ofPush result = .blocked ↔ result = .waiting := by
  cases result <;> simp [ofPush]

theorem SendResult.ofPush_eq_accepted_iff {α : Type} {result : PushResult α} :
    ofPush result = .accepted ↔ result = .entered := by
  cases result <;> simp [ofPush]

def ReceiveResult.ofPop {α : Type} : PopResult α → ReceiveResult α
  | .item oldest => .item oldest
  | .waiting => .waiting
  | .disconnected => .ended

theorem ReceiveResult.ofPop_eq_item_iff {α : Type} {result : PopResult α} {oldest : α} :
    ofPop result = .item oldest ↔ result = .item oldest := by
  cases result <;> simp [ofPop]

theorem ReceiveResult.ofPop_eq_waiting_iff {α : Type} {result : PopResult α} :
    ofPop result = .waiting ↔ result = .waiting := by
  cases result <;> simp [ofPop]

theorem ReceiveResult.ofPop_eq_ended_iff {α : Type} {result : PopResult α} :
    ofPop result = .ended ↔ result = .disconnected := by
  cases result <;> simp [ofPop]

namespace Channel

variable {α : Type}

/-- An empty channel. It holds at least one item, whatever capacity is asked for. -/
def create (capacity : Nat) : Channel α :=
  ⟨.create (max capacity 1)⟩

def held (channel : Channel α) : Nat :=
  channel.contents.length

def send (channel : Channel α) (item : α) : SendResult α × Channel α :=
  if !channel.senderAlive then (.closed, channel)
  else if channel.blocked.isSome then (.busy, channel)
  else (.ofPush (channel.push item).1, ⟨(channel.push item).2⟩)

/-- Receives the oldest item. The place that it leaves goes to the send that is blocked, if there is
one: the second component is that send's result. -/
def receive (channel : Channel α) : ReceiveResult α × Option (SendResult α) × Channel α :=
  if !channel.receiverAlive then (.closed, none, channel)
  else (.ofPop channel.pop.1, channel.pop.2.1.map .ofPush, ⟨channel.pop.2.2⟩)

theorem push_of_send_accepted {channel after : Channel α} {item : α}
    (sent : channel.send item = (.accepted, after)) :
    channel.blocked = none ∧ channel.push item = (.entered, after.toBoundedQueue) := by
  unfold send at sent
  split at sent
  · simp at sent
  split at sent
  · simp at sent
  rename_i unblocked
  obtain ⟨accepted, rfl⟩ := Prod.mk.inj sent
  exact ⟨by simpa using unblocked, Prod.ext (SendResult.ofPush_eq_accepted_iff.mp accepted) rfl⟩

theorem held_send_accepted {channel after : Channel α} {item : α}
    (sent : channel.send item = (.accepted, after)) :
    after.held = channel.held + 1 := by
  obtain ⟨unblocked, pushed⟩ := push_of_send_accepted sent
  obtain ⟨receiver, _⟩ := BoundedQueue.of_push_entered pushed
  have longer := BoundedQueue.contents_push receiver unblocked item
  rw [pushed] at longer
  rw [held, longer, List.length_append]
  rfl

theorem held_receive_lt {channel after : Channel α} {item : α}
    {released : Option (SendResult α)}
    (received : channel.receive = (.item item, released, after)) :
    after.held < channel.held := by
  unfold receive at received
  split at received
  · simp at received
  obtain ⟨popped, rest⟩ := Prod.mk.inj received
  obtain rfl := (Prod.mk.inj rest).2
  have split := BoundedQueue.contents_pop (ReceiveResult.ofPop_eq_item_iff.mp popped)
  rw [held, held, split, List.length_cons]
  exact Nat.lt_succ_self _

/-- Drops the sender. A send that is blocked stays so. -/
def dropSender (channel : Channel α) : Channel α :=
  ⟨channel.disconnectSender⟩

/-- Drops the receiver and with it the items that are held. The item of the send that is blocked, if
there is one, comes back: the first component is that send's result. -/
def dropReceiver (channel : Channel α) : Option (SendResult α) × Channel α :=
  (channel.disconnectReceiver.1.map .ofPush, ⟨channel.disconnectReceiver.2⟩)

theorem dropSender_eq (channel : Channel α) :
    channel.dropSender = { channel with senderAlive := false } :=
  rfl

theorem dropReceiver_eq (channel : Channel α) :
    channel.dropReceiver =
      (channel.blocked.map .returned,
        { channel with buffered := [], blocked := none, receiverAlive := false }) := by
  cases blocked : channel.blocked <;>
    simp [dropReceiver, BoundedQueue.disconnectReceiver, blocked, SendResult.ofPush]

theorem held_dropSender (channel : Channel α) : channel.dropSender.held = channel.held :=
  rfl

end Channel

end BinaryRecord
