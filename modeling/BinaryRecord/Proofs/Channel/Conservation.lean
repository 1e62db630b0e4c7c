import BinaryRecord.Proofs.Channel.Operations

/-!
# Conservation of items

Calls on the two halves of a channel, in turn, with what each of them answers. As long as the
receiver lives, the items that were received and those that are held are the items that were handed
over, in their order. A drop of the receiver loses what the channel has buffered and nothing else:
the item of a blocked send, and every item that is handed over later, goes back to its sender. Main
statement: `Channel.calls_conserve`.
-/

set_option autoImplicit false

namespace BinaryRecord.Channel

/-- A call on one of the two halves of a channel. -/
inductive Call (α : Type) where
  | send (item : α)
  | receive
  | dropSender
  | dropReceiver
  deriving DecidableEq, Repr

/-- What a call answers. A receive and a drop of the receiver can also let a blocked send return:
`released` is the result of that send. -/
inductive Reply (α : Type) where
  | sent (result : SendResult α)
  | received (result : ReceiveResult α) (released : Option (SendResult α))
  | senderDropped
  | receiverDropped (released : Option (SendResult α))
  deriving DecidableEq, Repr

variable {α : Type}

/-- The item that a call hands over. -/
def Call.item? : Call α → Option α
  | .send item => some item
  | _ => none

def Reply.received? : Reply α → Option α
  | .received (.item item) _ => some item
  | _ => none

/-- The item that goes back to its sender. -/
def Reply.returned? : Reply α → Option α
  | .sent (.returned item) => some item
  | .received _ (some (.returned item)) => some item
  | .receiverDropped (some (.returned item)) => some item
  | _ => none

def perform (channel : Channel α) : Call α → Reply α × Channel α
  | .send item => (.sent (channel.send item).1, (channel.send item).2)
  | .receive =>
      (.received channel.receive.1 channel.receive.2.1, channel.receive.2.2)
  | .dropSender => (.senderDropped, channel.dropSender)
  | .dropReceiver => (.receiverDropped channel.dropReceiver.1, channel.dropReceiver.2)

/-- Whether a call can be made: the half that it is made on has not been dropped, and no send is
issued while another one is blocked. -/
def Permits (channel : Channel α) : Call α → Prop
  | .send _ => channel.senderAlive = true ∧ channel.blocked = none
  | .dropSender => channel.senderAlive = true
  | .receive | .dropReceiver => channel.receiverAlive = true

/-- Whether each of the calls can be made when its turn comes. -/
def Orderly : Channel α → List (Call α) → Prop
  | _, [] => True
  | channel, call :: later => channel.Permits call ∧ (channel.perform call).2.Orderly later

/-- The channel behind calls. -/
def after : Channel α → List (Call α) → Channel α
  | channel, [] => channel
  | channel, call :: later => (channel.perform call).2.after later

def replies : Channel α → List (Call α) → List (Reply α)
  | _, [] => []
  | channel, call :: later =>
      (channel.perform call).1 :: (channel.perform call).2.replies later

/-- The items that calls hand over. -/
def handed (calls : List (Call α)) : List α :=
  calls.filterMap Call.item?

/-- The items that calls receive. -/
def received (channel : Channel α) (calls : List (Call α)) : List α :=
  (channel.replies calls).filterMap Reply.received?

/-- The items that go back to their senders. -/
def returned (channel : Channel α) (calls : List (Call α)) : List α :=
  (channel.replies calls).filterMap Reply.returned?

/-- Every call that can be made, with what it answers and what it changes. -/
inductive Performs (before : Channel α) : Call α → Reply α → Channel α → Prop where
  | accept {item : α} :
      before.blocked = none → before.receiverAlive = true →
      before.buffered.length < before.capacity →
      Performs before (.send item) (.sent .accepted)
        { before with buffered := before.buffered ++ [item] }
  | block {item : α} :
      before.blocked = none → before.receiverAlive = true →
      before.capacity ≤ before.buffered.length →
      Performs before (.send item) (.sent .blocked) { before with blocked := some item }
  | giveBack {item : α} :
      before.receiverAlive = false →
      Performs before (.send item) (.sent (.returned item)) before
  | take {item : α} {later : List α} :
      before.receiverAlive = true → before.buffered = item :: later → before.blocked = none →
      Performs before .receive (.received (.item item) none) { before with buffered := later }
  | refill {item admitted : α} {later : List α} :
      before.receiverAlive = true → before.buffered = item :: later →
      before.blocked = some admitted →
      Performs before .receive (.received (.item item) (some .accepted))
        { before with buffered := later ++ [admitted], blocked := none }
  | wait :
      before.receiverAlive = true → before.buffered = [] → before.senderAlive = true →
      Performs before .receive (.received .waiting none) before
  | finish :
      before.receiverAlive = true → before.buffered = [] → before.senderAlive = false →
      Performs before .receive (.received .ended none) before
  | dropSender :
      Performs before .dropSender .senderDropped before.dropSender
  | dropReceiver :
      before.receiverAlive = true →
      Performs before .dropReceiver (.receiverDropped before.dropReceiver.1)
        before.dropReceiver.2

/-- What holds of a channel at all times: a send is blocked only while the buffer is full, and a
channel without a receiver is empty. -/
structure Sound (channel : Channel α) : Prop where
  capacity_pos : 0 < channel.capacity
  length_le : channel.buffered.length ≤ channel.capacity
  full_of_blocked : channel.blocked ≠ none → channel.capacity ≤ channel.buffered.length
  empty_of_dropped : channel.receiverAlive = false → channel.buffered = []

variable {channel before next : Channel α} {call : Call α} {calls earlier later : List (Call α)}
  {reply : Reply α} {item : α}

theorem performs_of_permits (permits : channel.Permits call) :
    Performs channel call (channel.perform call).1 (channel.perform call).2 := by
  cases call with
  | send item =>
      obtain ⟨senderAlive, unblocked⟩ := permits
      cases receiver : channel.receiverAlive with
      | false =>
          rw [perform, send_of_dropped senderAlive unblocked receiver]
          exact .giveBack receiver
      | true =>
          by_cases space : channel.buffered.length < channel.capacity
          · rw [perform, send_of_space senderAlive unblocked receiver space]
            exact .accept unblocked receiver space
          · have full := Nat.le_of_not_lt space
            rw [perform, send_of_full senderAlive unblocked receiver full]
            exact .block unblocked receiver full
  | receive =>
      have receiver : channel.receiverAlive = true := permits
      cases buffered : channel.buffered with
      | nil =>
          rw [perform, receive_of_nil receiver buffered]
          cases sender : channel.senderAlive with
          | false => exact .finish receiver buffered sender
          | true => exact .wait receiver buffered sender
      | cons first later =>
          cases blocked : channel.blocked with
          | none =>
              rw [perform, receive_of_cons receiver blocked buffered]
              exact .take receiver buffered blocked
          | some admitted =>
              rw [perform, receive_of_blocked receiver buffered blocked]
              exact .refill receiver buffered blocked
  | dropSender => exact .dropSender
  | dropReceiver => exact .dropReceiver permits

namespace Performs

theorem capacity_eq (performs : Performs before call reply next) :
    next.capacity = before.capacity := by
  cases performs <;> rfl

theorem sound (performs : Performs before call reply next) (sound : before.Sound) :
    next.Sound := by
  have bounded := sound.length_le
  cases performs with
  | accept unblocked receiver space =>
      refine ⟨sound.capacity_pos, ?_, fun blocked => absurd unblocked blocked, fun dropped => ?_⟩
      · rw [List.length_append]
        exact space
      · cases receiver.symm.trans dropped
  | block unblocked receiver full =>
      exact ⟨sound.capacity_pos, bounded, fun _ => full, sound.empty_of_dropped⟩
  | giveBack | wait | finish => exact sound
  | take receiver buffered unblocked =>
      rw [buffered, List.length_cons] at bounded
      refine ⟨sound.capacity_pos, Nat.le_of_succ_le bounded,
        fun blocked => absurd unblocked blocked, fun dropped => ?_⟩
      cases receiver.symm.trans dropped
  | refill receiver buffered blocked =>
      rw [buffered, List.length_cons] at bounded
      refine ⟨sound.capacity_pos, ?_, fun blocked => absurd rfl blocked, fun dropped => ?_⟩
      · simpa using bounded
      · cases receiver.symm.trans dropped
  | dropSender =>
      exact ⟨sound.capacity_pos, bounded, sound.full_of_blocked, sound.empty_of_dropped⟩
  | dropReceiver receiver =>
      exact ⟨sound.capacity_pos, Nat.zero_le _, fun blocked => absurd rfl blocked, fun _ => rfl⟩

/-- While the receiver lives, a call adds to the end of what the channel holds, or takes from its
front. -/
theorem balance (performs : Performs before call reply next)
    (receiver : before.receiverAlive = true) (kept : call ≠ .dropReceiver) :
    before.contents ++ call.item?.toList = reply.received?.toList ++ next.contents := by
  cases performs with
  | accept unblocked => simp [BoundedQueue.contents, unblocked, Call.item?, Reply.received?]
  | block unblocked => simp [BoundedQueue.contents, unblocked, Call.item?, Reply.received?]
  | giveBack dropped => cases receiver.symm.trans dropped
  | take _ buffered => simp [BoundedQueue.contents, buffered, Call.item?, Reply.received?]
  | refill _ buffered blocked =>
      simp [BoundedQueue.contents, buffered, blocked, Call.item?, Reply.received?]
  | wait | finish => simp [Call.item?, Reply.received?]
  | dropSender => simp [BoundedQueue.contents, dropSender_eq, Call.item?, Reply.received?]
  | dropReceiver => exact absurd rfl kept

theorem returned?_eq_none (performs : Performs before call reply next)
    (receiver : before.receiverAlive = true) (kept : call ≠ .dropReceiver) :
    reply.returned? = none := by
  cases performs with
  | giveBack dropped => cases receiver.symm.trans dropped
  | dropReceiver => exact absurd rfl kept
  | _ => rfl

/-- Without a receiver nothing is received, and what is handed over goes back. -/
theorem of_dropped (performs : Performs before call reply next)
    (dropped : before.receiverAlive = false) :
    reply.received? = none ∧ reply.returned? = call.item? := by
  cases performs with
  | accept _ receiver | block _ receiver | take receiver | refill receiver | wait receiver
  | finish receiver | dropReceiver receiver => cases receiver.symm.trans dropped
  | giveBack | dropSender => exact ⟨rfl, rfl⟩

theorem receiverAlive_iff (performs : Performs before call reply next) :
    next.receiverAlive = true ↔ before.receiverAlive = true ∧ call ≠ .dropReceiver := by
  cases performs <;> simp [dropSender_eq, dropReceiver_eq]

theorem senderAlive_iff (performs : Performs before call reply next) :
    next.senderAlive = true ↔ before.senderAlive = true ∧ call ≠ .dropSender := by
  cases performs <;> simp [dropSender_eq, dropReceiver_eq]

end Performs

theorem handed_cons (call : Call α) (later : List (Call α)) :
    handed (call :: later) = call.item?.toList ++ handed later := by
  rw [handed, List.filterMap_cons]
  cases call.item? <;> rfl

theorem received_cons (channel : Channel α) (call : Call α) (later : List (Call α)) :
    channel.received (call :: later) =
      (channel.perform call).1.received?.toList ++ (channel.perform call).2.received later := by
  rw [received, replies, List.filterMap_cons]
  cases (channel.perform call).1.received? <;> rfl

theorem returned_cons (channel : Channel α) (call : Call α) (later : List (Call α)) :
    channel.returned (call :: later) =
      (channel.perform call).1.returned?.toList ++ (channel.perform call).2.returned later := by
  rw [returned, replies, List.filterMap_cons]
  cases (channel.perform call).1.returned? <;> rfl

theorem received_append (channel : Channel α) (earlier later : List (Call α)) :
    channel.received (earlier ++ later) =
      channel.received earlier ++ (channel.after earlier).received later := by
  induction earlier generalizing channel with
  | nil => rfl
  | cons call earlier ih =>
      rw [List.cons_append, received_cons, received_cons, ih, List.append_assoc]
      rfl

theorem returned_append (channel : Channel α) (earlier later : List (Call α)) :
    channel.returned (earlier ++ later) =
      channel.returned earlier ++ (channel.after earlier).returned later := by
  induction earlier generalizing channel with
  | nil => rfl
  | cons call earlier ih =>
      rw [List.cons_append, returned_cons, returned_cons, ih, List.append_assoc]
      rfl

theorem orderly_append_iff :
    channel.Orderly (earlier ++ later) ↔
      channel.Orderly earlier ∧ (channel.after earlier).Orderly later := by
  induction earlier generalizing channel with
  | nil => exact ⟨fun orderly => ⟨trivial, orderly⟩, And.right⟩
  | cons call earlier ih =>
      rw [List.cons_append, Orderly, Orderly, ih, and_assoc]
      rfl

namespace Orderly

theorem sound (orderly : channel.Orderly calls) (sound : channel.Sound) :
    (channel.after calls).Sound := by
  induction calls generalizing channel with
  | nil => exact sound
  | cons call later ih => exact ih orderly.2 ((performs_of_permits orderly.1).sound sound)

theorem capacity_eq (orderly : channel.Orderly calls) :
    (channel.after calls).capacity = channel.capacity := by
  induction calls generalizing channel with
  | nil => rfl
  | cons call later ih =>
      exact (ih orderly.2).trans (performs_of_permits orderly.1).capacity_eq

theorem receiverAlive_iff (orderly : channel.Orderly calls) :
    (channel.after calls).receiverAlive = true ↔
      channel.receiverAlive = true ∧ .dropReceiver ∉ calls := by
  induction calls generalizing channel with
  | nil => simp [after]
  | cons call later ih =>
      rw [after, ih orderly.2, (performs_of_permits orderly.1).receiverAlive_iff, and_assoc,
        List.mem_cons, not_or, ne_comm]

theorem senderAlive_iff (orderly : channel.Orderly calls) :
    (channel.after calls).senderAlive = true ↔
      channel.senderAlive = true ∧ .dropSender ∉ calls := by
  induction calls generalizing channel with
  | nil => simp [after]
  | cons call later ih =>
      rw [after, ih orderly.2, (performs_of_permits orderly.1).senderAlive_iff, and_assoc,
        List.mem_cons, not_or, ne_comm]

/-- As long as the receiver is not dropped, what is received and held is what was held and handed
over, and nothing goes back. -/
theorem balance (orderly : channel.Orderly calls) (receiver : channel.receiverAlive = true)
    (kept : .dropReceiver ∉ calls) :
    channel.contents ++ handed calls =
      channel.received calls ++ (channel.after calls).contents ∧
    channel.returned calls = [] := by
  induction calls generalizing channel with
  | nil => exact ⟨List.append_nil _, rfl⟩
  | cons call later ih =>
      obtain ⟨callKept, laterKept⟩ := not_or.mp (mt List.mem_cons.mpr kept)
      have performs := performs_of_permits orderly.1
      have alive := performs.receiverAlive_iff.mpr ⟨receiver, Ne.symm callKept⟩
      obtain ⟨balanced, nothing⟩ := ih orderly.2 alive laterKept
      constructor
      · calc
          channel.contents ++ handed (call :: later)
          _ = (channel.contents ++ call.item?.toList) ++ handed later := by
              rw [handed_cons, List.append_assoc]
          _ = (channel.perform call).1.received?.toList ++
                ((channel.perform call).2.contents ++ handed later) := by
              rw [performs.balance receiver (Ne.symm callKept), List.append_assoc]
          _ = channel.received (call :: later) ++ (channel.after (call :: later)).contents := by
              rw [balanced, received_cons, List.append_assoc, after]
      · rw [returned_cons, performs.returned?_eq_none receiver (Ne.symm callKept), nothing]
        rfl

/-- Behind the drop of the receiver, every item goes back to the send that hands it over. -/
theorem of_dropped (orderly : channel.Orderly calls) (dropped : channel.receiverAlive = false) :
    channel.received calls = [] ∧ channel.returned calls = handed calls := by
  induction calls generalizing channel with
  | nil => exact ⟨rfl, rfl⟩
  | cons call later ih =>
      have performs := performs_of_permits orderly.1
      have stays : (channel.perform call).2.receiverAlive = false := by
        rw [Bool.eq_false_iff, ne_eq, performs.receiverAlive_iff, dropped]
        nofun
      obtain ⟨nothing, back⟩ := ih orderly.2 stays
      obtain ⟨noItem, given⟩ := performs.of_dropped dropped
      constructor
      · rw [received_cons, noItem, nothing]
        rfl
      · rw [returned_cons, handed_cons, given, back]

/-- The drop of the receiver loses what is buffered then. -/
theorem balance_of_dropReceiver (orderly : channel.Orderly (earlier ++ .dropReceiver :: later))
    (receiver : channel.receiverAlive = true) :
    channel.contents ++ handed (earlier ++ .dropReceiver :: later) =
      channel.received (earlier ++ .dropReceiver :: later) ++ (channel.after earlier).buffered ++
        channel.returned (earlier ++ .dropReceiver :: later) ∧
    channel.returned (earlier ++ .dropReceiver :: later) =
      (channel.after earlier).blocked.toList ++ handed later := by
  obtain ⟨first, permits, second⟩ := orderly_append_iff.mp orderly
  have kept : .dropReceiver ∉ earlier := (first.receiverAlive_iff.mp permits).2
  obtain ⟨balanced, nothing⟩ := first.balance receiver kept
  obtain ⟨received, back⟩ := second.of_dropped rfl
  have released : (channel.after earlier).returned (.dropReceiver :: later) =
      (channel.after earlier).blocked.toList ++ handed later := by
    rw [returned_cons, back]
    cases blocked : (channel.after earlier).blocked <;>
      simp [perform, dropReceiver_eq, blocked, Reply.returned?]
  have all : channel.returned (earlier ++ .dropReceiver :: later) =
      (channel.after earlier).blocked.toList ++ handed later := by
    rw [returned_append, nothing, released, List.nil_append]
  have taken : channel.received (earlier ++ .dropReceiver :: later) =
      channel.received earlier := by
    rw [received_append, received_cons, received, List.append_nil]
    exact List.append_nil _
  refine ⟨?_, all⟩
  calc
    channel.contents ++ handed (earlier ++ .dropReceiver :: later)
    _ = (channel.contents ++ handed earlier) ++ handed later := by
        rw [handed, List.filterMap_append, ← handed, List.append_assoc]
        rfl
    _ = channel.received earlier ++ (channel.after earlier).contents ++ handed later := by
        rw [balanced]
    _ = channel.received earlier ++ (channel.after earlier).buffered ++
          ((channel.after earlier).blocked.toList ++ handed later) := by
        simp only [BoundedQueue.contents, List.append_assoc]
    _ = _ := by rw [taken, all]

end Orderly

namespace Sound

/-- No send is blocked on an empty channel. -/
theorem blocked_of_empty (sound : channel.Sound) (empty : channel.buffered = []) :
    channel.blocked = none := by
  cases blocked : channel.blocked with
  | none => rfl
  | some item =>
      have full := sound.full_of_blocked (by simp [blocked])
      rw [empty] at full
      exact absurd sound.capacity_pos (Nat.not_lt.mpr full)

/-- The channel that a send is blocked on has a receiver, and an item for it. -/
theorem exists_first (sound : channel.Sound) (blocked : channel.blocked = some item) :
    channel.receiverAlive = true ∧ ∃ first later, channel.buffered = first :: later := by
  cases buffered : channel.buffered with
  | nil => cases blocked.symm.trans (sound.blocked_of_empty buffered)
  | cons first later =>
      refine ⟨?_, first, later, rfl⟩
      cases receiver : channel.receiverAlive with
      | true => rfl
      | false => cases buffered.symm.trans (sound.empty_of_dropped receiver)

theorem send_eq_blocked_iff (sound : channel.Sound) (permits : channel.Permits (.send item)) :
    (channel.send item).1 = .blocked ↔
      channel.receiverAlive = true ∧ channel.buffered.length = channel.capacity := by
  rw [send_eq_push permits.1 permits.2, SendResult.ofPush_eq_blocked_iff,
    BoundedQueue.push_eq_waiting_iff]
  exact and_congr_right fun _ => ⟨Nat.le_antisymm sound.length_le, Nat.le_of_eq ∘ Eq.symm⟩

end Sound

theorem receive_eq_ended_iff (receiver : channel.receiverAlive = true) :
    channel.receive.1 = .ended ↔ channel.buffered = [] ∧ channel.senderAlive = false := by
  rw [receive_eq_pop receiver, ReceiveResult.ofPop_eq_ended_iff,
    BoundedQueue.pop_eq_disconnected_iff]

theorem receive_eq_waiting_iff (receiver : channel.receiverAlive = true) :
    channel.receive.1 = .waiting ↔ channel.buffered = [] ∧ channel.senderAlive = true := by
  rw [receive_eq_pop receiver, ReceiveResult.ofPop_eq_waiting_iff, BoundedQueue.pop_eq_waiting_iff]

/-- Where everything that was handed over is received or held, the channel is empty exactly if all
of it is received. -/
theorem Sound.buffered_eq_nil_iff (sound : channel.Sound) {earlier all : List α}
    (balanced : earlier ++ channel.buffered ++ channel.blocked.toList = all) :
    channel.buffered = [] ↔ channel.blocked = none ∧ earlier = all := by
  constructor
  · intro empty
    have unblocked := sound.blocked_of_empty empty
    exact ⟨unblocked, by simpa [empty, unblocked] using balanced⟩
  · rintro ⟨unblocked, rfl⟩
    simpa [unblocked] using balanced

theorem sound_create (capacity : Nat) : (create capacity : Channel α).Sound where
  capacity_pos := Nat.le_max_right capacity 1
  length_le := Nat.zero_le _
  full_of_blocked := fun blocked => absurd rfl blocked
  empty_of_dropped := fun _ => rfl

/-- The channel is a bounded queue that neither loses nor duplicates an item. It holds at most as
many items as it has places, and a send is blocked exactly if all of them are taken. The next
receive lets the blocked item in, whether or not the sender has been dropped meanwhile. What was
received, is buffered and is blocked is what was handed over, in order. A drop of the receiver loses
what is buffered; the blocked item and all later ones go back to their senders. -/
theorem calls_conserve {capacity : Nat} (orderly : (create capacity).Orderly calls)
    (reached : (create capacity).after calls = channel) :
    (channel.senderAlive = true ↔ .dropSender ∉ calls) ∧
    (channel.receiverAlive = true ↔ .dropReceiver ∉ calls) ∧
    channel.buffered.length ≤ max capacity 1 ∧
    (∀ item, channel.Permits (.send item) →
      ((channel.send item).1 = .blocked ↔
        channel.receiverAlive = true ∧ channel.buffered.length = max capacity 1) ∧
      (channel.receiverAlive = false → channel.send item = (.returned item, channel))) ∧
    (∀ item, channel.blocked = some item →
      channel.dropReceiver.1 = some (.returned item) ∧
      ∃ first later, channel.buffered = first :: later ∧
        channel.receive =
          (.item first, some .accepted,
            { channel with buffered := later ++ [item], blocked := none }) ∧
        channel.dropSender.receive =
          (.item first, some .accepted,
            { channel.dropSender with buffered := later ++ [item], blocked := none })) ∧
    (.dropReceiver ∉ calls →
      (create capacity).received calls ++ channel.buffered ++ channel.blocked.toList =
        handed calls ∧
      (create capacity).returned calls = [] ∧
      (channel.receive.1 = .ended ↔
        .dropSender ∈ calls ∧ channel.blocked = none ∧
          (create capacity).received calls = handed calls) ∧
      (channel.receive.1 = .waiting ↔ .dropSender ∉ calls ∧ channel.buffered = [])) ∧
    ∀ earlier later, calls = earlier ++ .dropReceiver :: later →
      (create capacity).received calls ++ ((create capacity).after earlier).buffered ++
          (create capacity).returned calls = handed calls ∧
      (create capacity).returned calls =
        ((create capacity).after earlier).blocked.toList ++ handed later ∧
      channel.buffered = [] ∧ channel.blocked = none := by
  subst reached
  have sound := orderly.sound (sound_create capacity)
  have places : ((create capacity).after calls).capacity = max capacity 1 := orderly.capacity_eq
  have sender : ((create capacity).after calls).senderAlive = true ↔ .dropSender ∉ calls :=
    orderly.senderAlive_iff.trans (and_iff_right rfl)
  have receiver : ((create capacity).after calls).receiverAlive = true ↔ .dropReceiver ∉ calls :=
    orderly.receiverAlive_iff.trans (and_iff_right rfl)
  refine ⟨sender, receiver, places ▸ sound.length_le, ?_, ?_, ?_, ?_⟩
  · intro item permits
    refine ⟨?_, send_of_dropped permits.1 permits.2⟩
    rw [← places]
    exact sound.send_eq_blocked_iff permits
  · intro item blocked
    obtain ⟨alive, first, later, buffered⟩ := sound.exists_first blocked
    refine ⟨by simp [dropReceiver_eq, blocked], first, later, buffered, ?_, ?_⟩
    · exact receive_of_blocked alive buffered blocked
    · apply receive_of_blocked
      · exact alive
      · exact buffered
      · exact blocked
  · intro kept
    obtain ⟨balanced, nothing⟩ := orderly.balance rfl kept
    have conserved : (create capacity).received calls ++ ((create capacity).after calls).buffered ++
        ((create capacity).after calls).blocked.toList = handed calls := by
      rw [List.append_assoc]
      exact balanced.symm
    have alive := receiver.mpr kept
    refine ⟨conserved, nothing, ?_, ?_⟩
    · rw [receive_eq_ended_iff alive, Bool.eq_false_iff, ne_eq, sender, Classical.not_not, and_comm,
        sound.buffered_eq_nil_iff conserved]
    · rw [receive_eq_waiting_iff alive, sender, and_comm]
  · rintro earlier later rfl
    obtain ⟨conserved, back⟩ := orderly.balance_of_dropReceiver rfl
    have dropped : ((create capacity).after (earlier ++ .dropReceiver :: later)).receiverAlive =
        false := by
      rw [Bool.eq_false_iff, ne_eq, receiver]
      simp
    have empty := sound.empty_of_dropped dropped
    exact ⟨conserved.symm, back, empty, sound.blocked_of_empty empty⟩

/-- On a channel that was asked to hold nothing, a send stays blocked while its sender is dropped,
and comes back when the receiver is. -/
theorem calls_conserve_specimen :
    (create 0 : Channel Nat).Orderly [.send 7, .send 8, .dropSender] ∧
      ((create 0).after [.send 7, .send 8, .dropSender]).blocked = some 8 ∧
      (∃ first later,
        ((create 0).after [.send 7, .send 8, .dropSender]).receive =
          (.item first, some .accepted, later) ∧ first = 7 ∧ later.buffered = [8]) ∧
      handed [.send 7, .send 8, .dropSender, .receive, .receive] = [7, 8] ∧
      (create 0).received [.send 7, .send 8, .dropSender, .receive, .receive] = [7, 8] ∧
      ((create 0).after [.send 7, .send 8, .dropSender, .receive, .receive]).receive.1 = .ended ∧
      (create 0).returned [.send 7, .send 8, .dropReceiver, .send 9] = [8, 9] := by
  have orderly : (create 0 : Channel Nat).Orderly [.send 7, .send 8, .dropSender] :=
    ⟨⟨rfl, rfl⟩, ⟨rfl, rfl⟩, rfl, trivial⟩
  have drained : (create 0 : Channel Nat).Orderly
      [.send 7, .send 8, .dropSender, .receive, .receive] :=
    ⟨⟨rfl, rfl⟩, ⟨rfl, rfl⟩, rfl, rfl, rfl, trivial⟩
  have refused : (create 0 : Channel Nat).Orderly [.send 7, .send 8, .dropReceiver, .send 9] :=
    ⟨⟨rfl, rfl⟩, ⟨rfl, rfl⟩, rfl, ⟨rfl, rfl⟩, trivial⟩
  obtain ⟨_, _, _, _, admits, _⟩ := calls_conserve orderly rfl
  obtain ⟨_, first, later, buffered, received, _⟩ := admits 8 rfl
  cases buffered
  obtain ⟨_, _, _, _, _, conserves, _⟩ := calls_conserve drained rfl
  obtain ⟨_, _, ended, _⟩ := conserves (by decide)
  obtain ⟨_, _, _, _, _, _, dropped⟩ := calls_conserve refused rfl
  obtain ⟨_, returned, _⟩ := dropped [.send 7, .send 8] [.send 9] rfl
  exact ⟨orderly, rfl, ⟨7, _, received, rfl, rfl⟩, rfl, rfl,
    ended.mpr ⟨by decide, rfl, rfl⟩, returned⟩

end BinaryRecord.Channel
