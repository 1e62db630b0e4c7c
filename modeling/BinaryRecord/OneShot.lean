/-!
# One-shot signals

A signal carries at most one item from a sender, which firing uses up, to a receiver, which looks
for the item without waiting.
-/

set_option autoImplicit false

namespace BinaryRecord

structure OneShot (α : Type) where
  /-- The item that has been fired and not yet taken. -/
  fired : Option α
  senderAlive : Bool
  receiverAlive : Bool
  deriving DecidableEq, Repr

inductive FireResult (α : Type) where
  | accepted
  | returned (item : α)
  /-- The sender has fired before or has been dropped. -/
  | closed
  deriving DecidableEq, Repr

namespace OneShot

variable {α : Type}

def create : OneShot α :=
  { fired := none, senderAlive := true, receiverAlive := true }

/-- Fires the signal, which uses up its sender. -/
def fire (signal : OneShot α) (item : α) : FireResult α × OneShot α :=
  if !signal.senderAlive then (.closed, signal)
  else if signal.receiverAlive then
    (.accepted, { signal with fired := some item, senderAlive := false })
  else
    (.returned item, { signal with senderAlive := false })

def take (signal : OneShot α) : Option α × OneShot α :=
  (signal.fired, { signal with fired := none })

def dropSender (signal : OneShot α) : OneShot α :=
  { signal with senderAlive := false }

def dropReceiver (signal : OneShot α) : OneShot α :=
  { signal with receiverAlive := false }

end OneShot

end BinaryRecord
