import Mathlib.Data.List.Basic

/-!
# Watch channels

A watch channel keeps the last value sent, for any number of receivers. The channel is a parameter,
an interface with what code written against it relies on as its laws; one value with a count of its
receivers is an instance.
-/

structure Watch (Value : Type) where
  Channel : Type
  channel : Value → Channel
  /-- Whether the send succeeded, and the channel after it. -/
  send : Channel → Value → Bool × Channel
  subscribe : Channel → Channel
  cloneReceiver : Channel → Channel
  dropReceiver : Channel → Channel
  dropSender : Channel → Channel
  receiverCount : Channel → Nat
  borrow : Channel → Value
  /-- Whether a receiver that waits for a change is told that none will come. -/
  closed : Channel → Bool

namespace Watch

variable {Value : Type}

structure Lawful (W : Watch Value) : Prop where
  borrow_channel (v : Value) : W.borrow (W.channel v) = v
  borrow_send (c : W.Channel) (v : Value) :
    W.borrow (W.send c v).2 = if W.receiverCount c = 0 then W.borrow c else v
  borrow_subscribe (c : W.Channel) : W.borrow (W.subscribe c) = W.borrow c
  borrow_cloneReceiver (c : W.Channel) : W.borrow (W.cloneReceiver c) = W.borrow c
  borrow_dropReceiver (c : W.Channel) : W.borrow (W.dropReceiver c) = W.borrow c
  borrow_dropSender (c : W.Channel) : W.borrow (W.dropSender c) = W.borrow c
  receiverCount_channel (v : Value) : W.receiverCount (W.channel v) = 1
  receiverCount_send (c : W.Channel) (v : Value) :
    W.receiverCount (W.send c v).2 = W.receiverCount c
  receiverCount_subscribe (c : W.Channel) :
    W.receiverCount (W.subscribe c) = W.receiverCount c + 1
  receiverCount_cloneReceiver (c : W.Channel) :
    W.receiverCount (W.cloneReceiver c) = W.receiverCount c + 1
  receiverCount_dropReceiver (c : W.Channel) :
    W.receiverCount (W.dropReceiver c) = W.receiverCount c - 1
  receiverCount_dropSender (c : W.Channel) :
    W.receiverCount (W.dropSender c) = W.receiverCount c
  closed_channel (v : Value) : W.closed (W.channel v) = false
  closed_send (c : W.Channel) (v : Value) : W.closed (W.send c v).2 = W.closed c
  closed_subscribe (c : W.Channel) : W.closed (W.subscribe c) = W.closed c
  closed_cloneReceiver (c : W.Channel) : W.closed (W.cloneReceiver c) = W.closed c
  closed_dropReceiver (c : W.Channel) : W.closed (W.dropReceiver c) = W.closed c
  closed_dropSender (c : W.Channel) : W.closed (W.dropSender c) = true

structure Cell (Value : Type) where
  value : Value
  receivers : Nat
  orphaned : Bool

namespace Cell

def send (c : Cell Value) (v : Value) : Bool × Cell Value :=
  if c.receivers = 0 then (false, c) else (true, { c with value := v })

theorem value_send (c : Cell Value) (v : Value) :
    (c.send v).2.value = if c.receivers = 0 then c.value else v := by
  unfold send
  split <;> rfl

theorem receivers_send (c : Cell Value) (v : Value) : (c.send v).2.receivers = c.receivers := by
  unfold send
  split <;> rfl

theorem orphaned_send (c : Cell Value) (v : Value) : (c.send v).2.orphaned = c.orphaned := by
  unfold send
  split <;> rfl

end Cell

def cell (Value : Type) : Watch Value where
  Channel := Cell Value
  channel v := { value := v, receivers := 1, orphaned := false }
  send := Cell.send
  subscribe c := { c with receivers := c.receivers + 1 }
  cloneReceiver c := { c with receivers := c.receivers + 1 }
  dropReceiver c := { c with receivers := c.receivers - 1 }
  dropSender c := { c with orphaned := true }
  receiverCount := Cell.receivers
  borrow := Cell.value
  closed := Cell.orphaned

theorem cell_lawful (Value : Type) : (cell Value).Lawful where
  borrow_channel _ := rfl
  borrow_send := Cell.value_send
  borrow_subscribe _ := rfl
  borrow_cloneReceiver _ := rfl
  borrow_dropReceiver _ := rfl
  borrow_dropSender _ := rfl
  receiverCount_channel _ := rfl
  receiverCount_send := Cell.receivers_send
  receiverCount_subscribe _ := rfl
  receiverCount_cloneReceiver _ := rfl
  receiverCount_dropReceiver _ := rfl
  receiverCount_dropSender _ := rfl
  closed_channel _ := rfl
  closed_send := Cell.orphaned_send
  closed_subscribe _ := rfl
  closed_cloneReceiver _ := rfl
  closed_dropReceiver _ := rfl
  closed_dropSender _ := rfl

end Watch
