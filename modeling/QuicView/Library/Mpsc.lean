import Mathlib.Data.List.Basic

/-!
# Bounded channels

The channel is a parameter, an interface with what code written against it relies on as its laws; a
list with a capacity is an instance. An operation that waits has no outcome yet, and whose turn it
is among the senders that wait is left open.
-/

structure Mpsc (Value : Type) where
  Channel : Type
  /-- A channel of a capacity, or nothing where that panics. -/
  channel : Nat → Option Channel
  /-- Whether the value was queued, and the channel after it. -/
  send : Channel → Value → Option (Bool × Channel)
  /-- The value received, or that none will come, and the channel after it. -/
  recv : Channel → Option (Option Value × Channel)
  close : Channel → Channel
  dropReceiver : Channel → Channel
  capacity : Channel → Nat
  closed : Channel → Bool
  queued : Channel → List Value

namespace Mpsc

variable {Value : Type}

structure Becomes (M : Mpsc Value) (before after : M.Channel) (queued : List Value)
    (closed : Bool) : Prop where
  queued_eq : M.queued after = queued
  closed_eq : M.closed after = closed
  capacity_eq : M.capacity after = M.capacity before

structure Lawful (M : Mpsc Value) : Prop where
  channel_zero : M.channel 0 = none
  queued_channel {n : Nat} {c : M.Channel} : M.channel n = some c → M.queued c = []
  closed_channel {n : Nat} {c : M.Channel} : M.channel n = some c → M.closed c = false
  capacity_channel {n : Nat} {c : M.Channel} : M.channel n = some c → M.capacity c = n
  send_closed (c : M.Channel) (v : Value) : M.closed c = true → M.send c v = some (false, c)
  send_full (c : M.Channel) (v : Value) : M.closed c = false →
    M.capacity c ≤ (M.queued c).length → M.send c v = none
  send_room (c : M.Channel) (v : Value) : M.closed c = false →
    (M.queued c).length < M.capacity c →
      ∃ c', M.send c v = some (true, c') ∧ M.Becomes c c' (M.queued c ++ [v]) false
  recv_queued (c : M.Channel) (v : Value) (rest : List Value) : M.queued c = v :: rest →
    ∃ c', M.recv c = some (some v, c') ∧ M.Becomes c c' rest (M.closed c)
  recv_closed (c : M.Channel) : M.queued c = [] → M.closed c = true →
    M.recv c = some (none, c)
  recv_empty (c : M.Channel) : M.queued c = [] → M.closed c = false → M.recv c = none
  becomes_close (c : M.Channel) : M.Becomes c (M.close c) (M.queued c) true
  becomes_dropReceiver (c : M.Channel) : M.Becomes c (M.dropReceiver c) [] true

namespace Lawful

variable {M : Mpsc Value}

theorem send_cases (hM : M.Lawful) (c : M.Channel) (v : Value) :
    (M.closed c = true ∧ M.send c v = some (false, c))
      ∨ (M.closed c = false ∧ M.capacity c ≤ (M.queued c).length ∧ M.send c v = none)
      ∨ (M.closed c = false ∧ (M.queued c).length < M.capacity c
          ∧ ∃ c', M.send c v = some (true, c') ∧ M.Becomes c c' (M.queued c ++ [v]) false) := by
  cases hclosed : M.closed c with
  | true => exact .inl ⟨rfl, hM.send_closed c v hclosed⟩
  | false =>
      right
      rcases Nat.lt_or_ge (M.queued c).length (M.capacity c) with hroom | hfull
      · exact .inr ⟨rfl, hroom, hM.send_room c v hclosed hroom⟩
      · exact .inl ⟨rfl, hfull, hM.send_full c v hclosed hfull⟩

theorem recv_cases (hM : M.Lawful) (c : M.Channel) :
    (∃ v rest c', M.queued c = v :: rest ∧ M.recv c = some (some v, c')
        ∧ M.Becomes c c' rest (M.closed c))
      ∨ (M.queued c = [] ∧ M.closed c = true ∧ M.recv c = some (none, c))
      ∨ (M.queued c = [] ∧ M.closed c = false ∧ M.recv c = none) := by
  cases hqueued : M.queued c with
  | cons v rest =>
      obtain ⟨c', hrecv, hafter⟩ := hM.recv_queued c v rest hqueued
      exact .inl ⟨v, rest, c', rfl, hrecv, hafter⟩
  | nil =>
      right
      cases hclosed : M.closed c with
      | true => exact .inl ⟨rfl, rfl, hM.recv_closed c hqueued hclosed⟩
      | false => exact .inr ⟨rfl, rfl, hM.recv_empty c hqueued hclosed⟩

end Lawful

structure Fifo (Value : Type) where
  values : List Value
  capacity : Nat
  closed : Bool

namespace Fifo

def new (n : Nat) : Option (Fifo Value) :=
  if n = 0 then none else some { values := [], capacity := n, closed := false }

def send (c : Fifo Value) (v : Value) : Option (Bool × Fifo Value) :=
  if c.closed then some (false, c)
  else if c.values.length < c.capacity then some (true, { c with values := c.values ++ [v] })
  else none

def recv (c : Fifo Value) : Option (Option Value × Fifo Value) :=
  match c.values with
  | v :: rest => some (some v, { c with values := rest })
  | [] => if c.closed then some (none, c) else none

variable {n : Nat} {c : Fifo Value}

theorem new_eq_some (hnew : new n = some c) :
    c = { values := [], capacity := n, closed := false } :=
  (Option.some.inj (Option.ite_none_left_eq_some.mp hnew).2).symm

theorem send_open (hclosed : c.closed = false) (v : Value) :
    c.send v
      = if c.values.length < c.capacity then some (true, { c with values := c.values ++ [v] })
        else none :=
  if_neg (hclosed ▸ Bool.false_ne_true)

theorem recv_nil (hvalues : c.values = []) :
    c.recv = if c.closed then some (none, c) else none := by
  rw [recv, hvalues]

theorem recv_cons {v : Value} {rest : List Value} (hvalues : c.values = v :: rest) :
    c.recv = some (some v, { c with values := rest }) := by
  rw [recv, hvalues]

end Fifo

def fifo (Value : Type) : Mpsc Value where
  Channel := Fifo Value
  channel := Fifo.new
  send := Fifo.send
  recv := Fifo.recv
  close c := { c with closed := true }
  dropReceiver c := { c with values := [], closed := true }
  capacity := Fifo.capacity
  closed := Fifo.closed
  queued := Fifo.values

theorem fifo_lawful (Value : Type) : (fifo Value).Lawful where
  channel_zero := rfl
  queued_channel hnew := congrArg Fifo.values (Fifo.new_eq_some hnew)
  closed_channel hnew := congrArg Fifo.closed (Fifo.new_eq_some hnew)
  capacity_channel hnew := congrArg Fifo.capacity (Fifo.new_eq_some hnew)
  send_closed _ _ hclosed := if_pos hclosed
  send_full _ v hclosed hfull := (Fifo.send_open hclosed v).trans (if_neg (Nat.not_lt.mpr hfull))
  send_room c v hclosed hroom :=
    ⟨{ c with values := c.values ++ [v] }, (Fifo.send_open hclosed v).trans (if_pos hroom),
      rfl, hclosed, rfl⟩
  recv_queued c _ rest hvalues :=
    ⟨{ c with values := rest }, Fifo.recv_cons hvalues, rfl, rfl, rfl⟩
  recv_closed _ hvalues hclosed := (Fifo.recv_nil hvalues).trans (if_pos hclosed)
  recv_empty _ hvalues hclosed :=
    (Fifo.recv_nil hvalues).trans (if_neg (Bool.eq_false_iff.mp hclosed))
  becomes_close _ := ⟨rfl, rfl, rfl⟩
  becomes_dropReceiver _ := ⟨rfl, rfl, rfl⟩

end Mpsc
