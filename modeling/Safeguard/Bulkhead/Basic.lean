import Safeguard.Bulkhead.Config

/-!
# The bulkhead

A bulkhead has a fixed number of slots. A call takes a free slot, waits for one,
or is turned away. Waiting calls are served in the order in which they came: a
slot that becomes free is handed to the first of them at once, and is kept for it
until it takes up its work. A waiting call may leave the queue; a slot that was
already handed to it then goes to the next in line.

## Main definitions

* `Bulkhead`: slots, queue and counters. Calls are named by keys of any type.
* `Bulkhead.tryEnter`, `Bulkhead.enqueue`, `Bulkhead.resume`, `Bulkhead.leave`,
  `Bulkhead.release`: what a call does with a slot.
-/

namespace Safeguard

/-- Slots, the calls that wait for one, and counters. -/
structure Bulkhead (κ : Type) where
  /-- The configuration in force. -/
  config : Bulkhead.Config
  /-- Free slots. -/
  available : Nat
  /-- Calls that wait, first come first served. -/
  queue : List κ
  /-- Calls that a slot was handed to and that have not taken up their work. -/
  handed : List κ
  /-- Calls that hold a slot. -/
  active : Nat
  /-- The most calls that ever held a slot at once. -/
  maxActive : Nat
  /-- Calls that were turned away for lack of a slot. -/
  rejected : Nat

namespace Bulkhead

/-- A snapshot of a bulkhead. -/
structure Metrics where
  active : Nat
  maxActive : Nat
  available : Nat
  capacity : Nat
  rejected : Nat
deriving DecidableEq, Repr

variable {κ : Type}

/-- The number of slots. -/
def capacity (b : Bulkhead κ) : Nat := b.config.maxConcurrent.toNat

/-- A bulkhead with all slots free; its number of slots is clamped. -/
def new (c : Config) : Bulkhead κ where
  config := c.clamp
  available := c.clamp.maxConcurrent.toNat
  queue := []
  handed := []
  active := 0
  maxActive := 0
  rejected := 0

/-- Counts a call that now holds a slot. -/
def occupy (b : Bulkhead κ) : Bulkhead κ :=
  { b with active := b.active + 1, maxActive := max b.maxActive (b.active + 1) }

/-- Takes a free slot, if there is one. -/
def tryEnter (b : Bulkhead κ) : Option (Bulkhead κ) :=
  if 0 < b.available then some { b with available := b.available - 1 }.occupy else none

/-- Counts a call that is turned away. -/
def reject (b : Bulkhead κ) : Bulkhead κ := { b with rejected := b.rejected + 1 }

/-- Puts a call at the end of the queue. -/
def enqueue (b : Bulkhead κ) (key : κ) : Bulkhead κ := { b with queue := b.queue ++ [key] }

/-- Gives a slot back: the first call in the queue gets it and is to be woken;
without a queue it is free. -/
def giveBack (b : Bulkhead κ) : Bulkhead κ × Option κ :=
  match b.queue with
  | [] => ({ b with available := b.available + 1 }, none)
  | next :: rest => ({ b with queue := rest, handed := b.handed ++ [next] }, some next)

/-- A call that held a slot is done with it. -/
def release (b : Bulkhead κ) : Bulkhead κ × Option κ :=
  { b with active := b.active - 1 }.giveBack

variable [DecidableEq κ]

/-- A call takes up the slot that was handed to it, if one was. -/
def resume (b : Bulkhead κ) (key : κ) : Option (Bulkhead κ) :=
  if key ∈ b.handed then some { b with handed := b.handed.erase key }.occupy else none

/-- A call stops waiting. A slot that was handed to it is given back. -/
def leave (b : Bulkhead κ) (key : κ) : Bulkhead κ × Option κ :=
  if key ∈ b.handed then { b with handed := b.handed.erase key }.giveBack
  else ({ b with queue := b.queue.erase key }, none)

/-- A snapshot. -/
def metrics (b : Bulkhead κ) : Metrics :=
  ⟨b.active, b.maxActive, b.available, b.capacity, b.rejected⟩

end Bulkhead

end Safeguard
