import Mathlib.Data.List.Basic
import Mathlib.Order.Basic

/-!
# Buffered channels

A channel with its buffer and the receivers that wait for it. `received` records what receivers have
taken, so that `passed` is everything that was ever sent, in order. Receivers only wait while the buffer
is empty, and the buffer is not longer than the channel allows; both are part of the channel.
-/

namespace GoChan

variable {α : Type*}

/-- A channel. -/
structure Chan (α : Type*) where
  capacity : ℕ
  buffer : List α
  waiting : ℕ
  closed : Bool
  received : List α
  fits : buffer.length ≤ capacity
  idle : 0 < waiting → buffer = []

namespace Chan

/-- A new channel. -/
def make (capacity : ℕ) : Chan α := ⟨capacity, [], 0, false, [], Nat.zero_le _, fun _ => rfl⟩

/-- What was sent, in order: what was received and then what is still buffered. -/
def passed (c : Chan α) : List α := c.received ++ c.buffer

/-- The send of a `select` with a default: to a receiver that waits, or else into the buffer if there is
room. -/
def trySend (c : Chan α) (x : α) : Option (Chan α) :=
  if hwaiting : 0 < c.waiting then
    some { c with
      waiting := c.waiting - 1
      received := c.received ++ [x]
      idle := fun _ => c.idle hwaiting }
  else if hroom : c.buffer.length < c.capacity then
    some { c with
      buffer := c.buffer ++ [x]
      fits := List.length_append.trans_le hroom
      idle := fun hpos => absurd hpos hwaiting }
  else none

/-- A receive: it takes the first buffered element, returns at once from a closed channel, and waits
otherwise. -/
def receive (c : Chan α) : Chan α :=
  match hbuffer : c.buffer with
  | x :: rest =>
    { c with
      buffer := rest
      received := c.received ++ [x]
      fits := Nat.le_of_succ_le ((congrArg List.length hbuffer).symm.trans_le c.fits)
      idle := fun hpos => nomatch hbuffer.symm.trans (c.idle hpos) }
  | [] => if c.closed then c else { c with waiting := c.waiting + 1, idle := fun _ => hbuffer }

/-- A receiver that waits turns to something else. -/
def giveUp (c : Chan α) : Chan α :=
  { c with
    waiting := c.waiting - 1
    idle := fun hpos => c.idle (Nat.lt_of_lt_of_le hpos (Nat.sub_le _ _)) }

/-- Closing a channel releases its receivers. -/
def close (c : Chan α) : Chan α :=
  { c with closed := true, waiting := 0, idle := fun hpos => nomatch hpos }

/-- Nothing has passed a new channel. -/
@[simp] theorem passed_make (capacity : ℕ) : (make capacity : Chan α).passed = [] := rfl

/-- A send that goes through is the last to have passed. -/
theorem passed_trySend {c c' : Chan α} {x : α} (h : c.trySend x = some c') :
    c'.passed = c.passed ++ [x] := by
  unfold trySend at h
  split_ifs at h with hwaiting hroom
  · obtain rfl := Option.some.inj h
    simp only [passed, c.idle hwaiting, List.append_nil]
  · obtain rfl := Option.some.inj h
    simp only [passed, List.append_assoc]

/-- A send does not close the channel. -/
theorem closed_trySend {c c' : Chan α} {x : α} (h : c.trySend x = some c') : c'.closed = c.closed := by
  unfold trySend at h
  split_ifs at h
  · obtain rfl := Option.some.inj h
    rfl
  · obtain rfl := Option.some.inj h
    rfl

/-- A receive leaves what has passed. -/
@[simp] theorem passed_receive (c : Chan α) : c.receive.passed = c.passed := by
  unfold receive
  split
  · rename_i x rest hbuffer
    simp only [passed, hbuffer, List.append_assoc, List.cons_append, List.nil_append]
  · split_ifs <;> rfl

/-- A receive does not close the channel. -/
@[simp] theorem closed_receive (c : Chan α) : c.receive.closed = c.closed := by
  unfold receive
  split
  · rfl
  · split_ifs <;> rfl

/-- Giving up leaves what has passed. -/
@[simp] theorem passed_giveUp (c : Chan α) : c.giveUp.passed = c.passed := rfl

/-- Giving up does not close the channel. -/
@[simp] theorem closed_giveUp (c : Chan α) : c.giveUp.closed = c.closed := rfl

end Chan

end GoChan
