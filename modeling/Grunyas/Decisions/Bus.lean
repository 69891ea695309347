import Grunyas.Go.Chan
import Grunyas.Go.Maps
import Grunyas.Machine.Run
import Grunyas.Machine.Threads
import Mathlib.Data.Int.Order.Basic
import Mathlib.Data.Option.Basic

/-!
# The decision bus

Any number of goroutines publish on the bus, subscribe to it, receive from their channels, drain their
drop counters, unsubscribe and close it. `Publish` checks under the write lock whether the bus is closed
and delivers under the read lock; a subscriber whose channel does not take the event gets a drop on its
own counter and then one on that of the bus. Every atomic step of a goroutine is one move; a move that
needs a lock held by others does nothing.

A value is what is sent: what `Publish` writes into it before it takes a lock is part of it. The moments
at which calls begin and end, the receivers and drains of the past, and the calls that visited a
subscription are recorded; nothing is decided by them.
-/

namespace Grunyas.Decisions

open GoChan (Chan)
open GoMap (Range)
open Machine

/-- A value on its way to a subscriber, with the call of `Publish` that sent it and the moment. -/
structure Delivery (Value : Type) where
  value : Value
  call : ℕ
  sent : ℕ

/-- A subscription. `drained` adds up what was drained of the drops, `visitors` are the calls of
`Publish` that came to it, and it is registered between the two moments. -/
structure Sub (Value : Type) where
  id : ℕ
  ch : Chan (Delivery Value)
  drops : ℕ := 0
  drained : ℕ := 0
  visitors : List ℕ := []
  subscribed : ℕ
  unsubscribed : Option ℕ := none

/-- What a call of `Publish` does next. From `visiting` to `counting` it holds the read lock, with the
subscriptions that it has not visited yet. -/
inductive PublishPhase where
  | checking
  | locking
  | visiting (pending : List ℕ)
  | dropping (ref : ℕ) (pending : List ℕ)
  | counting (pending : List ℕ)
  | returned
  deriving DecidableEq

/-- A call of `Publish`. -/
structure Publication (Value : Type) where
  value : Value
  phase : PublishPhase := .checking
  began : ℕ
  ended : Option ℕ := none

/-- The bus, with every subscription and every call of `Publish` that there was. -/
structure Bus (Value : Type) where
  subscribers : Finmap (fun _ : ℕ => ℕ) := ∅
  nextSubID : ℕ := 0
  closed : Bool := false
  maxSubs : ℤ
  bufSize : ℤ
  droppedSubOverflow : ℕ := 0
  subs : List (Sub Value) := []
  publications : List (Publication Value) := []
  clock : ℕ := 0
  panicked : Bool := false

/-- A move: a goroutine calls a function of the bus or of a subscription, or a call of `Publish` takes
its next step; at the read lock the order in which it will visit the subscribers is chosen. -/
inductive BusMove (Value : Type) where
  | publish (value : Value)
  | next (call : ℕ) (order : (m : Finmap fun _ : ℕ => ℕ) → Range m)
  | subscribe
  | unsub (ref : ℕ)
  | receive (ref : ℕ)
  | giveUp (ref : ℕ)
  | drainDropped (ref : ℕ)
  | close

/-- The subscriptions that a call still has to visit, while it holds the read lock. -/
def PublishPhase.reading? : PublishPhase → Option (List ℕ)
  | .visiting pending => some pending
  | .dropping _ pending => some pending
  | .counting pending => some pending
  | _ => none

variable {Value : Type}

/-- The read lock is held. -/
def Bus.reading (b : Bus Value) : Bool := b.publications.any fun p => p.phase.reading?.isSome

/-- A call goes on with another step. -/
def Bus.goto (b : Bus Value) (i : ℕ) (p : Publication Value) (phase : PublishPhase) : Bus Value :=
  { b with publications := b.publications.set i { p with phase := phase } }

/-- A call returns. -/
def Bus.leave (b : Bus Value) (i : ℕ) (p : Publication Value) : Bus Value :=
  { b with publications := b.publications.set i { p with phase := .returned, ended := some b.clock } }

/-- A subscription changes. -/
def Bus.setSub (b : Bus Value) (ref : ℕ) (sub : Sub Value) : Bus Value :=
  { b with subs := b.subs.set ref sub }

/-- The `select` of `Publish` at a subscription. -/
def Bus.visit (b : Bus Value) (i : ℕ) (p : Publication Value) (ref : ℕ) (pending : List ℕ)
    (sub : Sub Value) : Bus Value :=
  let visited := { sub with visitors := sub.visitors ++ [i] }
  if sub.ch.closed then { b with panicked := true }
  else
    match sub.ch.trySend ⟨p.value, i, b.clock⟩ with
    | some ch => (b.setSub ref { visited with ch := ch }).goto i p (.visiting pending)
    | none => (b.setSub ref visited).goto i p (.dropping ref pending)

/-- The next step of a call of `Publish`. -/
def Bus.advance (b : Bus Value) (order : (m : Finmap fun _ : ℕ => ℕ) → Range m) (i : ℕ)
    (p : Publication Value) : Bus Value :=
  match p.phase with
  | .checking =>
    if b.reading then b else if b.closed then b.leave i p else b.goto i p .locking
  | .locking => b.goto i p (.visiting ((order b.subscribers).entries.map Sigma.snd))
  | .visiting [] => b.leave i p
  | .visiting (ref :: pending) =>
    match b.subs[ref]? with
    | some sub => b.visit i p ref pending sub
    | none => b
  | .dropping ref pending =>
    match b.subs[ref]? with
    | some sub => (b.setSub ref { sub with drops := sub.drops + 1 }).goto i p (.counting pending)
    | none => b
  | .counting pending =>
    { b with droppedSubOverflow := b.droppedSubOverflow + 1 }.goto i p (.visiting pending)
  | .returned => b

/-- Register a new subscription. -/
def Bus.addSub (b : Bus Value) : Bus Value :=
  { b with
    nextSubID := b.nextSubID + 1
    subscribers := b.subscribers.insert b.nextSubID b.subs.length
    subs := b.subs ++ [{ id := b.nextSubID, ch := Chan.make b.bufSize.toNat, subscribed := b.clock }] }

/-- `Subscribe`. A negative buffer size makes the creation of the channel panic, after the identifier
was taken. -/
def Bus.subscribe (b : Bus Value) : Bus Value :=
  if b.closed then b
  else if b.maxSubs ≤ b.subscribers.keys.card then b
  else if b.bufSize < 0 then { b with nextSubID := b.nextSubID + 1 }
  else b.addSub

/-- A subscription ends, if it has not ended before. -/
def Sub.unregister (sub : Sub Value) (now : ℕ) : Sub Value :=
  { sub with unsubscribed := sub.unsubscribed.or (some now) }

/-- `Unsub` of a subscription. -/
def Bus.unsub (b : Bus Value) (ref : ℕ) (sub : Sub Value) : Bus Value :=
  { b.setSub ref (sub.unregister b.clock) with subscribers := b.subscribers.erase sub.id }

/-- The map has the subscription. -/
def Bus.registers (b : Bus Value) (ref : ℕ) (sub : Sub Value) : Bool :=
  decide (b.subscribers.lookup sub.id = some ref)

/-- `Close`. Closing a channel twice is a panic. -/
def Bus.close (b : Bus Value) : Bus Value :=
  { b with
    closed := true
    subs := b.subs.mapIdx fun ref sub =>
      if b.registers ref sub then { sub.unregister b.clock with ch := sub.ch.close } else sub
    subscribers := ∅
    panicked := b.panicked ||
      (b.subs.mapIdx fun ref sub => b.registers ref sub && sub.ch.closed).any id }

/-- A goroutine works on a subscription by itself. -/
def Bus.update (b : Bus Value) (ref : ℕ) (f : Sub Value → Sub Value) : Bus Value :=
  match b.subs[ref]? with
  | some sub => b.setSub ref (f sub)
  | none => b

/-- The bus after a move, apart from the clock. -/
def Bus.act (b : Bus Value) : BusMove Value → Bus Value
  | .publish value => { b with publications := b.publications ++ [{ value := value, began := b.clock }] }
  | .next i order =>
    match b.publications[i]? with
    | some p => b.advance order i p
    | none => b
  | .subscribe => if b.reading then b else b.subscribe
  | .unsub ref =>
    match b.subs[ref]? with
    | some sub => if b.reading then b else b.unsub ref sub
    | none => b
  | .receive ref => b.update ref fun sub => { sub with ch := sub.ch.receive }
  | .giveUp ref => b.update ref fun sub => { sub with ch := sub.ch.giveUp }
  | .drainDropped ref => b.update ref fun sub =>
      { sub with drops := 0, drained := sub.drained + sub.drops }
  | .close => if b.reading then b else b.close

/-- A move takes a moment. -/
def Bus.step (b : Bus Value) (move : BusMove Value) : Bus Value :=
  { b.act move with clock := b.clock + 1 }

/-- `NewBus`. -/
def newBus (Value : Type) (maxSubscribers perSubscriberBuffer : ℤ) : Bus Value :=
  { maxSubs := maxSubscribers, bufSize := perSubscriberBuffer }

/-- What a move can do, apart from the clock, and when. -/
inductive Bus.Change (b : Bus Value) : Bus Value → Prop where
  | idle : Change b b
  | publish (value : Value) :
      Change b { b with publications := b.publications ++ [{ value := value, began := b.clock }] }
  | proceed {i : ℕ} {p : Publication Value} (hi : b.publications[i]? = some p)
      (hphase : p.phase = .checking) : Change b (b.goto i p .locking)
  | enter {i : ℕ} {p : Publication Value} (order : Range b.subscribers)
      (hi : b.publications[i]? = some p) (hphase : p.phase = .locking) :
      Change b (b.goto i p (.visiting (order.entries.map Sigma.snd)))
  | refuse {i : ℕ} {p : Publication Value} (hi : b.publications[i]? = some p)
      (hphase : p.phase = .checking) (hclosed : b.closed = true) : Change b (b.leave i p)
  | leave {i : ℕ} {p : Publication Value} (hi : b.publications[i]? = some p)
      (hphase : p.phase = .visiting []) : Change b (b.leave i p)
  | deliver {i ref : ℕ} {p : Publication Value} {pending : List ℕ} {sub : Sub Value}
      {ch : Chan (Delivery Value)} (hi : b.publications[i]? = some p)
      (hphase : p.phase = .visiting (ref :: pending)) (hsub : b.subs[ref]? = some sub)
      (hsend : sub.ch.trySend ⟨p.value, i, b.clock⟩ = some ch) :
      Change b ((b.setSub ref { sub with ch := ch, visitors := sub.visitors ++ [i] }).goto i p
        (.visiting pending))
  | overflow {i ref : ℕ} {p : Publication Value} {pending : List ℕ} {sub : Sub Value}
      (hi : b.publications[i]? = some p) (hphase : p.phase = .visiting (ref :: pending))
      (hsub : b.subs[ref]? = some sub) :
      Change b ((b.setSub ref { sub with visitors := sub.visitors ++ [i] }).goto i p
        (.dropping ref pending))
  | panic {i ref : ℕ} {p : Publication Value} {pending : List ℕ} {sub : Sub Value}
      (hi : b.publications[i]? = some p) (hphase : p.phase = .visiting (ref :: pending))
      (hsub : b.subs[ref]? = some sub) (hclosed : sub.ch.closed = true) :
      Change b { b with panicked := true }
  | drop {i ref : ℕ} {p : Publication Value} {pending : List ℕ} {sub : Sub Value}
      (hi : b.publications[i]? = some p) (hphase : p.phase = .dropping ref pending)
      (hsub : b.subs[ref]? = some sub) :
      Change b ((b.setSub ref { sub with drops := sub.drops + 1 }).goto i p (.counting pending))
  | count {i : ℕ} {p : Publication Value} {pending : List ℕ} (hi : b.publications[i]? = some p)
      (hphase : p.phase = .counting pending) :
      Change b ({ b with droppedSubOverflow := b.droppedSubOverflow + 1 }.goto i p (.visiting pending))
  | skipID : Change b { b with nextSubID := b.nextSubID + 1 }
  | subscribe (hfree : b.reading = false) (hopen : b.closed = false)
      (hroom : (b.subscribers.keys.card : ℤ) < b.maxSubs) : Change b b.addSub
  | unsub {ref : ℕ} {sub : Sub Value} (hfree : b.reading = false) (hsub : b.subs[ref]? = some sub) :
      Change b (b.unsub ref sub)
  | close (hfree : b.reading = false) : Change b b.close
  | work {ref : ℕ} {sub : Sub Value} {ch : Chan (Delivery Value)} {drops drained : ℕ}
      (hsub : b.subs[ref]? = some sub) (hpassed : ch.passed = sub.ch.passed)
      (hclosed : ch.closed = sub.ch.closed) (htotal : drained + drops = sub.drained + sub.drops) :
      Change b (b.setSub ref { sub with ch := ch, drops := drops, drained := drained })

/-- What a step of a call of `Publish` can do. -/
theorem Bus.advance_change (b : Bus Value) (order : (m : Finmap fun _ : ℕ => ℕ) → Range m) {i : ℕ}
    {p : Publication Value} (hi : b.publications[i]? = some p) : b.Change (b.advance order i p) := by
  unfold advance
  cases hphase : p.phase with
  | checking =>
    dsimp only
    split_ifs with hreading hclosed
    · exact .idle
    · exact .refuse hi hphase hclosed
    · exact .proceed hi hphase
  | locking => exact .enter (order b.subscribers) hi hphase
  | visiting pending =>
    cases pending with
    | nil => exact .leave hi hphase
    | cons ref pending =>
      dsimp only
      cases hsub : b.subs[ref]? with
      | none => exact .idle
      | some sub =>
        dsimp only [visit]
        split_ifs with hclosed
        · exact .panic hi hphase hsub hclosed
        · cases hsend : sub.ch.trySend ⟨p.value, i, b.clock⟩ with
          | some ch => exact .deliver hi hphase hsub hsend
          | none => exact .overflow hi hphase hsub
  | dropping ref pending =>
    dsimp only
    cases hsub : b.subs[ref]? with
    | none => exact .idle
    | some sub => exact .drop hi hphase hsub
  | counting pending => exact .count hi hphase
  | returned => exact .idle

/-- What `Subscribe` can do. -/
theorem Bus.subscribe_change (b : Bus Value) (hfree : b.reading = false) : b.Change b.subscribe := by
  unfold Bus.subscribe
  split_ifs with hclosed hfull hsize
  · exact .idle
  · exact .idle
  · exact .skipID
  · exact .subscribe hfree (eq_false_of_ne_true hclosed) (not_le.mp hfull)

/-- What a goroutine that works on a subscription can do. -/
theorem Bus.update_change (b : Bus Value) (ref : ℕ) {f : Sub Value → Sub Value}
    (hf : ∀ sub, b.subs[ref]? = some sub → b.Change (b.setSub ref (f sub))) :
    b.Change (b.update ref f) := by
  unfold update
  cases hsub : b.subs[ref]? with
  | none => exact .idle
  | some sub => exact hf sub hsub

/-- What a move can do. -/
theorem Bus.act_change (b : Bus Value) (move : BusMove Value) : b.Change (b.act move) := by
  cases move with
  | publish value => exact .publish value
  | next i order =>
    dsimp only [act]
    cases hi : b.publications[i]? with
    | none => exact .idle
    | some p => exact b.advance_change order hi
  | subscribe =>
    dsimp only [act]
    split_ifs with hreading
    · exact .idle
    · exact b.subscribe_change (eq_false_of_ne_true hreading)
  | unsub ref =>
    dsimp only [act]
    cases hsub : b.subs[ref]? with
    | none => exact .idle
    | some sub =>
      dsimp only
      split_ifs with hreading
      · exact .idle
      · exact .unsub (eq_false_of_ne_true hreading) hsub
  | receive ref =>
    exact b.update_change ref fun sub hsub =>
      .work hsub sub.ch.passed_receive sub.ch.closed_receive rfl
  | giveUp ref =>
    exact b.update_change ref fun sub hsub => .work hsub sub.ch.passed_giveUp sub.ch.closed_giveUp rfl
  | drainDropped ref => exact b.update_change ref fun sub hsub => .work hsub rfl rfl rfl
  | close =>
    dsimp only [act]
    split_ifs with hreading
    · exact .idle
    · exact .close (eq_false_of_ne_true hreading)

end Grunyas.Decisions
