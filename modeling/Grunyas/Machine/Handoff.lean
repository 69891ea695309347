import Mathlib.Data.List.Basic

/-!
# Handing messages over with an acknowledgement

A reader receives messages one by one, offers each on a channel without a buffer, and receives the
next one only when the taker has acknowledged it. A reader that is cancelled leaves at its next
wait. A sequence of readers in which each is started after its predecessor has left behaves like
its last one.
-/

namespace Machine

/-- Where a reader is. -/
inductive ReadPc (Msg : Type*) where
  | receiving
  | offering (msg : Msg)
  | awaitingAck
  | exited
  deriving DecidableEq, Repr

/-- A reader, with the messages it has received and those it has handed over. -/
structure Reader (Msg : Type*) where
  pc : ReadPc Msg
  cancelled : Bool
  received : List Msg
  handed : List Msg
  deriving DecidableEq, Repr

variable {Msg : Type*}

/-- A reader at its start. -/
def Reader.start : Reader Msg := ⟨.receiving, false, [], []⟩

/-- A message arrives. -/
def Reader.receive (r : Reader Msg) (msg : Msg) : Reader Msg :=
  match r.pc with
  | .receiving => { r with pc := .offering msg, received := r.received ++ [msg] }
  | _ => r

/-- The source fails. -/
def Reader.fail (r : Reader Msg) : Reader Msg :=
  match r.pc with
  | .receiving => { r with pc := .exited }
  | _ => r

/-- The message on offer. -/
def Reader.offer (r : Reader Msg) : Option Msg :=
  match r.pc with
  | .offering msg => some msg
  | _ => none

/-- The message on offer is taken. -/
def Reader.handOver (r : Reader Msg) : Reader Msg :=
  match r.pc with
  | .offering msg => { r with pc := .awaitingAck, handed := r.handed ++ [msg] }
  | _ => r

/-- The taker is done with the message. -/
def Reader.acknowledge (r : Reader Msg) : Reader Msg :=
  match r.pc with
  | .awaitingAck => { r with pc := .receiving }
  | _ => r

/-- The reader is told to leave. -/
def Reader.cancel (r : Reader Msg) : Reader Msg := { r with cancelled := true }

/-- A reader that was told to leave leaves, wherever it waits. -/
def Reader.observeCancel (r : Reader Msg) : Reader Msg :=
  if r.cancelled then { r with pc := .exited } else r

/-- Everything received was handed over or is on offer. -/
def Reader.Lossless (r : Reader Msg) : Prop := r.received = r.handed ++ r.offer.toList

/-- A change of a reader that has no effect on one that has left. -/
def KeepsExited (f : Reader Msg → Reader Msg) : Prop := ∀ r, r.pc = .exited → f r = r

/-- A step that a reader takes on its own: nothing is handed over or acknowledged. -/
structure OwnStep (f : Reader Msg → Reader Msg) : Prop where
  exited : KeepsExited f
  awaits : ∀ r, (f r).pc = .awaitingAck ↔ r.pc = .awaitingAck
  cancelled : ∀ r, (f r).cancelled = r.cancelled
  handed : ∀ r, (f r).handed = r.handed
  lossless : ∀ r, r.Lossless → (f r).Lossless

/-- A message that arrives is on offer. -/
theorem ownStep_receive (msg : Msg) : OwnStep fun r => r.receive msg := by
  constructor <;> intro r <;> cases hpc : r.pc <;>
    simp_all [Reader.receive, Reader.Lossless, Reader.offer]

/-- A reader whose source fails leaves. -/
theorem ownStep_fail : OwnStep fun r : Reader Msg => r.fail := by
  constructor <;> intro r <;> cases hpc : r.pc <;>
    simp_all [Reader.fail, Reader.Lossless, Reader.offer]

/-- A reader leaves once. -/
theorem keepsExited_observeCancel : KeepsExited fun r : Reader Msg => r.observeCancel := by
  intro r h
  cases r
  cases h
  simp [Reader.observeCancel]

/-- A reader that was not told to leave stays. -/
theorem Reader.observeCancel_of_calm {r : Reader Msg} (h : r.cancelled = false) :
    r.observeCancel = r := by
  simp [Reader.observeCancel, h]

/-- A reader that waits for its acknowledgement or has left, told to leave or not. -/
theorem Reader.observeCancel_cases {r : Reader Msg} (h : r.pc = .awaitingAck ∨ r.pc = .exited) :
    (r.observeCancel.pc = .awaitingAck ∨ r.observeCancel.pc = .exited) ∧
      r.observeCancel.cancelled = r.cancelled ∧ r.observeCancel.handed = r.handed := by
  unfold Reader.observeCancel
  split_ifs
  · exact ⟨.inr rfl, rfl, rfl⟩
  · exact ⟨h, rfl, rfl⟩

/-- A reader with a message on offer has not left. -/
theorem Reader.not_exited_of_offer {r : Reader Msg} {msg : Msg} (h : r.offer = some msg) :
    r.pc ≠ .exited := by
  intro hexited
  simp [Reader.offer, hexited] at h

/-- A reader that waits for an acknowledgement has nothing on offer. -/
theorem Reader.offer_of_awaits {r : Reader Msg} (h : r.pc = .awaitingAck) : r.offer = none := by
  simp [Reader.offer, h]

/-- A reader whose message was taken waits for its acknowledgement. -/
theorem Reader.handOver_of_offer {r : Reader Msg} {msg : Msg} (h : r.offer = some msg) :
    r.handOver = { r with pc := .awaitingAck, handed := r.handed ++ [msg] } := by
  cases hpc : r.pc <;> simp_all [Reader.offer, Reader.handOver]

/-- A reader that waits for an acknowledgement goes on when it gets it. -/
theorem Reader.acknowledge_of_awaits {r : Reader Msg} (h : r.pc = .awaitingAck) :
    r.acknowledge = { r with pc := .receiving } := by
  simp [Reader.acknowledge, h]

/-- A reader at its start has lost nothing. -/
theorem Reader.lossless_start : (Reader.start : Reader Msg).Lossless := rfl

/-- What was on offer is handed over. -/
theorem Reader.Lossless.handOver {r : Reader Msg} (h : r.Lossless) : r.handOver.Lossless := by
  cases hpc : r.pc <;> simp_all [Reader.Lossless, Reader.handOver, Reader.offer]

/-- An acknowledged reader has nothing on offer. -/
theorem Reader.Lossless.acknowledge {r : Reader Msg} (h : r.Lossless) : r.acknowledge.Lossless := by
  cases hpc : r.pc <;> simp_all [Reader.Lossless, Reader.acknowledge, Reader.offer]

/-- A reader that leaves with nothing on offer has lost nothing. -/
theorem Reader.Lossless.observeCancel {r : Reader Msg} (h : r.Lossless) (hoffer : r.offer = none) :
    r.observeCancel.Lossless := by
  unfold Reader.observeCancel
  split_ifs
  · rw [Reader.Lossless, hoffer] at h
    exact h
  · exact h

section Succession

variable {old : List (Reader Msg)} {cur : Option (Reader Msg)}

/-- A change at the last place of a succession changes the reader there. -/
theorem modify_length_append (f : Reader Msg → Reader Msg) :
    (old ++ cur.toList).modify old.length f = old ++ (cur.map f).toList := by
  induction old with
  | nil => cases cur <;> rfl
  | cons r old ih => simp [ih]

/-- A reader that has not left is the last one. -/
theorem eq_last_of_not_exited (hold : ∀ r ∈ old, r.pc = .exited) {k : ℕ} {r : Reader Msg}
    (hget : (old ++ cur.toList)[k]? = some r) (hpc : r.pc ≠ .exited) :
    k = old.length ∧ cur = some r := by
  induction old generalizing k with
  | nil =>
    cases k with
    | zero =>
      cases cur with
      | none => simp at hget
      | some s => exact ⟨rfl, by simpa using hget⟩
    | succ k => cases cur <;> simp at hget
  | cons s old ih =>
    cases k with
    | zero =>
      obtain rfl : s = r := by simpa using hget
      exact absurd (hold s List.mem_cons_self) hpc
    | succ k =>
      obtain ⟨rfl, hcur⟩ := ih (fun r hr => hold r (List.mem_cons_of_mem _ hr)) (by simpa using hget)
      exact ⟨rfl, hcur⟩

/-- A change that keeps readers that have left changes the last one at most. -/
theorem modify_of_exited (hold : ∀ r ∈ old, r.pc = .exited) {f : Reader Msg → Reader Msg}
    (hf : KeepsExited f) {k : ℕ} (hk : k ≠ old.length) :
    (old ++ cur.toList).modify k f = old ++ cur.toList := by
  induction old generalizing k with
  | nil =>
    cases k with
    | zero => exact absurd rfl hk
    | succ k => cases cur <;> simp
  | cons r old ih =>
    cases k with
    | zero => simp [hf r (hold r List.mem_cons_self)]
    | succ k =>
      have hk : k ≠ old.length := fun h => hk (congrArg Nat.succ h)
      simp [ih (fun r hr => hold r (List.mem_cons_of_mem _ hr)) hk]

/-- Only the last reader has a message on offer. -/
theorem flatMap_offer (hold : ∀ r ∈ old, r.pc = .exited) :
    ((old ++ cur.toList).flatMap fun r => r.offer.toList) = (cur.bind Reader.offer).toList := by
  induction old with
  | nil => cases cur <;> simp
  | cons r old ih =>
    have hoffer : r.offer = none := by simp [Reader.offer, hold r List.mem_cons_self]
    simp only [List.cons_append, List.flatMap_cons, hoffer, Option.toList_none, List.nil_append]
    exact ih fun r hr => hold r (List.mem_cons_of_mem _ hr)

/-- What a succession has received was handed over, reader by reader, or is on offer. -/
theorem flatMap_received (hold : ∀ r ∈ old, r.pc = .exited)
    (hlossless : ∀ r ∈ old ++ cur.toList, r.Lossless) :
    (old ++ cur.toList).flatMap Reader.received =
      (old ++ cur.toList).flatMap Reader.handed ++ (cur.bind Reader.offer).toList := by
  induction old with
  | nil =>
    cases cur with
    | none => rfl
    | some r => simpa [Reader.Lossless] using hlossless
  | cons r old ih =>
    have hoffer : r.offer = none := by simp [Reader.offer, hold r List.mem_cons_self]
    have hr : r.received = r.handed := by
      simpa [Reader.Lossless, hoffer] using hlossless r List.mem_cons_self
    have hrest := ih (fun r hr => hold r (List.mem_cons_of_mem _ hr))
      fun r hr => hlossless r (List.mem_cons_of_mem _ hr)
    simp only [List.cons_append, List.flatMap_cons, hr, hrest, List.append_assoc]

end Succession

end Machine
