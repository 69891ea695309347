import Grunyas.Session.Goroutines

/-!
# The end of a session

Leases and calls of `Close` are kept in order by every step of the goroutines. Only the read loop of the
last lease can be running, and every connection that was acquired was given back, is being given back
or is held. One call at a time is in the body of `Close`; when the body has run the connection is
closed and the client's read loop has returned.

No goroutine outlives `Run` (`run_outlives_goroutines`), and none reads the client after a call of `Close`
has returned (`closed_not_reading`). Once the connection is closed the session settles (`close_settles`):
it cannot go on, and every goroutine and every caller of `Close` returns, except that `Run` may be stuck in
a write to the upstream.
-/

namespace Grunyas.Server

open GoText Machine

/-- The lease that `Run` is giving back, and its connection. -/
def RunPc.handing : RunPc → Option (ℕ × ConnId)
  | .releasing lease conn _ => some (lease, conn)
  | .releaseStuck lease conn => some (lease, conn)
  | _ => none

/-- `Run` has made its deferred release. -/
def RunPc.gone : RunPc → Bool
  | .closing _ true => true
  | .returned => true
  | _ => false

/-- The call of `Close` that `Run` is in. -/
def RunPc.closePc : RunPc → Option ClosePc
  | .closing pc _ => some pc
  | _ => none

/-- `Run` has returned. -/
def RunPc.isReturned : RunPc → Bool
  | .returned => true
  | _ => false

/-- A write to the upstream does not return. -/
def RunPc.stuck : RunPc → Bool
  | .flushStuck => true
  | .releaseStuck _ _ => true
  | _ => false

/-- Where `Run` is plain it has no part in leases or in `Close`. -/
theorem RunPc.of_plain {pc : RunPc} (h : pc.plain) :
    pc.handing = none ∧ pc.gone = false ∧ pc.closePc = none ∧ pc.isReturned = false := by
  cases pc <;> first | exact ⟨rfl, rfl, rfl, rfl⟩ | cases h

/-- `Run` may go on to where it is plain. -/
theorem RunPc.onward_of_plain {pc : RunPc} (h : pc.plain) : pc.onward := by
  unfold RunPc.onward
  split
  · rfl
  · exact h

/-- Where `Run` goes on to it may be at the start of `Close`. -/
theorem RunPc.of_onward {pc : RunPc} (h : pc.onward) :
    pc.handing = none ∧ pc.gone = false ∧
      (pc.closePc = none ∨ pc.closePc = some .entering) ∧ pc.isReturned = false := by
  unfold RunPc.onward at h
  split at h
  · exact ⟨rfl, rfl, .inr rfl, rfl⟩
  · obtain ⟨hhanding, hgone, hclose, hreturned⟩ := RunPc.of_plain h
    exact ⟨hhanding, hgone, .inl hclose, hreturned⟩

/-- What the goroutines know of the leases. -/
structure LeaseView where
  upstream : Option ConnId
  attached : Option ℕ
  handing : Option (ℕ × ConnId)
  gone : Bool
  leases : List LeaseLoop
  ctxDone : Bool
  acquired : List ConnId
  givenBack : List ConnId

/-- The leases of a session. -/
def Goroutines.leaseView (n : Goroutines) : LeaseView where
  upstream := n.sess.upstream
  attached := n.attached
  handing := n.run.handing
  gone := n.run.gone
  leases := n.leases
  ctxDone := n.ctxDone
  acquired := n.acquired
  givenBack := n.givenBack

namespace LeaseView

/-- The lease whose read loop may be running. -/
def current (v : LeaseView) : Option ℕ := (v.handing.map Prod.fst).or v.attached

/-- Every connection acquired was given back, is being given back or is held, there is one read loop for
each, and only that of the last may be running. -/
structure Ordered (v : LeaseView) : Prop where
  ledger : v.acquired = v.givenBack ++ ((v.handing.map Prod.snd).toList ++ v.upstream.toList)
  attached : v.attached = none ↔ v.upstream = none
  handing : v.handing ≠ none → v.attached = none
  live : ∀ k l, v.leases[k]? = some l → l.pc ≠ .exited → v.current = some k
  last : ∀ k, v.current = some k → k + 1 = v.leases.length
  sized : v.leases.length = v.acquired.length
  cancelled : v.ctxDone → ∀ l ∈ v.leases, l.cancelled
  gone : v.gone → v.attached = none

variable {v : LeaseView}

/-- One step of a read loop: a loop that has returned stays so. -/
theorem Ordered.setLease (h : v.Ordered) {k : ℕ} {old : LeaseLoop} (new : LeaseLoop)
    (hk : v.leases[k]? = some old) (hpc : new.pc ≠ .exited → old.pc ≠ .exited)
    (hcancelled : new.cancelled = old.cancelled) :
    { v with leases := v.leases.set k new }.Ordered := by
  refine ⟨h.ledger, h.attached, h.handing, ?_, ?_, List.length_set.trans h.sized, ?_, h.gone⟩
  · intro j l hj hlive
    rw [getElem?_set_of_getElem? hk] at hj
    split_ifs at hj with hsame
    · obtain rfl := Option.some.inj hj
      subst hsame
      exact h.live j old hk (hpc hlive)
    · exact h.live j l hj hlive
  · intro j hj
    rw [List.length_set]
    exact h.last j hj
  · intro hctx
    refine forall_mem_set (h.cancelled hctx) ?_
    rw [hcancelled]
    exact h.cancelled hctx old (List.mem_of_getElem? hk)

/-- Cancelling the context of the session. -/
theorem Ordered.cancel (h : v.Ordered) :
    { v with ctxDone := true, leases := v.leases.map LeaseLoop.cancel }.Ordered := by
  refine ⟨h.ledger, h.attached, h.handing, ?_, ?_, (List.length_map _).trans h.sized, ?_, h.gone⟩
  · intro k l hk hlive
    rw [List.getElem?_map, Option.map_eq_some_iff] at hk
    obtain ⟨old, hold, rfl⟩ := hk
    exact h.live k old hold hlive
  · intro k hk
    rw [List.length_map]
    exact h.last k hk
  · intro _ l hl
    obtain ⟨old, -, rfl⟩ := List.mem_map.mp hl
    rfl

/-- The read loop of a new lease. -/
theorem Ordered.attach (h : v.Ordered) (conn : ConnId) (hhanding : v.handing = none)
    (hfree : v.upstream = none) (hgone : v.gone = false) :
    { v with
      upstream := some conn
      attached := some v.leases.length
      leases := v.leases ++ [LeaseLoop.mk .receiving v.ctxDone v.ctxDone]
      acquired := v.acquired ++ [conn] }.Ordered := by
  have hattached := h.attached.mpr hfree
  constructor
  · simp [h.ledger, hhanding, hfree]
  · simp
  · intro hne
    exact absurd hhanding hne
  · intro k l hk hlive
    obtain hold | ⟨rfl, -⟩ := getElem?_concat_eq_some hk
    · have hcur := h.live k l hold hlive
      simp [current, hhanding, hattached] at hcur
    · simp [current, hhanding]
  · intro k hk
    simp only [current, hhanding, Option.map_none, Option.none_or, Option.some.injEq] at hk
    simp [hk]
  · simp [h.sized]
  · intro hctx l hl
    obtain hold | hnew := List.mem_append.mp hl
    · exact h.cancelled hctx l hold
    · obtain rfl := List.mem_singleton.mp hnew
      exact hctx
  · intro hgone'
    simp [hgone] at hgone'

/-- Giving back the lease: its context is cancelled. -/
theorem Ordered.letGo (h : v.Ordered) {lease : ℕ} {conn : ConnId} (hhanding : v.handing = none)
    (hattached : v.attached = some lease) (hup : v.upstream = some conn) :
    { v with
      upstream := none
      attached := none
      handing := some (lease, conn)
      gone := false
      leases := v.leases.modify lease LeaseLoop.cancel }.Ordered := by
  have hcurrent : v.current = some lease := by simp [current, hhanding, hattached]
  constructor
  · simp [h.ledger, hhanding, hup]
  · simp
  · exact fun _ => rfl
  · intro k l hk hlive
    rw [List.getElem?_modify, Option.map_eq_map, Option.map_eq_some_iff] at hk
    obtain ⟨old, hold, rfl⟩ := hk
    have hcur : v.current = some k := by
      refine h.live k old hold fun hexited => hlive ?_
      split_ifs <;> exact hexited
    rw [hcurrent] at hcur
    exact hcur
  · intro k hk
    rw [List.length_modify]
    exact h.last k (hcurrent.trans hk)
  · rw [List.length_modify]
    exact h.sized
  · intro hctx l hl
    obtain ⟨k, hk⟩ := List.mem_iff_getElem?.mp hl
    rw [List.getElem?_modify, Option.map_eq_map, Option.map_eq_some_iff] at hk
    obtain ⟨old, hold, rfl⟩ := hk
    split_ifs
    · rfl
    · exact h.cancelled hctx old (List.mem_of_getElem? hold)
  · exact fun _ => rfl

/-- The lease is given back when its read loop has returned. -/
theorem Ordered.released (h : v.Ordered) {lease : ℕ} {conn : ConnId} {l : LeaseLoop} (gone : Bool)
    (hhanding : v.handing = some (lease, conn)) (hl : v.leases[lease]? = some l)
    (hended : l.pc = .exited) :
    { v with handing := none, gone := gone, givenBack := v.givenBack ++ [conn] }.Ordered := by
  have hattached := h.handing (by simp [hhanding])
  have hcurrent : v.current = some lease := by simp [current, hhanding]
  constructor
  · simp [h.ledger, hhanding]
  · exact h.attached
  · exact fun hne => absurd rfl hne
  · intro k j hj hlive
    obtain rfl := Option.some.inj (hcurrent.symm.trans (h.live k j hj hlive))
    obtain rfl := Option.some.inj (hl.symm.trans hj)
    exact absurd hended hlive
  · intro k hk
    simp [current, hattached] at hk
  · exact h.sized
  · exact h.cancelled
  · exact fun _ => hattached

/-- Without a lease `Run` may be anywhere. -/
theorem Ordered.free (h : v.Ordered) (gone : Bool) (hnone : v.attached = none) :
    { v with gone := gone }.Ordered :=
  ⟨h.ledger, h.attached, h.handing, h.live, h.last, h.sized, h.cancelled, fun _ => hnone⟩

end LeaseView

namespace Goroutines

variable {n m : Goroutines}

/-- `Run` moves on and touches no lease. -/
theorem moved_ordered (h : n.leaseView.Ordered) {next : RunPc} (hplain : n.run.plain)
    (honward : next.onward) : { n with run := next }.leaseView.Ordered := by
  obtain ⟨hfrom, hhere, -⟩ := RunPc.of_plain hplain
  obtain ⟨hto, hthere, -⟩ := RunPc.of_onward honward
  have hview : { n with run := next }.leaseView = n.leaseView := by
    simp [leaseView, hfrom, hhere, hto, hthere]
  rwa [hview]

/-- `Run` stays where it is or moves on, and touches no lease. -/
theorem moves_ordered (h : n.leaseView.Ordered) {next : RunPc}
    (hmoves : next = n.run ∨ n.run.plain ∧ next.plain) :
    { n with run := next }.leaseView.Ordered := by
  obtain rfl | ⟨hplain, hnext⟩ := hmoves
  · exact h
  · exact moved_ordered h hplain (RunPc.onward_of_plain hnext)

/-- A turn that gives nothing back keeps the upstream or acquires one. -/
theorem record_ordered (h : n.leaseView.Ordered) {t : SessionTurn} {next : RunPc}
    (hplain : n.run.plain) (honward : next.onward) (hbalanced : TurnBalanced n.sess t)
    (hkeeps : t.acts.filterMap releasedBy = []) :
    { n.record t with run := next }.leaseView.Ordered := by
  obtain ⟨hfrom, hhere, -⟩ := RunPc.of_plain hplain
  obtain ⟨hto, hthere, -⟩ := RunPc.of_onward honward
  rw [TurnBalanced, hkeeps, List.nil_append] at hbalanced
  unfold Goroutines.record
  cases hup : n.sess.upstream with
  | none =>
    rw [hup, Option.toList_none, List.nil_append] at hbalanced
    cases hnew : t.state.upstream with
    | none =>
      have hview : { { n with sess := t.state } with run := next }.leaseView = n.leaseView := by
        simp [leaseView, hnew, hup, hfrom, hhere, hto, hthere]
      simpa [hbalanced, hnew] using hview ▸ h
    | some conn =>
      have hattach := h.attach conn hfrom hup hhere
      simpa [leaseView, Goroutines.attach, hbalanced, hnew, hfrom, hhere, hto, hthere] using hattach
  | some conn =>
    rw [hup, Option.toList_some, List.singleton_append] at hbalanced
    cases hnew : t.state.upstream with
    | none =>
      rw [hnew] at hbalanced
      cases hbalanced
    | some new =>
      rw [hnew, Option.toList_some, List.cons.injEq] at hbalanced
      obtain ⟨rfl, hnothing⟩ := hbalanced
      have hview : { { n with sess := t.state } with run := next }.leaseView = n.leaseView := by
        simp [leaseView, hnew, hup, hfrom, hhere, hto, hthere]
      simpa [hnothing] using hview ▸ h

/-- Giving back the lease, or going on without one. -/
theorem letGo_ordered (h : n.leaseView.Ordered) {sess : Session} (leaving : Bool) {next : RunPc}
    (hplain : n.run.plain) (hnext : next.handing = none) (hnone : sess.upstream = none) :
    (n.letGo sess leaving next).leaseView.Ordered := by
  have hfrom := (RunPc.of_plain hplain).1
  unfold letGo
  split
  · next lease conn hattached hup =>
    have hgo := h.letGo hfrom hattached hup
    simpa [leaseView, RunPc.handing, RunPc.gone, hnone] using hgo
  · next hfree =>
    have hattached : n.attached = none := by
      by_contra hsome
      obtain ⟨lease, hlease⟩ := Option.ne_none_iff_exists'.mp hsome
      obtain ⟨conn, hconn⟩ := Option.ne_none_iff_exists'.mp (fun hup => hsome (h.attached.mpr hup))
      exact hfree lease conn hlease hconn
    have hup : n.sess.upstream = none := h.attached.mp hattached
    have hfree := h.free next.gone hattached
    simpa [leaseView, hfrom, hnext, hnone, hup] using hfree

/-- A call of `Close` does not move `Run` or another caller, and takes no part in the exchange of
connections. -/
theorem closeStep_frame {pc : ClosePc} {r : Goroutines × ClosePc} (hr : n.closeStep pc = some r) :
    r.1.run = n.run ∧ r.1.closers = n.closers ∧ r.1.acquired = n.acquired ∧
      r.1.givenBack = n.givenBack := by
  unfold closeStep at hr
  split at hr
  · split at hr <;> cases hr <;> exact ⟨rfl, rfl, rfl, rfl⟩
  · cases hr
    exact ⟨rfl, rfl, rfl, rfl⟩
  · cases hr
    exact ⟨rfl, rfl, rfl, rfl⟩
  · cases hr
    exact ⟨rfl, rfl, rfl, rfl⟩
  · split_ifs at hr <;> cases hr <;> exact ⟨rfl, rfl, rfl, rfl⟩
  · split_ifs at hr
    cases hr
    exact ⟨rfl, rfl, rfl, rfl⟩
  · cases hr

/-- A call of `Close` touches the leases only to cancel them. -/
theorem closeStep_ordered (h : n.leaseView.Ordered) {pc : ClosePc} {r : Goroutines × ClosePc}
    (hr : n.closeStep pc = some r) : r.1.leaseView.Ordered := by
  unfold closeStep at hr
  split at hr
  · split at hr <;> cases hr <;> exact h
  · cases hr
    exact h
  · cases hr
    exact h.cancel
  · cases hr
    exact h
  · split_ifs at hr <;> cases hr <;> exact h
  · split_ifs at hr
    cases hr
    exact h
  · cases hr

/-- Where `Run` is after a step of its call it gives nothing back, and has let go if it is leaving. -/
theorem resume_handing (pc : ClosePc) (leaving : Bool) :
    (pc.resume leaving).handing = none ∧ (pc.resume leaving).gone = leaving := by
  cases pc <;> cases leaving <;> exact ⟨rfl, rfl⟩

/-- Every step keeps the leases in order. -/
theorem Effect.leaseOrdered {l : GoStep} (heffect : Effect n l m) (h : n.leaseView.Ordered) :
    m.leaseView.Ordered := by
  cases heffect with
  | client new next buffered errCh pc live moves cost => exact moves_ordered h moves
  | lease new next errCh pc live cancelled moves cost =>
    have hset := h.setLease new pc (fun _ => live) cancelled
    exact moves_ordered (n := n.setLease _ new) hset moves
  | cancel fresh => exact h.cancel
  | callsClose calls => exact h
  | closer calling step => exact closeStep_ordered h step
  | moved next errCh plain onward cost => exact moved_ordered h plain onward
  | start fresh plain => exact moved_ordered h plain rfl
  | served t next balanced keeps plain onward cost =>
    exact record_ordered h plain onward balanced keeps
  | relayed sess next keeps plain onward cost =>
    have hmoved := moved_ordered h plain onward
    rw [leaseView] at hmoved ⊢
    rwa [keeps]
  | letGo sess releaseCh none plain cost =>
    exact letGo_ordered (n := { n with releaseCh := releaseCh }) h false plain rfl none
  | leave sess none exiting => exact letGo_ordered h true (by rw [exiting]; rfl) rfl none
  | @released lease conn leaving loop releasing pc ended =>
    have hhanding : n.leaseView.handing = some (lease, conn) := by
      simp [leaseView, releasing, RunPc.handing]
    have hreleased := h.released leaving hhanding pc ended
    cases leaving <;> exact hreleased
  | releaseStuck releasing =>
    rw [leaseView, releasing] at h
    exact h
  | @runCloses pc leaving r closing step =>
    have hordered := closeStep_ordered h step
    obtain ⟨hhanding, hgone⟩ := resume_handing r.2 leaving
    have hfrom : r.1.run.handing = none ∧ r.1.run.gone = leaving := by
      rw [(closeStep_frame step).1, closing]
      cases leaving <;> exact ⟨rfl, rfl⟩
    rw [leaseView] at hordered ⊢
    rw [hfrom.1, hfrom.2] at hordered
    rwa [hhanding, hgone]

end Goroutines

/-- The call is in the body of `Close`. -/
def ClosePc.inside : ClosePc → Bool
  | .entering => false
  | .closed => false
  | _ => true

/-- What the calls of `Close` share. -/
structure Shared where
  once : Once
  ctxDone : Bool
  connClosed : Bool
  clientEnded : Bool

/-- What the calls of `Close` share in a session. -/
def Goroutines.shared (n : Goroutines) : Shared := ⟨n.once, n.ctxDone, n.connClosed, n.client.all ended⟩

/-- What holds where a call of `Close` is. -/
def Shared.Reached (v : Shared) : ClosePc → Prop
  | .closingConn => v.ctxDone
  | .checking => v.ctxDone ∧ v.connClosed
  | .waiting => v.ctxDone ∧ v.connClosed
  | .closed => v.once = .finished
  | _ => True

/-- The body of `Close` has the effect that its callers rely on. -/
structure Shared.Effective (v : Shared) : Prop where
  closed : v.connClosed → v.ctxDone
  finished : v.once = .finished → v.connClosed ∧ v.clientEnded

/-- One call of `Close` among others, of which so many are in its body. -/
structure Shared.Call (v : Shared) (others : ℕ) (pc : ClosePc) : Prop where
  alone : pc.inside.toNat + others = if v.once = .running then 1 else 0
  reached : v.Reached pc

/-- The calls of `Close`: that of `Run`, and those of others. -/
structure CloseView where
  shared : Shared
  own : Option ClosePc
  closers : List ClosePc
  returned : Bool

/-- The calls of `Close` of a session. -/
def Goroutines.closeView (n : Goroutines) : CloseView :=
  ⟨n.shared, n.run.closePc, n.closers, n.run.isReturned⟩

/-- One call at a time is in the body of `Close`. -/
structure CloseView.Ordered (v : CloseView) : Prop where
  effective : v.shared.Effective
  alone : (v.own.any ClosePc.inside).toNat + v.closers.countP ClosePc.inside =
    if v.shared.once = .running then 1 else 0
  own : ∀ pc ∈ v.own, v.shared.Reached pc ∧ pc ≠ .closed
  closers : ∀ pc ∈ v.closers, v.shared.Reached pc
  returned : v.returned → v.shared.once = .finished

namespace CloseView

variable {v : CloseView}

/-- `Run` moves on outside of `Close`, or calls it. -/
theorem Ordered.moved (h : v.Ordered) {own : Option ClosePc} (hfrom : v.own = none)
    (hto : own = none ∨ own = some .entering) : { v with own := own }.Ordered := by
  have halone := h.alone
  rw [hfrom] at halone
  refine ⟨h.effective, ?_, ?_, h.closers, h.returned⟩
  · obtain rfl | rfl := hto <;> exact halone
  · intro pc hpc
    obtain rfl | rfl := hto
    · cases hpc
    · cases hpc
      exact ⟨trivial, by simp⟩

/-- The client's read loop runs: the body of `Close` has not ended. -/
theorem Ordered.client (h : v.Ordered) (clientEnded : Bool)
    (hopen : v.shared.clientEnded = false ∨ v.shared.ctxDone = false) :
    { v with shared := { v.shared with clientEnded := clientEnded } }.Ordered := by
  refine ⟨⟨h.effective.closed, ?_⟩, h.alone, ?_, ?_, h.returned⟩
  · intro hfinished
    obtain ⟨hconn, hclient⟩ := h.effective.finished hfinished
    obtain hrunning | hctx := hopen
    · simp [hrunning] at hclient
    · have hdone := h.effective.closed hconn
      simp [hctx] at hdone
  · intro pc hpc
    obtain ⟨hreached, hopen⟩ := h.own pc hpc
    refine ⟨?_, hopen⟩
    cases pc <;> exact hreached
  · intro pc hpc
    have hreached := h.closers pc hpc
    cases pc <;> exact hreached

/-- Cancelling the context of the session. -/
theorem Ordered.cancel (h : v.Ordered) :
    { v with shared := { v.shared with ctxDone := true } }.Ordered := by
  have hkeeps : ∀ pc, v.shared.Reached pc → { v.shared with ctxDone := true }.Reached pc := by
    intro pc hpc
    cases pc with
    | closingConn => rfl
    | checking => exact ⟨rfl, hpc.2⟩
    | waiting => exact ⟨rfl, hpc.2⟩
    | _ => exact hpc
  exact ⟨⟨fun _ => rfl, h.effective.finished⟩, h.alone,
    fun pc hpc => (h.own pc hpc).imp_left (hkeeps pc), fun pc hpc => hkeeps pc (h.closers pc hpc),
    h.returned⟩

/-- Another caller of `Close`. -/
theorem Ordered.callsClose (h : v.Ordered) :
    { v with closers := v.closers ++ [ClosePc.entering] }.Ordered := by
  refine ⟨h.effective, ?_, h.own, ?_, h.returned⟩
  · rw [List.countP_append]
    exact h.alone
  · intro pc hpc
    obtain hold | hnew := List.mem_append.mp hpc
    · exact h.closers pc hold
    · obtain rfl := List.mem_singleton.mp hnew
      trivial

/-- A caller takes a step that keeps what the others rely on. -/
theorem Ordered.closer (h : v.Ordered) {i : ℕ} {pc next : ClosePc} {shared : Shared}
    (hpc : v.closers[i]? = some pc) (heffective : shared.Effective)
    (hkeeps : ∀ q, v.shared.Reached q → shared.Reached q)
    (hstep : ∀ others, v.shared.Call others pc → shared.Call others next) :
    { v with shared := shared, closers := v.closers.set i next }.Ordered := by
  have hcount := countP_set_add ClosePc.inside hpc next
  have halone := h.alone
  have hreached := h.closers pc (List.mem_of_getElem? hpc)
  have hpos : pc.inside.toNat ≤ v.closers.countP ClosePc.inside := by
    cases hin : pc.inside with
    | false => exact Nat.zero_le _
    | true => exact List.countP_pos_iff.mpr ⟨pc, List.mem_of_getElem? hpc, hin⟩
  have hcall := hstep
    ((v.own.any ClosePc.inside).toNat + v.closers.countP ClosePc.inside - pc.inside.toNat)
    ⟨by omega, hreached⟩
  refine ⟨heffective, ?_, fun q hq => (h.own q hq).imp_left (hkeeps q), ?_, ?_⟩
  · have hnext := hcall.alone
    dsimp only at hcount ⊢
    omega
  · exact forall_mem_set (fun q hq => hkeeps q (h.closers q hq)) hcall.reached
  · intro hreturned
    exact hkeeps .closed (h.returned hreturned)

/-- `Run` takes a step of its call that keeps what the others rely on. -/
theorem Ordered.runCloses (h : v.Ordered) {pc next : ClosePc} {shared : Shared} {own : Option ClosePc}
    {returned : Bool} (hpc : v.own = some pc) (heffective : shared.Effective)
    (hkeeps : ∀ q, v.shared.Reached q → shared.Reached q)
    (hstep : ∀ others, v.shared.Call others pc → shared.Call others next)
    (hown : own = some next ∧ next ≠ .closed ∨ own = none ∧ next = .closed)
    (hreturned : returned → next = .closed) :
    { v with shared := shared, own := own, returned := returned }.Ordered := by
  have halone := h.alone
  rw [hpc] at halone
  have hcall := hstep (v.closers.countP ClosePc.inside) ⟨halone, (h.own pc (by rw [hpc]; rfl)).1⟩
  refine ⟨heffective, ?_, ?_, fun q hq => hkeeps q (h.closers q hq), ?_⟩
  · obtain ⟨rfl, -⟩ | ⟨rfl, rfl⟩ := hown <;> exact hcall.alone
  · intro q hq
    obtain ⟨rfl, hopen⟩ | ⟨rfl, -⟩ := hown
    · cases hq
      exact ⟨hcall.reached, hopen⟩
    · cases hq
  · intro hret
    have hdone := hcall.reached
    rw [hreturned hret] at hdone
    exact hdone

end CloseView

namespace Goroutines

variable {n m : Goroutines}

/-- A step of a call of `Close` has its effect, keeps what other calls rely on, and no second call is
in the body. -/
structure Advances (n : Goroutines) (pc : ClosePc) (m : Goroutines) (next : ClosePc) : Prop where
  effective : m.shared.Effective
  keeps : ∀ q, n.shared.Reached q → m.shared.Reached q
  call : ∀ others, n.shared.Call others pc → m.shared.Call others next

/-- The body of `Close` ends when the client's read loop has returned. -/
theorem advances_finish {pc : ClosePc} (hinside : pc.inside = true)
    (hreached : n.ctxDone ∧ n.connClosed) (hended : n.client.all ended) :
    Advances n pc { n with once := .finished } .closed := by
  refine ⟨⟨fun _ => hreached.1, fun _ => ⟨hreached.2, hended⟩⟩, ?_, ?_⟩
  · intro q hq
    cases q with
    | closed => rfl
    | _ => exact hq
  · intro others hcall
    have halone := hcall.alone
    rw [hinside, Bool.toNat_true] at halone
    have hsole : others = 0 := by
      split_ifs at halone <;> omega
    exact ⟨by simp [shared, ClosePc.inside, hsole], rfl⟩

/-- One step of a call of `Close`. -/
theorem closeStep_advances {pc : ClosePc} {r : Goroutines × ClosePc}
    (heffective : n.shared.Effective) (hreached : n.shared.Reached pc)
    (hr : n.closeStep pc = some r) : Advances n pc r.1 r.2 := by
  obtain ⟨hclosed, hfinished⟩ := heffective
  unfold closeStep at hr
  split at hr
  · split at hr
    all_goals cases hr
    · next hfresh =>
      refine ⟨⟨hclosed, by simp [shared]⟩, ?_, ?_⟩
      · intro q hq
        cases q <;> simp_all [shared, Shared.Reached]
      · intro others hcall
        have halone := hcall.alone
        refine ⟨?_, trivial⟩
        simpa [shared, hfresh, ClosePc.inside] using halone
    · next hdone =>
      exact ⟨⟨hclosed, hfinished⟩, fun q hq => hq, fun _ hcall => ⟨hcall.alone, hdone⟩⟩
  · cases hr
    exact ⟨⟨hclosed, hfinished⟩, fun q hq => hq, fun _ hcall => ⟨hcall.alone, trivial⟩⟩
  · cases hr
    refine ⟨⟨fun _ => rfl, hfinished⟩, ?_, fun _ hcall => ⟨hcall.alone, rfl⟩⟩
    intro q hq
    cases q <;> simp_all [shared, cancel, Shared.Reached]
  · cases hr
    refine ⟨⟨fun _ => hreached, ?_⟩, ?_, fun _ hcall => ⟨hcall.alone, hreached, rfl⟩⟩
    · exact fun hdone => ⟨rfl, (hfinished hdone).2⟩
    · intro q hq
      cases q <;> simp_all [shared, Shared.Reached]
  · split_ifs at hr with hstarted
    · cases hr
      exact ⟨⟨hclosed, hfinished⟩, fun q hq => hq, fun _ hcall => ⟨hcall.alone, hreached⟩⟩
    · cases hr
      have hnone : n.client = none := by simpa using hstarted
      exact advances_finish rfl hreached (by simp [hnone])
  · split_ifs at hr with hended
    cases hr
    have hclient : n.client.all ended = true := (Bool.and_eq_true_iff.mp hended).1
    exact advances_finish rfl hreached hclient
  · cases hr

/-- A turn of the main loop has no part in the calls of `Close`. -/
theorem record_closeView (n : Goroutines) (t : SessionTurn) (next : RunPc) :
    { n.record t with run := next }.closeView = { n with run := next }.closeView := by
  unfold record
  dsimp only
  split_ifs <;> rfl

/-- `Run` moves on outside of `Close`, or calls it. -/
theorem moved_closeOrdered (h : n.closeView.Ordered) {next : RunPc}
    (hfrom : n.run.closePc = none ∧ n.run.isReturned = false)
    (hto : (next.closePc = none ∨ next.closePc = some .entering) ∧ next.isReturned = false) :
    { n with run := next }.closeView.Ordered := by
  have hview : { n with run := next }.closeView = { n.closeView with own := next.closePc } := by
    simp [closeView, shared, hfrom, hto]
  rw [hview]
  exact h.moved hfrom.1 hto.1

/-- `Run` stays where it is or moves on outside of `Close`. -/
theorem moves_closeOrdered (h : n.closeView.Ordered) {next : RunPc}
    (hmoves : next = n.run ∨ n.run.plain ∧ next.plain) :
    { n with run := next }.closeView.Ordered := by
  obtain rfl | ⟨hplain, hnext⟩ := hmoves
  · exact h
  · exact moved_closeOrdered h (RunPc.of_plain hplain).2.2
      (RunPc.of_onward (RunPc.onward_of_plain hnext)).2.2

/-- Giving back a lease has no part in the calls of `Close`. -/
theorem letGo_closeOrdered (h : n.closeView.Ordered) (sess : Session) (leaving : Bool) {next : RunPc}
    (hplain : n.run.plain)
    (hto : (next.closePc = none ∨ next.closePc = some .entering) ∧ next.isReturned = false) :
    (n.letGo sess leaving next).closeView.Ordered := by
  have hfrom := (RunPc.of_plain hplain).2.2
  unfold letGo
  split
  · next lease conn _ _ =>
    have hmoved : { n with run := .releasing lease conn leaving }.closeView.Ordered :=
      moved_closeOrdered h hfrom ⟨.inl rfl, rfl⟩
    exact hmoved
  · exact moved_closeOrdered h hfrom hto

/-- Where `Run` is after a step of its call. -/
theorem resume_closePc (pc : ClosePc) (leaving : Bool) :
    ((pc.resume leaving).closePc = some pc ∧ pc ≠ .closed ∨
      (pc.resume leaving).closePc = none ∧ pc = .closed) ∧
      ((pc.resume leaving).isReturned → pc = .closed) := by
  cases pc <;> cases leaving <;> simp [ClosePc.resume, RunPc.closePc, RunPc.isReturned]

/-- Every step keeps the calls of `Close` in order. -/
theorem Effect.closeOrdered {l : GoStep} (heffect : Effect n l m) (h : n.closeView.Ordered) :
    m.closeView.Ordered := by
  cases heffect with
  | @client old new next buffered errCh pc live moves cost =>
    have hclient := h.client (ended new) (.inl (by simp [closeView, shared, pc, live]))
    exact moves_closeOrdered (n := n.setClient new) hclient moves
  | lease new next errCh pc live cancelled moves cost => exact moves_closeOrdered h moves
  | cancel fresh => exact h.cancel
  | callsClose calls => exact h.callsClose
  | @closer i pc r calling step =>
    have hadvances :=
      closeStep_advances h.effective (h.closers pc (List.mem_of_getElem? calling)) step
    have hcloser := h.closer calling hadvances.effective hadvances.keeps hadvances.call
    change CloseView.Ordered
      ⟨r.1.shared, r.1.run.closePc, r.1.closers.set i r.2, r.1.run.isReturned⟩
    rw [(closeStep_frame step).1, (closeStep_frame step).2.1]
    exact hcloser
  | moved next errCh plain onward cost =>
    exact moved_closeOrdered h (RunPc.of_plain plain).2.2 (RunPc.of_onward onward).2.2
  | start fresh plain =>
    have hclient := h.client false (.inr fresh)
    exact moved_closeOrdered (n := n.setClient .receiving) hclient (RunPc.of_plain plain).2.2
      ⟨.inl rfl, rfl⟩
  | served t next balanced keeps plain onward cost =>
    rw [record_closeView]
    exact moved_closeOrdered h (RunPc.of_plain plain).2.2 (RunPc.of_onward onward).2.2
  | relayed sess next keeps plain onward cost =>
    exact moved_closeOrdered h (RunPc.of_plain plain).2.2 (RunPc.of_onward onward).2.2
  | letGo sess releaseCh none plain cost =>
    exact letGo_closeOrdered (n := { n with releaseCh := releaseCh }) h sess false plain
      ⟨.inl rfl, rfl⟩
  | leave sess none exiting =>
    exact letGo_closeOrdered h sess true (by rw [exiting]; rfl) ⟨.inr rfl, rfl⟩
  | @released lease conn leaving loop releasing pc ended =>
    have hfrom : n.run.closePc = none ∧ n.run.isReturned = false := by
      rw [releasing]
      exact ⟨rfl, rfl⟩
    cases leaving with
    | true => exact moved_closeOrdered h hfrom ⟨.inr rfl, rfl⟩
    | false => exact moved_closeOrdered h hfrom ⟨.inl rfl, rfl⟩
  | releaseStuck releasing =>
    refine moved_closeOrdered h ?_ ⟨.inl rfl, rfl⟩
    rw [releasing]
    exact ⟨rfl, rfl⟩
  | @runCloses pc leaving r closing step =>
    have hown : n.closeView.own = some pc := by simp [closeView, closing, RunPc.closePc]
    have hadvances := closeStep_advances h.effective (h.own pc hown).1 step
    obtain ⟨hclose, hreturned⟩ := resume_closePc r.2 leaving
    rw [closeView, show _ = n.closers from (closeStep_frame step).2.1]
    exact h.runCloses hown hadvances.effective hadvances.keeps hadvances.call hclose hreturned

/-- Every read loop of the session and every caller of `Close` has returned, and so has `Run`, unless a
write to the upstream does not return. -/
structure Finished (n : Goroutines) : Prop where
  run : n.run = .returned ∨ n.run.stuck
  closers : ∀ pc ∈ n.closers, pc = .closed
  loops : n.loopsEnded

/-- The leases and the calls of `Close` are in order. -/
structure Sound (n : Goroutines) : Prop where
  leases : n.leaseView.Ordered
  calls : n.closeView.Ordered

/-- Every step keeps the goroutines in order. -/
theorem sound_step {l : GoStep} (h : n.Sound) (hstep : n.goStep l = some m) : m.Sound :=
  ⟨(goStep_effect hstep).leaseOrdered h.leases, (goStep_effect hstep).closeOrdered h.calls⟩

/-- The goroutines of a session without an upstream are in order. -/
theorem sound_goroutines {s : Session} (hnone : s.upstream = none) : s.goroutines.Sound := by
  constructor
  · constructor <;> simp [leaseView, Session.goroutines, hnone, RunPc.handing, RunPc.gone,
      LeaseView.current]
  · refine ⟨⟨?_, ?_⟩, rfl, ?_, ?_, ?_⟩
    · intro hconn
      cases hconn
    · intro hfinished
      cases hfinished
    · intro pc hpc
      cases hpc
    · intro pc hpc
      cases hpc
    · intro hreturned
      cases hreturned

/-- The goroutines of a session are in order whatever they do. -/
theorem sound_of_exec {port : Port} {cfg : ServerConfig} {labels : List GoStep}
    (hrun : exec goStep (Session.initializeSession port cfg).goroutines labels = some n) : n.Sound :=
  exec_invariant (fun _ _ _ h hstep => sound_step h hstep) (sound_goroutines rfl) hrun

/-- A lease loop of a session in order has returned if no lease is current. -/
theorem Sound.leases_ended (h : n.Sound) (hnone : n.leaseView.current = none) :
    ∀ l ∈ n.leases, l.pc = .exited := by
  intro l hl
  by_contra hlive
  obtain ⟨k, hk⟩ := List.mem_iff_getElem?.mp hl
  have hcurrent := h.leases.live k l hk hlive
  rw [hnone] at hcurrent
  cases hcurrent

/-- Nothing is left of a session in order whose `Run` has returned. -/
theorem Sound.of_returned (h : n.Sound) (hreturned : n.run = .returned) :
    n.loopsEnded ∧ n.connClosed ∧ n.ctxDone ∧ n.sess.upstream = none ∧ n.acquired = n.givenBack := by
  have hfinished : n.once = .finished := h.calls.returned (by simp [closeView, hreturned, RunPc.isReturned])
  obtain ⟨hconn, hclient⟩ := h.calls.effective.finished hfinished
  have hattached : n.attached = none := h.leases.gone (by simp [leaseView, hreturned, RunPc.gone])
  have hup : n.sess.upstream = none := h.leases.attached.mp hattached
  have hended := h.leases_ended
    (by simp [LeaseView.current, leaseView, hreturned, RunPc.handing, hattached])
  refine ⟨?_, hconn, h.calls.effective.closed hconn, hup, ?_⟩
  · rw [loopsEnded, Bool.and_eq_true_iff, List.all_eq_true]
    exact ⟨hclient, fun l hl => ended_iff.mpr (hended l hl)⟩
  · have hledger := h.leases.ledger
    simpa [leaseView, hreturned, RunPc.handing, hup] using hledger

/-- When `Run` has returned, whatever the interleaving, no goroutine of the session is left, the
connection is closed, and every upstream connection that was acquired was given back. -/
theorem run_outlives_goroutines (port : Port) (cfg : ServerConfig) (labels : List GoStep)
    (hrun : exec goStep (Session.initializeSession port cfg).goroutines labels = some n)
    (hreturned : n.run = .returned) :
    n.loopsEnded ∧ n.connClosed ∧ n.ctxDone ∧ n.sess.upstream = none ∧ n.acquired = n.givenBack :=
  (sound_of_exec hrun).of_returned hreturned

/-- The server is stopped while a session in session mode waits for its client: `Run` gives its upstream
back, and its call of `Close` waits for the read loop of the client. -/
theorem run_outlives_goroutines_stopped :
    ∃ n, exec goStep (Session.initializeSession .write ⟨.session, none⟩).goroutines
        [.startUp ⟨.steady 0 ⟨7, [], .primary⟩, true, .ok (), true, true, false⟩, .greet true, .start,
          .serverCancels, .takeDone, .exit, .leaseFails 0, .released, .runCloses, .runCloses,
          .runCloses, .runCloses, .runCloses, .clientFails, .runCloses] = some n ∧
      n.acquired = [7] ∧ n.loopsEnded ∧ n.acquired = n.givenBack := by
  have hrun : (exec goStep (Session.initializeSession .write ⟨.session, none⟩).goroutines
      [.startUp ⟨.steady 0 ⟨7, [], .primary⟩, true, .ok (), true, true, false⟩, .greet true, .start,
        .serverCancels, .takeDone, .exit, .leaseFails 0, .released, .runCloses, .runCloses,
        .runCloses, .runCloses, .runCloses, .clientFails, .runCloses]).map
      (fun n => (n.run, n.acquired)) = some (.returned, [7]) := by
    decide
  obtain ⟨n, hn, hends⟩ := Option.map_eq_some_iff.mp hrun
  obtain ⟨hreturned, hacquired⟩ := Prod.mk.inj hends
  obtain ⟨hloops, -, -, -, hledger⟩ := run_outlives_goroutines _ _ _ hn hreturned
  exact ⟨n, hn, hacquired, hloops, hledger⟩

/-- A call of `Close` returns when its body has run. -/
theorem finished_of_closeStep {pc : ClosePc} {r : Goroutines × ClosePc} (hr : n.closeStep pc = some r)
    (hclosed : r.2 = .closed) : r.1.once = .finished := by
  unfold closeStep at hr
  split at hr
  · split at hr
    all_goals cases hr
    · cases hclosed
    · assumption
  · cases hr
    cases hclosed
  · cases hr
    cases hclosed
  · cases hr
    cases hclosed
  · split_ifs at hr
    · cases hr
      cases hclosed
    · cases hr
      rfl
  · split_ifs at hr
    cases hr
    rfl
  · cases hr

/-- When a call of `Close` has returned, one from outside or one of `Run` itself, its body has run; and when
that has run, the connection is closed, the context is cancelled and the read loop of the client is not
running. -/
theorem closed_not_reading (port : Port) (cfg : ServerConfig) (labels : List GoStep)
    (hrun : exec goStep (Session.initializeSession port cfg).goroutines labels = some n) :
    (.closed ∈ n.closers → n.once = .finished) ∧
    (∀ pc leaving m, n.run = .closing pc leaving → n.goStep .runCloses = some m →
      m.run.closePc = none → m.once = .finished) ∧
    (n.once = .finished → n.connClosed ∧ n.ctxDone ∧ n.client.all ended) := by
  have h := sound_of_exec hrun
  refine ⟨h.calls.closers _, fun pc leaving m hclosing hstep hreturned => ?_, fun hfinished => ?_⟩
  · simp only [goStep, hclosing, Option.map_eq_some_iff] at hstep
    obtain ⟨r, hr, rfl⟩ := hstep
    obtain ⟨⟨hsame, -⟩ | ⟨-, hclosed⟩, -⟩ := resume_closePc r.2 leaving
    · cases hsame.symm.trans hreturned
    · exact finished_of_closeStep hr hclosed
  · obtain ⟨hconn, hclient⟩ := h.calls.effective.finished hfinished
    exact ⟨hconn, h.calls.effective.closed hconn, hclient⟩

/-- `Run` refuses a client: when its own call of `Close` has returned it has yet to leave, no one else has
called, and nothing reads the client. -/
theorem closed_not_reading_refused :
    ∃ n, exec goStep (Session.initializeSession .write ⟨.transaction, none⟩).goroutines
        [.startUp ⟨.steady 0 ⟨7, [], .primary⟩, true, .error ⟨some "28P01", "invalid password"⟩, true, true, false⟩,
          .runCloses, .runCloses, .runCloses, .runCloses, .runCloses] = some n ∧
      n.run = .exiting ∧ n.closers = [] ∧ n.connClosed ∧ n.client.all ended := by
  have hrun : (exec goStep (Session.initializeSession .write ⟨.transaction, none⟩).goroutines
      [.startUp ⟨.steady 0 ⟨7, [], .primary⟩, true, .error ⟨some "28P01", "invalid password"⟩, true, true, false⟩,
        .runCloses, .runCloses, .runCloses, .runCloses, .runCloses]).map
      (fun n => (n.run, n.closers, n.once)) = some (.exiting, [], .finished) := by
    decide
  obtain ⟨n, hn, hends⟩ := Option.map_eq_some_iff.mp hrun
  obtain ⟨hexiting, hrest⟩ := Prod.mk.inj hends
  obtain ⟨hclosers, honce⟩ := Prod.mk.inj hrest
  obtain ⟨hconn, -, hclient⟩ := (closed_not_reading _ _ _ hn).2.2 honce
  exact ⟨n, hn, hexiting, hclosers, hconn, hclient⟩

/-- The client's read loop of a cancelled session can take a step until it has returned. -/
theorem client_ended_of_stuck (hctx : n.ctxDone) (hfails : n.goStep .clientFails = none)
    (hleaves : n.goStep .clientLeaves = none) : n.client.all ended := by
  cases hclient : n.client with
  | none => rfl
  | some pc =>
    cases pc with
    | receiving => simp [goStep, hclient] at hfails
    | offering msg => simp [goStep, hclient, hctx, waits] at hleaves
    | awaitingAck => simp [goStep, hclient, hctx, waits] at hleaves
    | exited => rfl

/-- The read loop of a cancelled lease can take a step until it has returned. -/
theorem lease_ended_of_stuck {k : ℕ} {l : LeaseLoop} (hk : n.leases[k]? = some l)
    (hcancelled : l.cancelled) (hfails : n.goStep (.leaseFails k) = none)
    (hleaves : n.goStep (.leaseLeaves k) = none) : l.pc = .exited := by
  obtain ⟨pc, cancelled, barred⟩ := l
  obtain rfl : cancelled = true := hcancelled
  cases pc with
  | receiving => simp [goStep, hk] at hfails
  | offering msg => simp [goStep, hk, waits] at hleaves
  | awaitingAck => simp [goStep, hk, waits] at hleaves
  | exited => rfl

/-- A call of `Close` waits only for another one or for a read loop. -/
theorem closed_or_entering_of_stuck (hloops : n.loopsEnded) {pc : ClosePc}
    (hstuck : n.closeStep pc = none) : pc = .closed ∨ pc = .entering ∧ n.once = .running := by
  cases pc with
  | entering =>
    cases honce : n.once with
    | running => exact .inr ⟨rfl, rfl⟩
    | fresh => simp [closeStep, honce] at hstuck
    | finished => simp [closeStep, honce] at hstuck
  | checking =>
    unfold closeStep at hstuck
    split_ifs at hstuck
  | waiting => simp [closeStep, hloops] at hstuck
  | closed => exact .inl rfl
  | _ => simp [closeStep] at hstuck

/-- No call of `Close` is in its body if all of them wait. -/
theorem not_running_of_stuck (h : n.closeView.Ordered) (hloops : n.loopsEnded)
    (hclosers : ∀ pc ∈ n.closers, n.closeStep pc = none)
    (hown : ∀ pc ∈ n.run.closePc, n.closeStep pc = none) : n.once ≠ .running := by
  intro honce
  have houtside : ∀ pc, n.closeStep pc = none → pc.inside = false := by
    intro pc hpc
    obtain rfl | ⟨rfl, -⟩ := closed_or_entering_of_stuck hloops hpc <;> rfl
  have hnone : n.closers.countP ClosePc.inside = 0 := by
    rw [List.countP_eq_zero]
    intro pc hpc
    simp [houtside pc (hclosers pc hpc)]
  have hfree : n.run.closePc.any ClosePc.inside = false := by
    cases hpc : n.run.closePc with
    | none => rfl
    | some pc => exact houtside pc (hown pc hpc)
  have halone := h.alone
  simp [closeView, shared, honce, hnone, hfree] at halone

/-- Where `Run` of a session can take no step, with the context cancelled, the read loops of its leases
ended and no call of `Close` under way, it has returned or does not come back from a write. -/
theorem Sound.run_of_stuck (h : n.Sound) (hctx : n.ctxDone = true)
    (hleases : ∀ l ∈ n.leases, l.pc = .exited) (hstuck : ∀ l, l ≠ .callsClose → n.goStep l = none)
    (hclosing : n.run.closePc = none) : n.run = .returned ∨ n.run.stuck := by
  obtain ⟨env⟩ : Nonempty Env := ⟨.steady 0 ⟨0, [], .primary⟩⟩
  cases hrun : n.run with
  | startup =>
    simpa [goStep, hrun] using hstuck (.startUp ⟨env, false, .ok (), false, false, false⟩) (by simp)
  | greeting => simpa [goStep, hrun] using hstuck (.greet true) (by simp)
  | starting => simpa [goStep, hrun, hctx] using hstuck .start (by simp)
  | select => simpa [goStep, hrun, hctx] using hstuck .takeDone (by simp)
  | handlingClient msg => simpa [goStep, hrun] using hstuck (.handle env) (by simp)
  | ackingClient => simpa [goStep, hrun, hctx] using hstuck .takeDone (by simp)
  | handlingUpstream lease msg => simpa [goStep, hrun] using hstuck (.handle env) (by simp)
  | ackingUpstream => simpa [goStep, hrun, hctx] using hstuck .takeDone (by simp)
  | releasing lease conn leaving =>
    have hlast : lease + 1 = n.leases.length := h.leases.last lease
      (by simp [LeaseView.current, leaseView, hrun, RunPc.handing])
    have hl : n.leases[lease]? = some _ := List.getElem?_eq_getElem (by omega)
    have hended := ended_iff.mpr (hleases _ (List.mem_of_getElem? hl))
    simpa [goStep, hrun, hl, hended] using hstuck .released (by simp)
  | exiting => simpa [goStep, hrun] using hstuck .exit (by simp)
  | closing pc leaving => simp [hrun, RunPc.closePc] at hclosing
  | flushStuck => exact .inr rfl
  | releaseStuck lease conn => exact .inr rfl
  | returned => exact .inl rfl

/-- A session whose connection is closed and none of whose goroutines can take a step is finished. -/
theorem Sound.finished_of_stuck (h : n.Sound) (hconn : n.connClosed)
    (hstuck : ∀ l, l ≠ .callsClose → n.goStep l = none) : n.Finished := by
  have hctx : n.ctxDone = true := h.calls.effective.closed hconn
  have hleases : ∀ l ∈ n.leases, l.pc = .exited := by
    intro l hl
    obtain ⟨k, hk⟩ := List.mem_iff_getElem?.mp hl
    exact lease_ended_of_stuck hk (h.leases.cancelled hctx l hl) (hstuck (.leaseFails k) (by simp))
      (hstuck (.leaseLeaves k) (by simp))
  have hloops : n.loopsEnded = true := by
    rw [loopsEnded, Bool.and_eq_true_iff, List.all_eq_true]
    exact ⟨client_ended_of_stuck hctx (hstuck .clientFails (by simp)) (hstuck .clientLeaves (by simp)),
      fun l hl => ended_iff.mpr (hleases l hl)⟩
  have hclosers : ∀ pc ∈ n.closers, n.closeStep pc = none := by
    intro pc hpc
    obtain ⟨i, hi⟩ := List.mem_iff_getElem?.mp hpc
    simpa [goStep, hi] using hstuck (.closer i) (by simp)
  have hown : ∀ pc ∈ n.run.closePc, n.closeStep pc = none := by
    intro pc hpc
    cases hrun : n.run with
    | closing pc' leaving =>
      obtain rfl : pc' = pc := by simpa [hrun, RunPc.closePc] using hpc
      simpa [goStep, hrun] using hstuck .runCloses (by simp)
    | _ => simp [hrun, RunPc.closePc] at hpc
  have honce := not_running_of_stuck h.calls hloops hclosers hown
  have hdone : ∀ pc, n.closeStep pc = none → pc = .closed := by
    intro pc hpc
    obtain hclosed | ⟨-, hrunning⟩ := closed_or_entering_of_stuck hloops hpc
    · exact hclosed
    · exact absurd hrunning honce
  have hnoCall : n.run.closePc = none := by
    rw [Option.eq_none_iff_forall_not_mem]
    intro pc hpc
    exact (h.calls.own pc hpc).2 (hdone pc (hown pc hpc))
  exact ⟨h.run_of_stuck hctx hleases hstuck hnoCall, fun pc hpc => hdone pc (hclosers pc hpc), hloops⟩

/-- Cancelling the context of a lease does not change what its loop may do. -/
theorem LeaseLoop.work_cancel (l : LeaseLoop) : l.cancel.work = l.work := by
  obtain ⟨pc, cancelled, barred⟩ := l
  cases pc <;> cases barred <;> rfl

/-- Cancelling the context of the session does not change what the lease loops may do. -/
theorem sum_work_cancel (leases : List LeaseLoop) :
    ((leases.map LeaseLoop.cancel).map LeaseLoop.work).sum = (leases.map LeaseLoop.work).sum := by
  rw [List.map_map]
  exact congrArg List.sum (List.map_congr_left fun l _ => LeaseLoop.work_cancel l)

/-- Cancelling the context of one lease does not change what the lease loops may do. -/
theorem sum_work_modify (leases : List LeaseLoop) (k : ℕ) :
    ((leases.modify k LeaseLoop.cancel).map LeaseLoop.work).sum = (leases.map LeaseLoop.work).sum := by
  induction leases generalizing k with
  | nil => simp
  | cons l leases ih =>
    cases k with
    | zero => simp [LeaseLoop.work_cancel]
    | succ k => simp [ih]

/-- A turn of the main loop leaves the calls of `Close` and the connection alone. -/
theorem record_closers (n : Goroutines) (t : SessionTurn) :
    (n.record t).closers = n.closers ∧ (n.record t).connClosed = n.connClosed := by
  unfold record
  dsimp only
  split_ifs <;> exact ⟨rfl, rfl⟩

/-- The read loop of a lease acquired by a cancelled session costs one step. -/
theorem rest_record (hctx : n.ctxDone) (t : SessionTurn) : (n.record t).rest ≤ n.rest + 1 := by
  unfold record
  dsimp only
  split_ifs
  · simp [rest, attach, hctx, LeaseLoop.work, readWork]
    omega
  · simp [rest]

/-- A call of `Close` costs more than what it causes. -/
theorem closeStep_work {pc : ClosePc} {r : Goroutines × ClosePc} (hr : n.closeStep pc = some r) :
    r.1.rest + r.2.work < n.rest + pc.work ∧ (n.connClosed → r.1.connClosed) := by
  unfold closeStep at hr
  split at hr
  · split at hr <;> cases hr <;> exact ⟨by simp [rest, ClosePc.work], id⟩
  · cases hr
    refine ⟨?_, id⟩
    have hle := Bool.toNat_le n.releaseCh
    simp only [rest, ClosePc.work, Bool.toNat_true]
    omega
  · cases hr
    refine ⟨?_, id⟩
    simp only [rest, cancel, ClosePc.work, sum_work_cancel]
    omega
  · cases hr
    exact ⟨by simp [rest, ClosePc.work], fun _ => rfl⟩
  · split_ifs at hr <;> cases hr <;> exact ⟨by simp [rest, ClosePc.work], id⟩
  · split_ifs at hr
    cases hr
    exact ⟨by simp [rest, ClosePc.work], id⟩
  · cases hr

/-- Giving back a lease costs a wait for its read loop. -/
theorem letGo_work (n : Goroutines) (sess : Session) (leaving : Bool) {next : RunPc} {bound : ℕ}
    (hnext : next.work ≤ bound) (hwait : (RunPc.releasing 0 0 leaving).work ≤ bound) :
    (n.letGo sess leaving next).run.work ≤ bound ∧ (n.letGo sess leaving next).rest = n.rest ∧
      (n.letGo sess leaving next).closers = n.closers ∧
      (n.letGo sess leaving next).connClosed = n.connClosed := by
  unfold letGo
  split
  · refine ⟨?_, ?_, rfl, rfl⟩
    · cases leaving <;> exact hwait
    · simp [rest, sum_work_modify]
  · exact ⟨hnext, rfl, rfl, rfl⟩

/-- Where `Run` is after a step of its call costs at most what is left of the call. -/
theorem resume_work (pc : ClosePc) (leaving : Bool) :
    (pc.resume leaving).work ≤ (if leaving then 1 else 20) + pc.work := by
  cases pc <;> cases leaving <;> simp [ClosePc.resume, RunPc.work, ClosePc.work]

/-- Once the connection is closed every step but another call of `Close` uses up some of the work that is
left. -/
theorem Effect.uses_work {l : GoStep} (heffect : Effect n l m) (h : n.Sound) (hconn : n.connClosed)
    (hother : l ≠ .callsClose) : m.work < n.work ∧ m.connClosed := by
  have hctx : n.ctxDone = true := h.calls.effective.closed hconn
  cases heffect with
  | @client old new next buffered errCh pc live moves cost =>
    refine ⟨?_, hconn⟩
    have hless := cost hconn
    simp only [work, rest, setClient, pc, Option.elim_some]
    omega
  | @lease k old new next errCh pc live cancelled moves cost =>
    refine ⟨?_, hconn⟩
    have hless := cost (h.leases.cancelled hctx old (List.mem_of_getElem? pc))
    have hsum := sum_map_set_add LeaseLoop.work pc new
    simp only [work, rest, setLease]
    omega
  | cancel fresh => simp [hctx] at fresh
  | callsClose calls => exact absurd calls hother
  | @closer i pc r calling step =>
    obtain ⟨hless, hkeeps⟩ := closeStep_work step
    refine ⟨?_, hkeeps hconn⟩
    have hsum := sum_map_set_add ClosePc.work calling r.2
    change r.1.run.work + ((r.1.closers.set i r.2).map ClosePc.work).sum + r.1.rest < n.work
    rw [(closeStep_frame step).1, (closeStep_frame step).2.1, work]
    omega
  | moved next errCh plain onward cost =>
    refine ⟨?_, hconn⟩
    simp only [work, rest]
    omega
  | start fresh plain => simp [hctx] at fresh
  | served t next balanced keeps plain onward cost =>
    have hrest := rest_record hctx t
    obtain ⟨hclosers, hsame⟩ := record_closers n t
    refine ⟨?_, hsame.trans hconn⟩
    change next.work + ((n.record t).closers.map ClosePc.work).sum + (n.record t).rest < n.work
    rw [hclosers, work]
    omega
  | relayed sess next keeps plain onward cost =>
    refine ⟨?_, hconn⟩
    simp only [work, rest]
    omega
  | letGo sess releaseCh none plain cost =>
    obtain ⟨hle, hrest, hclosers, hsame⟩ := { n with releaseCh := releaseCh }.letGo_work sess false
      (show RunPc.work .select ≤ 45 by simp [RunPc.work]) (by simp [RunPc.work])
    refine ⟨?_, hsame.trans hconn⟩
    have hsignal : { n with releaseCh := releaseCh }.rest + 10 * n.releaseCh.toNat =
        n.rest + 10 * releaseCh.toNat := by
      simp only [rest]
      omega
    rw [work, work, hrest, show _ = n.closers from hclosers]
    omega
  | leave sess none exiting =>
    obtain ⟨hle, hrest, hclosers, hsame⟩ := n.letGo_work sess true
      (show RunPc.work (.closing .entering true) ≤ 18 by simp [RunPc.work, ClosePc.work])
      (by simp [RunPc.work])
    refine ⟨?_, hsame.trans hconn⟩
    have hhere : n.run.work = 19 := by
      rw [exiting]
      rfl
    rw [work, work, hrest, hclosers]
    omega
  | @released lease conn leaving loop releasing pc ended =>
    refine ⟨?_, hconn⟩
    simp only [work, rest, releasing]
    cases leaving <;> simp [RunPc.work, ClosePc.work]
  | @releaseStuck lease conn leaving releasing =>
    refine ⟨?_, hconn⟩
    simp only [work, rest, releasing]
    cases leaving <;> simp [RunPc.work]
  | @runCloses pc leaving r closing step =>
    obtain ⟨hless, hkeeps⟩ := closeStep_work step
    refine ⟨?_, hkeeps hconn⟩
    have hresume := resume_work r.2 leaving
    have hhere : n.run.work = (if leaving then 1 else 20) + pc.work := by
      rw [closing]
      cases leaving <;> rfl
    change (r.2.resume leaving).work + (r.1.closers.map ClosePc.work).sum + r.1.rest < n.work
    rw [(closeStep_frame step).2.1, work]
    omega

/-- Once the connection of a session is closed its goroutines cannot go on for ever, and they stop only
when the read loops and every caller of `Close` have returned, and `Run` as well, unless a write to the
upstream does not return. -/
theorem close_settles (port : Port) (cfg : ServerConfig) (labels : List GoStep)
    (hrun : exec goStep (Session.initializeSession port cfg).goroutines labels = some n)
    (hconn : n.connClosed) : Machine.Settles goStep (· ≠ .callsClose) Finished n.work n := by
  refine settles_of_measure (I := fun n => n.Sound ∧ n.connClosed = true) ?_ ?_
    ⟨sound_of_exec hrun, hconn⟩
  · intro s l t hs hother hstep
    obtain ⟨hless, hclosed⟩ := (goStep_effect hstep).uses_work hs.1 hs.2 hother
    exact ⟨⟨sound_step hs.1 hstep, hclosed⟩, hless⟩
  · intro s hs hstuck
    exact hs.1.finished_of_stuck hs.2 hstuck

/-- A session whose connection was closed while it waits for its client has at most 53 steps left. -/
theorem close_settles_idle :
    ∃ n, exec goStep (Session.initializeSession .write ⟨.transaction, none⟩).goroutines
        [.startUp ⟨.steady 0 ⟨7, [], .primary⟩, true, .ok (), true, true, false⟩, .greet true, .start,
          .callsClose, .closer 0, .closer 0, .closer 0, .closer 0] = some n ∧
      Machine.Settles goStep (· ≠ .callsClose) Finished 53 n := by
  have hrun : (exec goStep (Session.initializeSession .write ⟨.transaction, none⟩).goroutines
      [.startUp ⟨.steady 0 ⟨7, [], .primary⟩, true, .ok (), true, true, false⟩, .greet true, .start,
        .callsClose, .closer 0, .closer 0, .closer 0, .closer 0]).map
      (fun n => (n.connClosed, n.work)) = some (true, 53) := by
    decide
  obtain ⟨n, hn, hends⟩ := Option.map_eq_some_iff.mp hrun
  obtain ⟨hconn, hwork⟩ := Prod.mk.inj hends
  exact ⟨n, hn, hwork ▸ close_settles _ _ _ hn hconn⟩

end Goroutines

end Grunyas.Server
