import Grunyas.Decisions.BusLock

/-!
# What the decision bus accounts for

Every value that a subscriber misses is counted as a drop of its subscription, and what it gets is in
order: `bus_accounts`. Next to the facts of the lock, every move keeps those of the recorded moments
(`Timed`), of what a subscription has got (`Orderly`), of the calls that have ended (`Complete`) and of
the counters (`Counted`).
-/

namespace Grunyas.Decisions

open GoChan (Chan)
open GoMap (Range)
open Machine

variable {Value : Type} {b b' : Bus Value}

section Moments

/-- What a move does to a call: nothing, or a step, with which it may return. -/
structure Publication.Goes (now : ℕ) (p p' : Publication Value) : Prop where
  value : p'.value = p.value
  began : p'.began = p.began
  ended : p'.ended = p.ended ∧ (p'.phase = .returned ↔ p.phase = .returned) ∨
    p.phase ≠ .returned ∧ p'.phase = .returned ∧ p'.ended = some now

/-- Nothing happens to a call. -/
theorem Publication.Goes.refl (now : ℕ) (p : Publication Value) : Goes now p p :=
  ⟨rfl, rfl, Or.inl ⟨rfl, Iff.rfl⟩⟩

/-- A call goes on. -/
theorem Publication.Goes.goto {now : ℕ} {p : Publication Value} {phase : PublishPhase}
    (hold : p.phase ≠ .returned) (hnew : phase ≠ .returned) : Goes now p { p with phase := phase } :=
  ⟨rfl, rfl, Or.inl ⟨rfl, iff_of_false hnew hold⟩⟩

/-- A call returns. -/
theorem Publication.Goes.leave {now : ℕ} {p : Publication Value} (h : p.phase ≠ .returned) :
    Goes now p { p with phase := .returned, ended := some now } :=
  ⟨rfl, rfl, Or.inr ⟨h, rfl, rfl⟩⟩

/-- What a move does to the calls: one begins, nothing happens, or one takes a step. -/
theorem Bus.Change.calls (h : b.Change b') :
    (∃ value, b'.publications = b.publications ++ [{ value := value, began := b.clock }]) ∨
      b'.publications = b.publications ∨
        ∃ i p p', b.publications[i]? = some p ∧ Publication.Goes b.clock p p' ∧
          b'.publications = b.publications.set i p' := by
  cases h with
  | publish value => exact Or.inl ⟨value, rfl⟩
  | proceed hi hphase =>
    exact Or.inr (Or.inr ⟨_, _, _, hi, .goto (by simp [hphase]) (by simp), rfl⟩)
  | enter order hi hphase =>
    exact Or.inr (Or.inr ⟨_, _, _, hi, .goto (by simp [hphase]) (by simp), rfl⟩)
  | refuse hi hphase hclosed =>
    exact Or.inr (Or.inr ⟨_, _, _, hi, .leave (by simp [hphase]), rfl⟩)
  | leave hi hphase => exact Or.inr (Or.inr ⟨_, _, _, hi, .leave (by simp [hphase]), rfl⟩)
  | deliver hi hphase hsub hsend =>
    exact Or.inr (Or.inr ⟨_, _, _, hi, .goto (by simp [hphase]) (by simp), rfl⟩)
  | overflow hi hphase hsub =>
    exact Or.inr (Or.inr ⟨_, _, _, hi, .goto (by simp [hphase]) (by simp), rfl⟩)
  | drop hi hphase hsub =>
    exact Or.inr (Or.inr ⟨_, _, _, hi, .goto (by simp [hphase]) (by simp), rfl⟩)
  | count hi hphase =>
    exact Or.inr (Or.inr ⟨_, _, _, hi, .goto (by simp [hphase]) (by simp), rfl⟩)
  | _ => exact Or.inr (Or.inl rfl)

/-- Where a call comes from: it was there before a move, or it begins with it. -/
theorem Bus.Change.call (h : b.Change b') {i : ℕ} {p' : Publication Value}
    (hi : b'.publications[i]? = some p') :
    (∃ p, b.publications[i]? = some p ∧ Publication.Goes b.clock p p') ∨
      p'.began = b.clock ∧ p'.ended = none := by
  rcases h.calls with ⟨value, hcalls⟩ | hcalls | ⟨j, p, q, hj, hgoes, hcalls⟩
  · rw [hcalls] at hi
    rcases getElem?_concat_eq_some hi with hold | ⟨-, rfl⟩
    · exact Or.inl ⟨p', hold, .refl _ _⟩
    · exact Or.inr ⟨rfl, rfl⟩
  · rw [hcalls] at hi
    exact Or.inl ⟨p', hi, .refl _ _⟩
  · rw [hcalls, getElem?_set_of_getElem? hj] at hi
    split_ifs at hi with hsame
    · subst hsame
      obtain rfl := Option.some.inj hi
      exact Or.inl ⟨p, hj, hgoes⟩
    · exact Or.inl ⟨p', hi, .refl _ _⟩

/-- No call is lost by a move. -/
theorem Bus.Change.call_goes (h : b.Change b') {i : ℕ} {p : Publication Value}
    (hi : b.publications[i]? = some p) :
    ∃ p', b'.publications[i]? = some p' ∧ Publication.Goes b.clock p p' := by
  rcases h.calls with ⟨value, hcalls⟩ | hcalls | ⟨j, q, q', hj, hgoes, hcalls⟩
  · exact ⟨p, hcalls ▸ getElem?_concat_of_getElem? hi _, .refl _ _⟩
  · exact ⟨p, hcalls ▸ hi, .refl _ _⟩
  · rw [hcalls, getElem?_set_of_getElem? hj]
    split_ifs with hsame
    · subst hsame
      obtain rfl := Option.some.inj (hi.symm.trans hj)
      exact ⟨q', rfl, hgoes⟩
    · exact ⟨p, hi, .refl _ _⟩

/-- What a move does to a subscription: a call visits it, or it neither gets anything nor is visited and
may end. -/
inductive Sub.Goes (b : Bus Value) (ref : ℕ) (sub sub' : Sub Value) : Prop where
  | quiet (hpassed : sub'.ch.passed = sub.ch.passed) (hvisitors : sub'.visitors = sub.visitors)
      (hsubscribed : sub'.subscribed = sub.subscribed)
      (hended : sub'.unsubscribed = sub.unsubscribed ∨
        sub.unsubscribed = none ∧ sub'.unsubscribed = some b.clock)
  | visited {i : ℕ} {p : Publication Value} {pending : List ℕ} (hi : b.publications[i]? = some p)
      (hphase : p.phase = .visiting (ref :: pending))
      (hpassed : sub'.ch.passed = sub.ch.passed ∨
        sub'.ch.passed = sub.ch.passed ++ [⟨p.value, i, b.clock⟩])
      (hvisitors : sub'.visitors = sub.visitors ++ [i])
      (hsubscribed : sub'.subscribed = sub.subscribed)
      (hended : sub'.unsubscribed = sub.unsubscribed)

/-- Nothing happens to a subscription. -/
theorem Sub.Goes.refl (ref : ℕ) (sub : Sub Value) : Goes b ref sub sub :=
  .quiet rfl rfl rfl (Or.inl rfl)

/-- A subscription keeps its beginning. -/
theorem Sub.Goes.subscribed {ref : ℕ} {sub sub' : Sub Value} (h : Goes b ref sub sub') :
    sub'.subscribed = sub.subscribed := by
  cases h with
  | quiet hpassed hvisitors hsubscribed hended => exact hsubscribed
  | visited hi hphase hpassed hvisitors hsubscribed hended => exact hsubscribed

/-- A subscription ends once. -/
theorem Sub.Goes.unsubscribed {ref : ℕ} {sub sub' : Sub Value} (h : Goes b ref sub sub') :
    sub'.unsubscribed = sub.unsubscribed ∨
      sub.unsubscribed = none ∧ sub'.unsubscribed = some b.clock := by
  cases h with
  | quiet hpassed hvisitors hsubscribed hended => exact hended
  | visited hi hphase hpassed hvisitors hsubscribed hended => exact Or.inl hended

/-- A subscription keeps its visitors. -/
theorem Sub.Goes.visitors {ref : ℕ} {sub sub' : Sub Value} (h : Goes b ref sub sub') {i : ℕ}
    (hi : i ∈ sub.visitors) : i ∈ sub'.visitors := by
  cases h with
  | quiet hpassed hvisitors hsubscribed hended => exact hvisitors ▸ hi
  | visited hj hphase hpassed hvisitors hsubscribed hended =>
    rw [hvisitors]
    exact List.mem_append_left _ hi

/-- A subscription ends. -/
theorem Sub.unsubscribed_unregister (sub : Sub Value) (now : ℕ) :
    (sub.unregister now).unsubscribed = sub.unsubscribed ∨
      sub.unsubscribed = none ∧ (sub.unregister now).unsubscribed = some now := by
  rw [unregister]
  dsimp only
  cases sub.unsubscribed with
  | none => exact Or.inr ⟨rfl, rfl⟩
  | some u => exact Or.inl rfl

/-- A move that changes one subscription. -/
theorem Sub.Goes.setSub {ref r : ℕ} {sub sub' sub₁ : Sub Value} (hsub : b.subs[ref]? = some sub)
    (hr : (b.subs.set ref sub₁)[r]? = some sub') (hgoes : Goes b ref sub sub₁) :
    ∃ old, b.subs[r]? = some old ∧ Goes b r old sub' := by
  rw [getElem?_set_of_getElem? hsub] at hr
  split_ifs at hr with hsame
  · subst hsame
    obtain rfl := Option.some.inj hr
    exact ⟨sub, hsub, hgoes⟩
  · exact ⟨sub', hr, .refl r sub'⟩

/-- Where a subscription comes from: it was there before a move, or it begins with it. -/
theorem Bus.Change.sub (h : b.Change b') {ref : ℕ} {sub' : Sub Value}
    (hsub' : b'.subs[ref]? = some sub') :
    (∃ sub, b.subs[ref]? = some sub ∧ Sub.Goes b ref sub sub') ∨
      sub'.ch.passed = [] ∧ sub'.visitors = [] ∧ sub'.subscribed = b.clock ∧
        sub'.unsubscribed = none := by
  cases h with
  | deliver hi hphase hsub hsend =>
    exact Or.inl (Sub.Goes.setSub hsub hsub'
      (.visited hi hphase (Or.inr (Chan.passed_trySend hsend)) rfl rfl rfl))
  | overflow hi hphase hsub =>
    exact Or.inl (Sub.Goes.setSub hsub hsub' (.visited hi hphase (Or.inl rfl) rfl rfl rfl))
  | drop hi hphase hsub => exact Or.inl (Sub.Goes.setSub hsub hsub' (.quiet rfl rfl rfl (Or.inl rfl)))
  | subscribe hfree hopen hroom =>
    rcases getElem?_concat_eq_some hsub' with hold | ⟨-, rfl⟩
    · exact Or.inl ⟨sub', hold, .refl ref sub'⟩
    · exact Or.inr ⟨rfl, rfl, rfl, rfl⟩
  | unsub hfree hsub =>
    exact Or.inl (Sub.Goes.setSub hsub hsub' (.quiet rfl rfl rfl (Sub.unsubscribed_unregister _ _)))
  | close hfree =>
    rw [Bus.close, List.getElem?_mapIdx] at hsub'
    obtain ⟨sub, hsub, rfl⟩ := Option.map_eq_some_iff.mp hsub'
    refine Or.inl ⟨sub, hsub, ?_⟩
    split_ifs with hregistered
    · exact .quiet rfl rfl rfl (Sub.unsubscribed_unregister _ _)
    · exact .refl ref sub
  | work hsub hpassed hclosed htotal =>
    exact Or.inl (Sub.Goes.setSub hsub hsub' (.quiet hpassed rfl rfl (Or.inl rfl)))
  | _ => exact Or.inl ⟨sub', hsub', .refl ref sub'⟩

/-- The moments that are recorded are past, and a call that has not returned has not ended. -/
structure Bus.Timed (b : Bus Value) : Prop where
  began : ∀ (i : ℕ) (p : Publication Value), b.publications[i]? = some p → p.began < b.clock
  running : ∀ (i : ℕ) (p : Publication Value), b.publications[i]? = some p →
    p.phase ≠ .returned → p.ended = none
  ended : ∀ (i : ℕ) (p : Publication Value) (e : ℕ), b.publications[i]? = some p →
    p.ended = some e → e < b.clock
  subscribed : ∀ (ref : ℕ) (sub : Sub Value), b.subs[ref]? = some sub → sub.subscribed < b.clock
  unsubscribed : ∀ (ref : ℕ) (sub : Sub Value) (u : ℕ), b.subs[ref]? = some sub →
    sub.unsubscribed = some u → u < b.clock

/-- Every move keeps the moments past. -/
theorem Bus.Timed.change (h : b.Timed) (hchange : b.Change b') :
    Bus.Timed { b' with clock := b.clock + 1 } where
  began i p' hi := by
    rcases hchange.call hi with ⟨p, hold, hgoes⟩ | hnew
    · rw [hgoes.began]
      exact (h.began i p hold).trans (Nat.lt_succ_self _)
    · rw [hnew.1]
      exact Nat.lt_succ_self _
  running i p' hi hstays := by
    rcases hchange.call hi with ⟨p, hold, hgoes⟩ | hnew
    · rcases hgoes.ended with hsame | hleft
      · rw [hsame.1]
        exact h.running i p hold (fun hreturned => hstays (hsame.2.mpr hreturned))
      · exact absurd hleft.2.1 hstays
    · exact hnew.2
  ended i p' e hi he := by
    rcases hchange.call hi with ⟨p, hold, hgoes⟩ | hnew
    · rcases hgoes.ended with hsame | hleft
      · exact (h.ended i p e hold (hsame.1.symm.trans he)).trans (Nat.lt_succ_self _)
      · obtain rfl := Option.some.inj (hleft.2.2.symm.trans he)
        exact Nat.lt_succ_self _
    · exact nomatch hnew.2.symm.trans he
  subscribed ref sub' hsub' := by
    rcases hchange.sub hsub' with ⟨sub, hsub, hgoes⟩ | hnew
    · rw [hgoes.subscribed]
      exact (h.subscribed ref sub hsub).trans (Nat.lt_succ_self _)
    · rw [hnew.2.2.1]
      exact Nat.lt_succ_self _
  unsubscribed ref sub' u hsub' hu := by
    rcases hchange.sub hsub' with ⟨sub, hsub, hgoes⟩ | hnew
    · rcases hgoes.unsubscribed with hsame | hnow
      · exact (h.unsubscribed ref sub u hsub (hsame.symm.trans hu)).trans (Nat.lt_succ_self _)
      · obtain rfl := Option.some.inj (hnow.2.symm.trans hu)
        exact Nat.lt_succ_self _
    · exact nomatch hnew.2.2.2.symm.trans hu

end Moments

section Deliveries

/-- A delivery was sent by a call that was going on and to a subscription that was registered. -/
structure Bus.Sends (b : Bus Value) (sub : Sub Value) (m : Delivery Value) : Prop where
  past : m.sent < b.clock
  subscribed : sub.subscribed < m.sent
  unsubscribed : ∀ u, sub.unsubscribed = some u → m.sent < u
  call : ∃ p, b.publications[m.call]? = some p ∧ p.value = m.value ∧ p.began < m.sent ∧
    ∀ e, p.ended = some e → m.sent ≤ e

/-- A delivery stays what it is. -/
theorem Bus.Sends.change {sub sub' : Sub Value} {m : Delivery Value} (h : b.Sends sub m)
    (hchange : b.Change b') {ref : ℕ} (hgoes : Sub.Goes b ref sub sub') :
    Bus.Sends { b' with clock := b.clock + 1 } sub' m where
  past := h.past.trans (Nat.lt_succ_self _)
  subscribed := by
    rw [hgoes.subscribed]
    exact h.subscribed
  unsubscribed u hu := by
    rcases hgoes.unsubscribed with hsame | hnow
    · exact h.unsubscribed u (hsame.symm.trans hu)
    · obtain rfl := Option.some.inj (hnow.2.symm.trans hu)
      exact h.past
  call := by
    obtain ⟨p, hi, hvalue, hbegan, hended⟩ := h.call
    obtain ⟨p', hi', hstep⟩ := hchange.call_goes hi
    refine ⟨p', hi', hstep.value.trans hvalue, hstep.began.trans_lt hbegan, fun e he => ?_⟩
    rcases hstep.ended with hsame | hleft
    · exact hended e (hsame.1.symm.trans he)
    · obtain rfl := Option.some.inj (hleft.2.2.symm.trans he)
      exact h.past.le

/-- A delivery that is sent with a move, to a subscription that is registered. -/
theorem Bus.sends_now (htimed : b.Timed) (hchange : b.Change b') {i ref : ℕ} {p : Publication Value}
    {sub sub' : Sub Value} (hi : b.publications[i]? = some p) (hrunning : p.phase ≠ .returned)
    (hsub : b.subs[ref]? = some sub) (hsubscribed : sub'.subscribed = sub.subscribed)
    (hregistered : sub'.unsubscribed = none) :
    Bus.Sends { b' with clock := b.clock + 1 } sub' ⟨p.value, i, b.clock⟩ := by
  obtain ⟨p', hi', hstep⟩ := hchange.call_goes hi
  refine ⟨Nat.lt_succ_self _, ?_, ?_, p', hi', hstep.value, ?_, ?_⟩
  · rw [hsubscribed]
    exact htimed.subscribed ref sub hsub
  · rw [hregistered]
    exact fun u hu => nomatch hu
  · rw [hstep.began]
    exact htimed.began i p hi
  · intro e he
    rcases hstep.ended with hsame | hleft
    · have hnone := htimed.running i p hi hrunning
      exact nomatch hnone.symm.trans (hsame.1.symm.trans he)
    · obtain rfl := Option.some.inj (hleft.2.2.symm.trans he)
      exact le_rfl

/-- What a subscription got came from its visitors, in their order, and each visitor came once. -/
structure Bus.Orderly (b : Bus Value) (sub : Sub Value) : Prop where
  nodup : sub.visitors.Nodup
  calls : (sub.ch.passed.map Delivery.call).Sublist sub.visitors
  sorted : sub.ch.passed.Pairwise fun m m' => m.sent < m'.sent
  sent : ∀ m ∈ sub.ch.passed, b.Sends sub m

/-- A call that is about to visit a subscription has not come to it, and the subscription is open and
registered. -/
theorem Bus.Readers.first (h : b.Readers) (hregistry : b.Registry) {i ref : ℕ}
    {p : Publication Value} {pending : List ℕ} {sub : Sub Value} (hi : b.publications[i]? = some p)
    (hphase : p.phase = .visiting (ref :: pending)) (hsub : b.subs[ref]? = some sub) :
    i ∉ sub.visitors ∧ sub.ch.closed = false ∧ sub.unsubscribed = none := by
  obtain ⟨-, hmem⟩ := h.pending i p _ hi (congrArg PublishPhase.reading? hphase)
  obtain ⟨⟨id, hid⟩, hunvisited⟩ := (hmem ref).mp List.mem_cons_self
  have htag := hregistry.entry id ref hid
  rw [tagOf, hsub] at htag
  have hopen := congrArg Prod.snd (Option.some.inj htag)
  exact ⟨fun hvisited => hunvisited ⟨sub, hsub, hvisited⟩, congrArg Prod.fst hopen,
    congrArg Prod.snd hopen⟩

/-- Every move keeps the order of the deliveries. -/
theorem Bus.Orderly.change (hregistry : b.Registry) (hreaders : b.Readers) (htimed : b.Timed)
    (h : ∀ (ref : ℕ) (sub : Sub Value), b.subs[ref]? = some sub → b.Orderly sub)
    (hchange : b.Change b') {ref : ℕ} {sub' : Sub Value} (hsub' : b'.subs[ref]? = some sub') :
    Bus.Orderly { b' with clock := b.clock + 1 } sub' := by
  rcases hchange.sub hsub' with ⟨sub, hsub, hgoes⟩ | ⟨hpassed, hvisitors, -⟩
  · have hold := h ref sub hsub
    have hsent : ∀ m ∈ sub.ch.passed, Bus.Sends { b' with clock := b.clock + 1 } sub' m :=
      fun m hm => (hold.sent m hm).change hchange hgoes
    cases hgoes with
    | quiet hpassed hvisitors hsubscribed hended =>
      constructor
      · rw [hvisitors]
        exact hold.nodup
      · rw [hvisitors, hpassed]
        exact hold.calls
      · rw [hpassed]
        exact hold.sorted
      · rw [hpassed]
        exact hsent
    | @visited i p pending hi hphase hpassed hvisitors hsubscribed hended =>
      obtain ⟨hfresh, -, hregistered⟩ := hreaders.first hregistry hi hphase hsub
      have hnodup : sub'.visitors.Nodup := by
        rw [hvisitors, ← List.concat_eq_append]
        exact hold.nodup.concat hfresh
      rcases hpassed with hpassed | hpassed
      · refine ⟨hnodup, ?_, hpassed ▸ hold.sorted, hpassed ▸ hsent⟩
        rw [hvisitors, hpassed]
        exact hold.calls.trans (List.sublist_append_left _ _)
      · have hnew := Bus.sends_now htimed hchange hi (by simp [hphase]) hsub hsubscribed
          (hended.trans hregistered)
        refine ⟨hnodup, ?_, ?_, ?_⟩
        · rw [hvisitors, hpassed, List.map_append]
          exact hold.calls.append (List.Sublist.refl [i])
        · rw [hpassed, List.pairwise_append]
          refine ⟨hold.sorted, List.pairwise_singleton _ _, fun m hm m' hm' => ?_⟩
          obtain rfl := List.mem_singleton.mp hm'
          exact (hold.sent m hm).past
        · intro m hm
          rw [hpassed, List.mem_append] at hm
          rcases hm with hbefore | hnow
          · exact hsent m hbefore
          · obtain rfl := List.mem_singleton.mp hnow
            exact hnew
  · constructor
    · rw [hvisitors]
      exact List.nodup_nil
    · rw [hpassed]
      exact List.nil_sublist _
    · rw [hpassed]
      exact List.Pairwise.nil
    · rw [hpassed]
      exact fun m hm => nomatch hm

/-- A call that began after a subscription and ended before its end has come to it. -/
def Bus.Complete (b : Bus Value) : Prop :=
  ∀ (i ref e : ℕ) (p : Publication Value) (sub : Sub Value), b.publications[i]? = some p →
    p.ended = some e → b.subs[ref]? = some sub → sub.subscribed ≤ p.began →
      (∀ u, sub.unsubscribed = some u → e < u) → i ∈ sub.visitors

/-- A call that returns has visited what it had to, or has found the bus closed. -/
theorem Bus.Change.returns (h : b.Change b') {i : ℕ} {p p' : Publication Value}
    (hi : b.publications[i]? = some p) (hi' : b'.publications[i]? = some p')
    (hrunning : p.phase ≠ .returned) (hreturned : p'.phase = .returned) :
    b'.subs = b.subs ∧ (p.phase = .visiting [] ∨ b.closed = true) := by
  have hsame (hcalls : b'.publications = b.publications) : False := by
    rw [hcalls] at hi'
    obtain rfl := Option.some.inj (hi.symm.trans hi')
    exact hrunning hreturned
  have hgoto {j : ℕ} {q : Publication Value} (hj : b.publications[j]? = some q) {phase : PublishPhase}
      (hstays : phase ≠ .returned)
      (hcalls : b'.publications = b.publications.set j { q with phase := phase }) : False := by
    rw [hcalls, getElem?_set_of_getElem? hj] at hi'
    split_ifs at hi' with hij
    · obtain rfl := Option.some.inj hi'
      exact hstays hreturned
    · obtain rfl := Option.some.inj (hi.symm.trans hi')
      exact hrunning hreturned
  cases h with
  | publish value =>
    obtain rfl := Option.some.inj ((getElem?_concat_of_getElem? hi _).symm.trans hi')
    exact absurd hreturned hrunning
  | proceed hj hphase => exact (hgoto hj (by simp) rfl).elim
  | enter order hj hphase => exact (hgoto hj (by simp) rfl).elim
  | refuse hj hphase hclosed => exact ⟨rfl, Or.inr hclosed⟩
  | @leave j q hj hphase =>
    change (b.publications.set j _)[i]? = some p' at hi'
    rw [getElem?_set_of_getElem? hj] at hi'
    split_ifs at hi' with hij
    · subst hij
      obtain rfl := Option.some.inj (hi.symm.trans hj)
      exact ⟨rfl, Or.inl hphase⟩
    · obtain rfl := Option.some.inj (hi.symm.trans hi')
      exact absurd hreturned hrunning
  | deliver hj hphase hsub hsend => exact (hgoto hj (by simp) rfl).elim
  | overflow hj hphase hsub => exact (hgoto hj (by simp) rfl).elim
  | drop hj hphase hsub => exact (hgoto hj (by simp) rfl).elim
  | count hj hphase => exact (hgoto hj (by simp) rfl).elim
  | _ => exact (hsame rfl).elim

/-- Every move keeps the calls that ended complete. -/
theorem Bus.Complete.change (h : b.Complete) (hregistry : b.Registry) (hreaders : b.Readers)
    (htimed : b.Timed) (hchange : b.Change b') : b'.Complete := by
  intro i ref e p' sub' hi' he hsub' hbegan hended
  rcases hchange.call hi' with ⟨p, hi, hstep⟩ | hnew
  · rcases hchange.sub hsub' with ⟨sub, hsub, hgoes⟩ | hnewSub
    · rw [hgoes.subscribed, hstep.began] at hbegan
      rcases hstep.ended with hsame | ⟨hrunning, hreturned, hnow⟩
      · refine hgoes.visitors (h i ref e p sub hi (hsame.1.symm.trans he) hsub hbegan fun u hu => ?_)
        rcases hgoes.unsubscribed with hkept | hends
        · exact hended u (hkept.trans hu)
        · exact nomatch hends.1.symm.trans hu
      · -- the call returns with this move
        obtain ⟨hsubs, hcause⟩ := hchange.returns hi hi' hrunning hreturned
        obtain rfl := Option.some.inj (hnow.symm.trans he)
        rw [hsubs] at hsub'
        obtain rfl := Option.some.inj (hsub.symm.trans hsub')
        -- the subscription has not ended, so it is in the map
        have hopen : sub.unsubscribed = none := by
          cases hu : sub.unsubscribed with
          | none => rfl
          | some u => exact absurd (hended u hu) (htimed.unsubscribed ref sub u hsub hu).not_gt
        have htag : b.tagOf ref = some (sub.id, sub.ch.closed, none) := by
          rw [tagOf, hsub, ← hopen]
          rfl
        have hlookup := hregistry.listed ref sub.id sub.ch.closed htag
        rcases hcause with hphase | hclosed
        -- nothing is left to visit
        · by_contra hunvisited
          obtain ⟨-, hmem⟩ := hreaders.pending i p [] hi (congrArg PublishPhase.reading? hphase)
          refine absurd ((hmem ref).mpr ⟨⟨sub.id, hlookup⟩, fun hvisited => ?_⟩) List.not_mem_nil
          obtain ⟨other, hother, hcame⟩ := hvisited
          obtain rfl := Option.some.inj (hsub.symm.trans hother)
          exact hunvisited hcame
        -- the bus was closed, which ends every subscription
        · exact nomatch (hregistry.emptied hclosed sub.id).symm.trans hlookup
    · rw [hnewSub.2.2.1, hstep.began] at hbegan
      exact absurd (htimed.began i p hi) (not_lt.mpr hbegan)
  · exact nomatch hnew.2.symm.trans he

end Deliveries

section Counters

/-- The call has to count a drop of the subscription. -/
@[simp] def PublishPhase.dropsAt (ref : ℕ) : PublishPhase → Bool
  | .dropping r _ => r == ref
  | _ => false

/-- The call has to count a drop of the bus. -/
@[simp] def PublishPhase.counts : PublishPhase → Bool
  | .counting _ => true
  | _ => false

/-- A call that does not hold the read lock has no drop to count. -/
theorem PublishPhase.dropsAt_of_not_reading {phase : PublishPhase} (h : phase.reading? = none)
    {ref : ℕ} : phase.dropsAt ref = false := by
  cases phase with
  | dropping r pending => exact absurd h (Option.some_ne_none pending)
  | _ => rfl

/-- The drops of a subscription that were counted. -/
def Sub.dropped (sub : Sub Value) : ℕ := sub.drained + sub.drops

/-- Every visit of a subscription is accounted for, and the bus has counted every drop but for those that
some call is about to count. -/
structure Bus.Counted (b : Bus Value) : Prop where
  visits : ∀ (ref : ℕ) (sub : Sub Value), b.subs[ref]? = some sub →
    sub.ch.passed.length + sub.dropped + b.publications.countP (fun p => p.phase.dropsAt ref) =
      sub.visitors.length
  total : b.droppedSubOverflow + b.publications.countP (fun p => p.phase.counts) =
    (b.subs.map Sub.dropped).sum

/-- A step of a call on a subscription that moves the account of the visits and that of the drops. -/
theorem Bus.Counted.visit (h : b.Counted) (overflow : ℕ) {i ref : ℕ} {p p' : Publication Value}
    {sub sub' : Sub Value} (hi : b.publications[i]? = some p) (hsub : b.subs[ref]? = some sub)
    (hothers : ∀ r, r ≠ ref → p'.phase.dropsAt r = p.phase.dropsAt r)
    (hvisits : sub'.ch.passed.length + sub'.dropped + (p'.phase.dropsAt ref).toNat + sub.visitors.length =
      sub.ch.passed.length + sub.dropped + (p.phase.dropsAt ref).toNat + sub'.visitors.length)
    (htotal : overflow + p'.phase.counts.toNat + sub.dropped =
      b.droppedSubOverflow + p.phase.counts.toNat + sub'.dropped) :
    Bus.Counted { b with
      subs := b.subs.set ref sub'
      publications := b.publications.set i p'
      droppedSubOverflow := overflow } where
  visits r other := by
    dsimp only
    rw [getElem?_set_of_getElem? hsub]
    have hcount := countP_set_add (fun p => p.phase.dropsAt r) hi p'
    split_ifs with hsame
    · intro hother
      obtain rfl := Option.some.inj hother
      subst hsame
      have hold := h.visits r sub hsub
      omega
    · intro hother
      have hold := h.visits r other hother
      rw [hothers r hsame] at hcount
      omega
  total := by
    dsimp only
    have hcount := countP_set_add (fun p => p.phase.counts) hi p'
    have hsum := sum_map_set_add Sub.dropped hsub sub'
    have hold := h.total
    omega

/-- A step of a call alone. -/
theorem Bus.Counted.call (h : b.Counted) {i overflow : ℕ} {p p' : Publication Value}
    (hi : b.publications[i]? = some p) (hdrops : ∀ r, p'.phase.dropsAt r = p.phase.dropsAt r)
    (htotal : overflow + p'.phase.counts.toNat = b.droppedSubOverflow + p.phase.counts.toNat) :
    Bus.Counted { b with
      publications := b.publications.set i p'
      droppedSubOverflow := overflow } where
  visits r sub hsub := by
    have hcount := countP_set_add (fun p => p.phase.dropsAt r) hi p'
    have hold := h.visits r sub hsub
    rw [hdrops r] at hcount
    dsimp only
    omega
  total := by
    have hcount := countP_set_add (fun p => p.phase.counts) hi p'
    have hold := h.total
    dsimp only
    omega

/-- A change of one subscription that leaves its account. -/
theorem Bus.Counted.setSub (h : b.Counted) {ref : ℕ} {sub sub' : Sub Value}
    (hsub : b.subs[ref]? = some sub) (hpassed : sub'.ch.passed = sub.ch.passed)
    (hdropped : sub'.dropped = sub.dropped) (hvisitors : sub'.visitors = sub.visitors) :
    (b.setSub ref sub').Counted where
  visits r other := by
    rw [Bus.setSub]
    dsimp only
    rw [getElem?_set_of_getElem? hsub]
    split_ifs with hsame
    · intro hother
      obtain rfl := Option.some.inj hother
      rw [hpassed, hdropped, hvisitors, hsame]
      exact h.visits ref sub hsub
    · exact h.visits r other
  total := by
    have hsum := sum_map_set_add Sub.dropped hsub sub'
    have hold := h.total
    rw [Bus.setSub]
    dsimp only
    omega

/-- `Subscribe` adds a subscription without visits, of which no call has to count a drop. -/
theorem Bus.Counted.addSub (h : b.Counted) (hfree : b.reading = false) : b.addSub.Counted := by
  have hidle (ref : ℕ) : b.publications.countP (fun p => p.phase.dropsAt ref) = 0 := by
    rw [List.countP_eq_zero]
    intro p hmem
    obtain ⟨i, hi⟩ := List.mem_iff_getElem?.mp hmem
    rw [PublishPhase.dropsAt_of_not_reading (not_reading hfree hi)]
    exact Bool.false_ne_true
  constructor
  · intro ref sub hsub
    rcases getElem?_concat_eq_some hsub with hold | ⟨-, rfl⟩
    · exact h.visits ref sub hold
    · simp only [Sub.dropped, Chan.passed_make, List.length_nil, Nat.zero_add]
      exact hidle ref
  · have hold := h.total
    change _ = ((b.subs ++ [_]).map Sub.dropped).sum
    rw [List.map_append, List.sum_append]
    exact hold

/-- `Close` leaves the counters of the subscriptions. -/
theorem Bus.Counted.close (h : b.Counted) : b.close.Counted := by
  constructor
  · intro ref sub' hsub'
    rw [Bus.close, List.getElem?_mapIdx] at hsub'
    obtain ⟨sub, hsub, rfl⟩ := Option.map_eq_some_iff.mp hsub'
    have hold := h.visits ref sub hsub
    split_ifs <;> exact hold
  · have hsame : b.close.subs.map Sub.dropped = b.subs.map Sub.dropped := by
      refine List.ext_getElem? fun ref => ?_
      rw [Bus.close, List.getElem?_map, List.getElem?_mapIdx, List.getElem?_map, Option.map_map]
      congr 1
      funext sub
      rw [Function.comp_apply]
      split_ifs <;> rfl
    rw [hsame]
    exact h.total

/-- Every move keeps the counters. -/
theorem Bus.Counted.change (h : b.Counted) (hchange : b.Change b') : b'.Counted := by
  cases hchange with
  | idle => exact h
  | publish value =>
    constructor
    · intro ref sub hsub
      have hold := h.visits ref sub hsub
      dsimp only
      rw [List.countP_append]
      exact hold
    · have hold := h.total
      dsimp only
      rw [List.countP_append]
      exact hold
  | proceed hi hphase => exact h.call hi (by simp [hphase]) (by simp [hphase])
  | enter order hi hphase => exact h.call hi (by simp [hphase]) (by simp [hphase])
  | refuse hi hphase hclosed => exact h.call hi (by simp [hphase]) (by simp [hphase])
  | leave hi hphase => exact h.call hi (by simp [hphase]) (by simp [hphase])
  | deliver hi hphase hsub hsend =>
    refine h.visit b.droppedSubOverflow hi hsub (by simp [hphase]) ?_ (by simp [hphase, Sub.dropped])
    simp only [hphase, Chan.passed_trySend hsend, Sub.dropped, PublishPhase.dropsAt, List.length_append,
      List.length_singleton]
    omega
  | overflow hi hphase hsub =>
    refine h.visit b.droppedSubOverflow hi hsub ?_ ?_ (by simp [hphase, Sub.dropped])
    · intro r hr
      simp [hphase, hr.symm]
    · simp only [hphase, Sub.dropped, PublishPhase.dropsAt, List.length_append, List.length_singleton,
        BEq.rfl, Bool.toNat_true, Bool.toNat_false]
      omega
  | panic hi hphase hsub hclosed => exact ⟨h.visits, h.total⟩
  | drop hi hphase hsub =>
    refine h.visit b.droppedSubOverflow hi hsub ?_ ?_ ?_
    · intro r hr
      simp [hphase, hr.symm]
    · simp only [hphase, Sub.dropped, PublishPhase.dropsAt, BEq.rfl, Bool.toNat_true, Bool.toNat_false]
      omega
    · simp only [hphase, Sub.dropped, PublishPhase.counts, Bool.toNat_true, Bool.toNat_false]
      omega
  | count hi hphase => exact h.call hi (by simp [hphase]) (by simp [hphase])
  | skipID => exact ⟨h.visits, h.total⟩
  | subscribe hfree hopen hroom => exact h.addSub hfree
  | @unsub ref sub hfree hsub =>
    have hended : (b.setSub ref (sub.unregister b.clock)).Counted := h.setSub hsub rfl rfl rfl
    exact ⟨hended.visits, hended.total⟩
  | close hfree => exact h.close
  | work hsub hpassed hclosed htotal => exact h.setSub hsub hpassed htotal rfl

end Counters

/-- All of the facts above. -/
structure Bus.Sound (maxSubs : ℤ) (b : Bus Value) : Prop where
  registry : b.Registry
  readers : b.Readers
  timed : b.Timed
  orderly : ∀ (ref : ℕ) (sub : Sub Value), b.subs[ref]? = some sub → b.Orderly sub
  complete : b.Complete
  counted : b.Counted
  limit : b.maxSubs = maxSubs
  running : b.panicked = false

/-- A new bus is sound. -/
theorem Bus.sound_new (maxSubs bufSize : ℤ) : (newBus Value maxSubs bufSize).Sound maxSubs where
  registry :=
    ⟨fun _ _ h => (nomatch h), fun _ _ _ h => (nomatch h), fun _ _ h => (nomatch h),
      fun _ _ _ _ h => (nomatch h), fun _ _ => rfl, le_max_right _ _⟩
  readers := by
    refine ⟨fun _ _ hvisited => ?_, fun _ _ _ h => (nomatch h)⟩
    obtain ⟨_, hsub, _⟩ := hvisited
    exact nomatch hsub
  timed :=
    ⟨fun _ _ h => (nomatch h), fun _ _ h => (nomatch h), fun _ _ _ h => (nomatch h),
      fun _ _ h => (nomatch h), fun _ _ _ h => (nomatch h)⟩
  orderly _ _ h := nomatch h
  complete _ _ _ _ _ h := nomatch h
  counted := ⟨fun _ _ h => (nomatch h), rfl⟩
  limit := rfl
  running := rfl

/-- No move panics: a call sends only to open channels, and `Close` closes only open ones. -/
theorem Bus.Change.panicked (h : b.Change b') (hregistry : b.Registry) (hreaders : b.Readers) :
    b'.panicked = b.panicked := by
  cases h with
  | panic hi hphase hsub hclosed =>
    obtain ⟨-, hopen, -⟩ := hreaders.first hregistry hi hphase hsub
    exact absurd (hopen.symm.trans hclosed) Bool.false_ne_true
  | close hfree =>
    have hopen : (b.subs.mapIdx fun ref sub => b.registers ref sub && sub.ch.closed).any id = false := by
      rw [List.any_eq_false]
      intro twice hmem htwice
      obtain ⟨ref, hat⟩ := List.mem_iff_getElem?.mp hmem
      rw [List.getElem?_mapIdx] at hat
      obtain ⟨sub, hsub, rfl⟩ := Option.map_eq_some_iff.mp hat
      obtain ⟨hregistered, hclosed⟩ := Bool.and_eq_true_iff.mp htwice
      have htag := hregistry.entry sub.id ref (of_decide_eq_true hregistered)
      rw [tagOf, hsub] at htag
      have hopen := congrArg (fun tag => tag.2.1) (Option.some.inj htag)
      exact Bool.false_ne_true (hopen.symm.trans hclosed)
    change (b.panicked || (b.subs.mapIdx fun ref sub => b.registers ref sub && sub.ch.closed).any id) =
      b.panicked
    rw [hopen, Bool.or_false]
  | _ => rfl

/-- No move changes the limit. -/
theorem Bus.Change.maxSubs (h : b.Change b') : b'.maxSubs = b.maxSubs := by
  cases h <;> rfl

/-- Every move of a sound bus leaves it sound. -/
theorem Bus.Sound.step {maxSubs : ℤ} (h : b.Sound maxSubs) (move : BusMove Value) :
    (b.step move).Sound maxSubs := by
  have hchange := b.act_change move
  have hcomplete := h.complete.change h.registry h.readers h.timed hchange
  have hcounted := h.counted.change hchange
  exact {
    registry := (h.registry.change hchange).frame rfl rfl le_rfl rfl rfl
    readers := (h.readers.change h.registry hchange).frame (fun _ _ => Iff.rfl) rfl rfl
    timed := h.timed.change hchange
    orderly := fun _ _ hsub =>
      Bus.Orderly.change h.registry h.readers h.timed h.orderly hchange hsub
    complete := fun i ref e p sub => hcomplete i ref e p sub
    counted := ⟨hcounted.visits, hcounted.total⟩
    limit := hchange.maxSubs.trans h.limit
    running := (hchange.panicked h.registry h.readers).trans h.running }

/-- No call of `Publish` is going on. -/
def Bus.Quiet (b : Bus Value) : Prop := ∀ p ∈ b.publications, p.phase = .returned

instance (b : Bus Value) : Decidable b.Quiet :=
  inferInstanceAs (Decidable (∀ p ∈ b.publications, p.phase = .returned))

/-- One call ended before another one began. -/
def Bus.Precedes (b : Bus Value) (i j : ℕ) : Prop :=
  ∃ p q e, b.publications[i]? = some p ∧ b.publications[j]? = some q ∧ p.ended = some e ∧ e < q.began

/-- A call was going on while the subscription was registered. -/
def Publication.Meets (p : Publication Value) (sub : Sub Value) : Prop :=
  (∀ e, p.ended = some e → sub.subscribed < e) ∧ ∀ u, sub.unsubscribed = some u → p.began < u

/-- The subscription was registered all the time while a call was going on, and the call has ended. -/
def Publication.Within (p : Publication Value) (sub : Sub Value) : Prop :=
  ∃ e, p.ended = some e ∧ sub.subscribed < p.began ∧ ∀ u, sub.unsubscribed = some u → e < u

/-- What comes later did not end before. -/
theorem Bus.Orderly.in_order {sub : Sub Value} (h : b.Orderly sub) :
    sub.ch.passed.Pairwise fun m m' => ¬b.Precedes m'.call m.call := by
  refine h.sorted.imp_of_mem ?_
  intro m m' hm hm' hlt hprecedes
  obtain ⟨p', p, e, hi', hi, he, hbefore⟩ := hprecedes
  obtain ⟨q, hq, -, hbegan, -⟩ := (h.sent m hm).call
  obtain ⟨q', hq', -, -, hended⟩ := (h.sent m' hm').call
  obtain rfl := Option.some.inj (hi.symm.trans hq)
  obtain rfl := Option.some.inj (hi'.symm.trans hq')
  have hsent := hended e he
  omega

/-- What came was published while the subscription was registered. -/
theorem Bus.Sends.meets {sub : Sub Value} {m : Delivery Value} (h : b.Sends sub m) :
    ∃ p, b.publications[m.call]? = some p ∧ p.value = m.value ∧ p.Meets sub := by
  obtain ⟨p, hi, hvalue, hbegan, hended⟩ := h.call
  refine ⟨p, hi, hvalue, fun e he => ?_, fun u hu => ?_⟩
  · exact h.subscribed.trans_le (hended e he)
  · exact hbegan.trans (h.unsubscribed u hu)

/-- While no call is going on, every visit is accounted for, and the bus has counted every drop. -/
theorem Bus.Counted.quiet (h : b.Counted) (hquiet : b.Quiet) :
    (∀ sub ∈ b.subs, sub.ch.buffer.length + sub.ch.received.length + (sub.drained + sub.drops) =
      sub.visitors.length) ∧
      b.droppedSubOverflow = (b.subs.map fun sub => sub.drained + sub.drops).sum := by
  have hnone (counts : PublishPhase → Bool) (hreturned : counts .returned = false) :
      b.publications.countP (fun p => counts p.phase) = 0 := by
    rw [List.countP_eq_zero]
    intro p hmem
    rw [hquiet p hmem, hreturned]
    exact Bool.false_ne_true
  constructor
  · intro sub hmem
    obtain ⟨ref, hsub⟩ := List.mem_iff_getElem?.mp hmem
    have hvisits := h.visits ref sub hsub
    rw [hnone (PublishPhase.dropsAt ref) rfl, Sub.dropped, Chan.passed, List.length_append] at hvisits
    omega
  · have htotal := h.total
    rw [hnone PublishPhase.counts rfl] at htotal
    exact htotal

/-- After any moves of any goroutines: what a subscription got, whether it was received or is buffered,
came from different calls of `Publish` that met its registration, in the order of calls that do not
overlap; the calls that visited it are different, and all that were made while it was registered are
among them. While no call is going on, every visit is accounted for as buffered, received or dropped, and
the counter of the bus is the total of the drops. There are no more subscribers than allowed, and no call
has sent on a closed channel. -/
theorem bus_accounts (maxSubs bufSize : ℤ) (moves : List (BusMove Value)) :
    let b := run Bus.step (newBus Value maxSubs bufSize) moves
    (∀ sub ∈ b.subs,
      (sub.ch.passed.map Delivery.call).Nodup ∧
        (∀ m ∈ sub.ch.passed, ∃ p, b.publications[m.call]? = some p ∧ p.value = m.value ∧
          p.Meets sub) ∧
        (sub.ch.passed.Pairwise fun m m' => ¬b.Precedes m'.call m.call) ∧
        sub.visitors.Nodup ∧
        ∀ (i : ℕ) (p : Publication Value), b.publications[i]? = some p → p.Within sub →
          i ∈ sub.visitors) ∧
      (b.Quiet →
        (∀ sub ∈ b.subs, sub.ch.buffer.length + sub.ch.received.length +
          (sub.drained + sub.drops) = sub.visitors.length) ∧
        b.droppedSubOverflow = (b.subs.map fun sub => sub.drained + sub.drops).sum) ∧
      (b.subscribers.keys.card : ℤ) ≤ max maxSubs 0 ∧ b.panicked = false := by
  intro b
  have hb : b.Sound maxSubs :=
    run_invariant (fun _ move h _ => h.step move) (Bus.sound_new maxSubs bufSize)
      (throughout_of_forall (Q := fun _ => True) fun _ _ => trivial)
  refine ⟨fun sub hmem => ?_, hb.counted.quiet, ?_, hb.running⟩
  · obtain ⟨ref, hsub⟩ := List.mem_iff_getElem?.mp hmem
    have horderly := hb.orderly ref sub hsub
    refine ⟨horderly.calls.nodup horderly.nodup, fun m hm => (horderly.sent m hm).meets,
      horderly.in_order, horderly.nodup, fun i p hi hwithin => ?_⟩
    obtain ⟨e, he, hsubscribed, hended⟩ := hwithin
    exact hb.complete i ref e p sub hi he hsub hsubscribed.le hended
  · have hbounded := hb.registry.bounded
    rw [hb.limit] at hbounded
    exact hbounded

/-- Some order of visiting; a sole first subscription is listed. -/
noncomputable def someOrder (m : Finmap fun _ : ℕ => ℕ) : Range m :=
  if h : m.entries = {⟨0, 0⟩} then ⟨[⟨0, 0⟩], h.symm⟩ else (Range.nonempty m).some

/-- Two calls publish to a subscription with room for one value; the second one is dropped and counted. -/
theorem bus_accounts_overflow :
    let moves : List (BusMove ℕ) :=
      [.subscribe, .publish 7, .publish 8] ++ List.replicate 4 (.next 0 someOrder) ++
        List.replicate 6 (.next 1 someOrder)
    let b := run Bus.step (newBus ℕ 1 1) moves
    (b.Quiet ∧ b.droppedSubOverflow = 1) ∧
      b.droppedSubOverflow = (b.subs.map fun sub => sub.drained + sub.drops).sum :=
  ⟨by decide, ((bus_accounts 1 1 _).2.1 (by decide)).2⟩

end Grunyas.Decisions
