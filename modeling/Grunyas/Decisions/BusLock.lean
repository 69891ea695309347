import Grunyas.Decisions.Bus

/-!
# The lock of the decision bus

A call of `Publish` visits what is registered while it holds the read lock, and nothing is registered,
ended or closed in between. Every move keeps what is known of the map of the subscribers, `Registry`, and
of the calls that hold the lock, `Readers`.
-/

namespace Grunyas.Decisions

open GoChan (Chan)
open GoMap (Range)
open Machine

variable {Value : Type} {b b' : Bus Value}

/-- A call has come to a subscription. -/
def Bus.Visited (b : Bus Value) (i ref : ℕ) : Prop := ∃ sub, b.subs[ref]? = some sub ∧ i ∈ sub.visitors

/-- The map has a subscription. -/
def Bus.Registered (b : Bus Value) (ref : ℕ) : Prop := ∃ id, b.subscribers.lookup id = some ref

/-- What the map of the subscribers is about: the identifier of a subscription, whether its channel is
closed, and whether it has ended. -/
def Sub.tag (sub : Sub Value) : ℕ × Bool × Option ℕ := (sub.id, sub.ch.closed, sub.unsubscribed)

/-- The tag of a subscription of the bus. -/
def Bus.tagOf (b : Bus Value) (ref : ℕ) : Option (ℕ × Bool × Option ℕ) := b.subs[ref]?.map Sub.tag

section Registry

/-- The map has the open subscriptions that have not ended, under identifiers that were given out. -/
structure Bus.Registry (b : Bus Value) : Prop where
  entry : ∀ id ref, b.subscribers.lookup id = some ref → b.tagOf ref = some (id, false, none)
  listed : ∀ ref id closed, b.tagOf ref = some (id, closed, none) → b.subscribers.lookup id = some ref
  fresh : ∀ ref tag, b.tagOf ref = some tag → tag.1 < b.nextSubID
  distinct : ∀ ref ref' tag tag', b.tagOf ref = some tag → b.tagOf ref' = some tag' →
    tag.1 = tag'.1 → ref = ref'
  emptied : b.closed = true → ∀ id, b.subscribers.lookup id = none
  bounded : (b.subscribers.keys.card : ℤ) ≤ max b.maxSubs 0

/-- A move that leaves the map and what it is about keeps these facts. -/
theorem Bus.Registry.frame (h : b.Registry) (htags : b'.tagOf = b.tagOf)
    (hmap : b'.subscribers = b.subscribers) (hid : b.nextSubID ≤ b'.nextSubID)
    (hclosed : b'.closed = b.closed) (hmax : b'.maxSubs = b.maxSubs) : b'.Registry where
  entry := by
    rw [hmap, htags]
    exact h.entry
  listed := by
    rw [hmap, htags]
    exact h.listed
  fresh ref tag := by
    rw [htags]
    exact fun htag => (h.fresh ref tag htag).trans_le hid
  distinct := by
    rw [htags]
    exact h.distinct
  emptied := by
    rw [hmap, hclosed]
    exact h.emptied
  bounded := by
    rw [hmap, hmax]
    exact h.bounded

/-- Two identifiers do not share a subscription. -/
theorem Bus.Registry.injective (h : b.Registry) {id id' ref : ℕ}
    (hid : b.subscribers.lookup id = some ref) (hid' : b.subscribers.lookup id' = some ref) : id = id' :=
  congrArg Prod.fst (Option.some.inj ((h.entry id ref hid).symm.trans (h.entry id' ref hid')))

/-- The tags of the subscriptions when one of them changed. -/
theorem Bus.tagOf_setSub {ref : ℕ} {sub : Sub Value} (hsub : b.subs[ref]? = some sub)
    (sub' : Sub Value) (r : ℕ) :
    (b.setSub ref sub').tagOf r = if r = ref then some sub'.tag else b.tagOf r := by
  rw [tagOf, setSub, getElem?_set_of_getElem? hsub]
  split_ifs <;> rfl

/-- A subscription that keeps its tag leaves the tags. -/
theorem Bus.tagOf_setSub_same {ref : ℕ} {sub sub' : Sub Value} (hsub : b.subs[ref]? = some sub)
    (htag : sub'.tag = sub.tag) : (b.setSub ref sub').tagOf = b.tagOf := by
  funext r
  rw [tagOf_setSub hsub]
  split_ifs with hsame
  · rw [hsame, tagOf, hsub, htag]
    rfl
  · rfl

/-- The tags after `Subscribe`. -/
theorem Bus.tagOf_addSub (b : Bus Value) (ref : ℕ) :
    b.addSub.tagOf ref =
      if ref = b.subs.length then some (b.nextSubID, false, none) else b.tagOf ref := by
  rw [tagOf, addSub]
  split_ifs with hnew
  · rw [hnew, List.getElem?_concat_length]
    rfl
  · rw [List.getElem?_append]
    split_ifs with hlt
    · rfl
    · rw [tagOf, List.getElem?_eq_none (not_lt.mp hlt), List.getElem?_eq_none (by simp; omega)]

/-- `Subscribe` takes a new identifier. -/
theorem Bus.Registry.addSub (h : b.Registry) (hopen : b.closed = false)
    (hroom : (b.subscribers.keys.card : ℤ) < b.maxSubs) : b.addSub.Registry where
  entry id ref := by
    rw [tagOf_addSub]
    intro hlookup
    rcases GoMap.lookup_insert_eq_some.mp hlookup with ⟨rfl, rfl⟩ | ⟨-, hold⟩
    · rw [if_pos rfl]
    · have htag := h.entry id ref hold
      rw [if_neg (fun hlen => ?_)]
      · exact htag
      · rw [tagOf, hlen, List.getElem?_eq_none le_rfl] at htag
        exact nomatch htag
  listed ref id closed := by
    rw [tagOf_addSub]
    intro htag
    refine GoMap.lookup_insert_eq_some.mpr ?_
    split_ifs at htag with hnew
    · exact Or.inl ⟨(congrArg Prod.fst (Option.some.inj htag)).symm, hnew⟩
    · exact Or.inr ⟨(h.fresh ref _ htag).ne, h.listed ref id closed htag⟩
  fresh ref tag := by
    rw [tagOf_addSub]
    split_ifs with hnew
    · intro htag
      obtain rfl := Option.some.inj htag
      exact Nat.lt_succ_self _
    · exact fun htag => (h.fresh ref tag htag).trans (Nat.lt_succ_self _)
  distinct ref ref' tag tag' := by
    rw [tagOf_addSub, tagOf_addSub]
    intro htag htag' hid
    split_ifs at htag htag' with hnew hnew' hnew'
    · exact hnew.trans hnew'.symm
    · obtain rfl := Option.some.inj htag
      exact absurd hid.symm (h.fresh ref' tag' htag').ne
    · obtain rfl := Option.some.inj htag'
      exact absurd hid (h.fresh ref tag htag).ne
    · exact h.distinct ref ref' tag tag' htag htag' hid
  emptied hclosed := nomatch hopen.symm.trans hclosed
  bounded := by
    have hkeys : (b.subscribers.insert b.nextSubID b.subs.length).keys =
        insert b.nextSubID b.subscribers.keys := by
      ext id
      rw [Finmap.mem_keys, Finmap.mem_insert, Finset.mem_insert, Finmap.mem_keys]
    change ((b.subscribers.insert b.nextSubID b.subs.length).keys.card : ℤ) ≤ max b.maxSubs 0
    rw [hkeys]
    have hcard := Finset.card_insert_le b.nextSubID b.subscribers.keys
    omega

/-- The identifiers after a move that leaves them. -/
theorem Bus.Registry.ids (h : b.Registry) (b' : Bus Value) (hid : b'.nextSubID = b.nextSubID)
    (htags : ∀ ref tag, b'.tagOf ref = some tag → ∃ old, b.tagOf ref = some old ∧ old.1 = tag.1) :
    (∀ ref tag, b'.tagOf ref = some tag → tag.1 < b'.nextSubID) ∧
      ∀ ref ref' tag tag', b'.tagOf ref = some tag → b'.tagOf ref' = some tag' →
        tag.1 = tag'.1 → ref = ref' := by
  constructor
  · intro ref tag htag
    obtain ⟨old, hold, hsame⟩ := htags ref tag htag
    rw [hid, ← hsame]
    exact h.fresh ref old hold
  · intro ref ref' tag tag' htag htag' hids
    obtain ⟨old, hold, hsame⟩ := htags ref tag htag
    obtain ⟨old', hold', hsame'⟩ := htags ref' tag' htag'
    exact h.distinct ref ref' old old' hold hold' (hsame.trans (hids.trans hsame'.symm))

/-- `Unsub` takes the subscription out of the map. -/
theorem Bus.Registry.unsub (h : b.Registry) {ref : ℕ} {sub : Sub Value}
    (hsub : b.subs[ref]? = some sub) : (b.unsub ref sub).Registry := by
  have htag : b.tagOf ref = some sub.tag := congrArg (Option.map Sub.tag) hsub
  have htags (r : ℕ) : (b.unsub ref sub).tagOf r =
      if r = ref then some (sub.id, sub.ch.closed, sub.unsubscribed.or (some b.clock))
      else b.tagOf r := tagOf_setSub hsub _ r
  have hids := h.ids (b.unsub ref sub) rfl (by
    intro r tag
    rw [htags]
    split_ifs with hsame
    · intro hnew
      rw [hsame]
      exact ⟨sub.tag, htag, (congrArg Prod.fst (Option.some.inj hnew) :)⟩
    · exact fun hold => ⟨tag, hold, rfl⟩)
  refine ⟨fun id r => ?_, fun r id closed => ?_, hids.1, hids.2, fun hclosed id => ?_, ?_⟩
  · rw [htags]
    intro hlookup
    obtain ⟨hid, hold⟩ := GoMap.lookup_erase_eq_some.mp hlookup
    have hentry := h.entry id r hold
    rw [if_neg (fun hsame => ?_)]
    · exact hentry
    · rw [hsame, htag] at hentry
      exact hid (congrArg Prod.fst (Option.some.inj hentry)).symm
  · rw [htags]
    intro hnew
    refine GoMap.lookup_erase_eq_some.mpr ?_
    split_ifs at hnew with hsame
    · have hended := congrArg (fun tag => tag.2.2) (Option.some.inj hnew)
      cases hunsub : sub.unsubscribed <;> rw [hunsub] at hended <;> exact nomatch hended
    · exact ⟨fun hid => hsame (h.distinct r ref _ _ hnew htag hid), h.listed r id closed hnew⟩
  · refine Option.eq_none_iff_forall_ne_some.mpr fun r hlookup => ?_
    obtain ⟨-, hold⟩ := GoMap.lookup_erase_eq_some.mp hlookup
    exact nomatch (h.emptied hclosed id).symm.trans hold
  · have hcard := Finset.card_erase_le (s := b.subscribers.keys) (a := sub.id)
    have hbounded := h.bounded
    change ((b.subscribers.erase sub.id).keys.card : ℤ) ≤ max b.maxSubs 0
    rw [Finmap.keys_erase]
    omega

/-- The tags after `Close`. -/
theorem Bus.tagOf_close (b : Bus Value) (ref : ℕ) :
    b.close.tagOf ref = b.subs[ref]?.map fun sub =>
      if b.registers ref sub then (sub.id, true, sub.unsubscribed.or (some b.clock)) else sub.tag := by
  rw [tagOf, close, List.getElem?_mapIdx, Option.map_map]
  congr 1
  funext sub
  rw [Function.comp_apply]
  split_ifs <;> rfl

/-- `Close` empties the map. -/
theorem Bus.Registry.close (h : b.Registry) : b.close.Registry := by
  have hids := h.ids b.close rfl (by
    intro ref tag
    rw [tagOf_close]
    intro hnew
    obtain ⟨sub, hsub, hnew⟩ := Option.map_eq_some_iff.mp hnew
    refine ⟨sub.tag, congrArg (Option.map Sub.tag) hsub, ?_⟩
    split_ifs at hnew
    · exact (congrArg Prod.fst hnew :)
    · exact congrArg Prod.fst hnew)
  refine ⟨fun id ref hlookup => (nomatch hlookup), fun ref id closed => ?_, hids.1, hids.2,
    fun _ id => rfl, le_max_right _ _⟩
  rw [tagOf_close]
  intro hnew
  obtain ⟨sub, hsub, hnew⟩ := Option.map_eq_some_iff.mp hnew
  split_ifs at hnew with hregistered
  · have hended := congrArg (fun tag => tag.2.2) hnew
    cases hunsub : sub.unsubscribed <;> rw [hunsub] at hended <;> exact nomatch hended
  · have hold : b.tagOf ref = some (id, closed, none) := by
      rw [tagOf, hsub, ← hnew]
      rfl
    have hid : sub.id = id := congrArg Prod.fst hnew
    refine absurd (decide_eq_true ?_) hregistered
    rw [hid]
    exact h.listed ref id closed hold

/-- Every move keeps the facts of the map. -/
theorem Bus.Registry.change (h : b.Registry) (hchange : b.Change b') : b'.Registry := by
  cases hchange with
  | idle => exact h
  | publish value => exact h.frame rfl rfl le_rfl rfl rfl
  | proceed hi hphase => exact h.frame rfl rfl le_rfl rfl rfl
  | enter order hi hphase => exact h.frame rfl rfl le_rfl rfl rfl
  | refuse hi hphase hclosed => exact h.frame rfl rfl le_rfl rfl rfl
  | leave hi hphase => exact h.frame rfl rfl le_rfl rfl rfl
  | deliver hi hphase hsub hsend =>
    refine h.frame (tagOf_setSub_same hsub ?_) rfl le_rfl rfl rfl
    rw [Sub.tag, Chan.closed_trySend hsend]
    rfl
  | overflow hi hphase hsub => exact h.frame (tagOf_setSub_same hsub rfl) rfl le_rfl rfl rfl
  | panic hi hphase hsub hclosed => exact h.frame rfl rfl le_rfl rfl rfl
  | drop hi hphase hsub => exact h.frame (tagOf_setSub_same hsub rfl) rfl le_rfl rfl rfl
  | count hi hphase => exact h.frame rfl rfl le_rfl rfl rfl
  | skipID => exact h.frame rfl rfl (Nat.le_succ _) rfl rfl
  | subscribe hfree hopen hroom => exact h.addSub hopen hroom
  | unsub hfree hsub => exact h.unsub hsub
  | close hfree => exact h.close
  | work hsub hpassed hclosed htotal =>
    refine h.frame (tagOf_setSub_same hsub ?_) rfl le_rfl rfl rfl
    rw [Sub.tag, hclosed]
    rfl

end Registry

section Readers

/-- The call has taken the read lock. -/
def PublishPhase.entered : PublishPhase → Bool
  | .checking => false
  | .locking => false
  | _ => true

/-- Only calls that took the read lock have visited anything. Those that hold it still have to visit
what is registered and not visited. -/
structure Bus.Readers (b : Bus Value) : Prop where
  entered : ∀ i ref, b.Visited i ref → ∃ p, b.publications[i]? = some p ∧ p.phase.entered = true
  pending : ∀ i p pending, b.publications[i]? = some p → p.phase.reading? = some pending →
    pending.Nodup ∧ ∀ ref, ref ∈ pending ↔ b.Registered ref ∧ ¬b.Visited i ref

/-- A call that holds the read lock has taken it. -/
theorem PublishPhase.entered_of_reading {phase : PublishPhase} {pending : List ℕ}
    (h : phase.reading? = some pending) : phase.entered = true := by
  cases phase <;> first | rfl | exact nomatch h

/-- The visits when one subscription changed. -/
theorem Bus.visited_setSub {ref : ℕ} {sub : Sub Value} (hsub : b.subs[ref]? = some sub)
    (sub' : Sub Value) (j r : ℕ) :
    (b.setSub ref sub').Visited j r ↔ if r = ref then j ∈ sub'.visitors else b.Visited j r := by
  rw [Visited, setSub, getElem?_set_of_getElem? hsub]
  split_ifs with hsame
  · simp
  · rfl

/-- A subscription that keeps its visitors leaves the visits. -/
theorem Bus.visited_setSub_same {ref : ℕ} {sub sub' : Sub Value} (hsub : b.subs[ref]? = some sub)
    (hvisitors : sub'.visitors = sub.visitors) (j r : ℕ) :
    (b.setSub ref sub').Visited j r ↔ b.Visited j r := by
  rw [visited_setSub hsub]
  split_ifs with hsame
  · rw [hsame, hvisitors, Visited, hsub]
    simp
  · rfl

/-- While the read lock is free, no call holds it. -/
theorem Bus.not_reading (hfree : b.reading = false) {i : ℕ} {p : Publication Value}
    (hi : b.publications[i]? = some p) : p.phase.reading? = none := by
  rw [reading, List.any_eq_false] at hfree
  exact Option.not_isSome_iff_eq_none.mp (hfree p (List.mem_of_getElem? hi))

/-- A move that leaves the visits, the map and the calls. -/
theorem Bus.Readers.frame (h : b.Readers) (hvisited : ∀ i ref, b'.Visited i ref ↔ b.Visited i ref)
    (hmap : b'.subscribers = b.subscribers) (hcalls : b'.publications = b.publications) :
    b'.Readers where
  entered i ref := by
    rw [hvisited, hcalls]
    exact h.entered i ref
  pending i p pending := by
    simp only [hvisited, hcalls, Registered, hmap]
    exact h.pending i p pending

/-- A move that leaves the visits and the calls while the read lock is free. -/
theorem Bus.Readers.idle (h : b.Readers) (hfree : b.reading = false)
    (hvisited : ∀ i ref, b'.Visited i ref ↔ b.Visited i ref)
    (hcalls : b'.publications = b.publications) : b'.Readers where
  entered i ref := by
    rw [hvisited, hcalls]
    exact h.entered i ref
  pending i p pending := by
    rw [hcalls]
    intro hi hreading
    exact nomatch (not_reading hfree hi).symm.trans hreading

/-- A step of one call that visits nothing. -/
theorem Bus.Readers.set (h : b.Readers) {i : ℕ} {p p' : Publication Value}
    (hi : b.publications[i]? = some p) (hentered : p.phase.entered = true → p'.phase.entered = true)
    (hpending : ∀ pending, p'.phase.reading? = some pending →
      pending.Nodup ∧ ∀ ref, ref ∈ pending ↔ b.Registered ref ∧ ¬b.Visited i ref) :
    Bus.Readers { b with publications := b.publications.set i p' } where
  entered j ref hvisited := by
    obtain ⟨q, hj, hq⟩ := h.entered j ref hvisited
    dsimp only
    rw [getElem?_set_of_getElem? hi]
    split_ifs with hsame
    · subst hsame
      obtain rfl := Option.some.inj (hi.symm.trans hj)
      exact ⟨p', rfl, hentered hq⟩
    · exact ⟨q, hj, hq⟩
  pending j q pending := by
    dsimp only
    rw [getElem?_set_of_getElem? hi]
    split_ifs with hsame
    · intro hq
      obtain rfl := Option.some.inj hq
      rw [hsame]
      exact hpending pending
    · exact h.pending j q pending

/-- The calls have come to what they visited before and to what they visit now. -/
theorem Bus.visited_visit {i ref : ℕ} {sub sub' : Sub Value} (hsub : b.subs[ref]? = some sub)
    (hvisitors : sub'.visitors = sub.visitors ++ [i]) (j r : ℕ) :
    (b.setSub ref sub').Visited j r ↔ b.Visited j r ∨ j = i ∧ r = ref := by
  rw [visited_setSub hsub]
  split_ifs with hsame
  · rw [hsame, hvisitors, List.mem_append, List.mem_singleton, Visited, hsub]
    simp
  · simp [hsame]

/-- A call visits the first one of those that it has to. -/
theorem Bus.Readers.visit (h : b.Readers) {i ref : ℕ} {p : Publication Value} {pending : List ℕ}
    {sub sub' : Sub Value} {phase : PublishPhase} (hi : b.publications[i]? = some p)
    (hphase : p.phase = .visiting (ref :: pending)) (hsub : b.subs[ref]? = some sub)
    (hvisitors : sub'.visitors = sub.visitors ++ [i]) (hnext : phase.reading? = some pending) :
    ((b.setSub ref sub').goto i p phase).Readers where
  entered j r hvisited := by
    change ∃ q, (b.publications.set i { p with phase := phase })[j]? = some q ∧ q.phase.entered = true
    rw [getElem?_set_of_getElem? hi]
    split_ifs with hsame
    · exact ⟨_, rfl, PublishPhase.entered_of_reading hnext⟩
    · rcases (visited_visit hsub hvisitors j r).mp hvisited with hold | hnew
      · exact h.entered j r hold
      · exact absurd hnew.1 hsame
  pending j q rest := by
    change (b.publications.set i { p with phase := phase })[j]? = some q → _ →
      rest.Nodup ∧ ∀ r, r ∈ rest ↔ b.Registered r ∧ ¬(b.setSub ref sub').Visited j r
    rw [getElem?_set_of_getElem? hi]
    obtain ⟨hnodup, hmem⟩ := h.pending i p (ref :: pending) hi (congrArg PublishPhase.reading? hphase)
    simp only [visited_visit hsub hvisitors]
    split_ifs with hsame
    -- the call itself: what it visits now was the first one that it had to visit, and only there
    · intro hq hrest
      obtain rfl := Option.some.inj hq
      obtain rfl := Option.some.inj (hnext.symm.trans hrest)
      refine ⟨hnodup.of_cons, fun r => ?_⟩
      have hr := hmem r
      have hfirst : ref ∉ pending := (List.nodup_cons.mp hnodup).1
      rw [List.mem_cons] at hr
      subst hsame
      constructor
      · intro hrest
        have hold := hr.mp (Or.inr hrest)
        refine ⟨hold.1, fun hvisited => ?_⟩
        rcases hvisited with hbefore | hnow
        · exact hold.2 hbefore
        · exact hfirst (hnow.2 ▸ hrest)
      · intro hr'
        rcases hr.mpr ⟨hr'.1, fun hbefore => hr'.2 (Or.inl hbefore)⟩ with hfirst' | hrest
        · exact absurd (Or.inr ⟨rfl, hfirst'⟩) hr'.2
        · exact hrest
    · intro hj hrest
      simp only [hsame, false_and, or_false]
      exact h.pending j q rest hj hrest

/-- A call that takes the read lock has to visit what is registered. -/
theorem Bus.Registry.range (h : b.Registry) (order : Range b.subscribers) :
    (order.entries.map Sigma.snd).Nodup ∧
      ∀ ref, ref ∈ order.entries.map Sigma.snd ↔ b.Registered ref := by
  constructor
  · refine List.Nodup.map_on ?_ order.nodup
    intro first hfirst second hsecond hsame
    refine order.eq_of_key_eq hfirst hsecond ?_
    exact h.injective (order.mem_entries.mp hfirst) (hsame ▸ order.mem_entries.mp hsecond)
  · intro ref
    rw [List.mem_map]
    constructor
    · intro hmem
      obtain ⟨⟨id, ref'⟩, hentry, rfl⟩ := hmem
      exact ⟨id, order.mem_entries.mp hentry⟩
    · intro hregistered
      obtain ⟨id, hid⟩ := hregistered
      exact ⟨⟨id, ref⟩, order.mem_entries.mpr hid, rfl⟩

/-- The visits after `Subscribe`. -/
theorem Bus.visited_addSub (b : Bus Value) (i ref : ℕ) : b.addSub.Visited i ref ↔ b.Visited i ref := by
  constructor
  · intro hvisited
    obtain ⟨sub, hsub, hmem⟩ := hvisited
    rcases getElem?_concat_eq_some hsub with hold | ⟨-, rfl⟩
    · exact ⟨sub, hold, hmem⟩
    · exact nomatch hmem
  · intro hvisited
    obtain ⟨sub, hsub, hmem⟩ := hvisited
    exact ⟨sub, getElem?_concat_of_getElem? hsub _, hmem⟩

/-- The visits after `Close`. -/
theorem Bus.visited_close (b : Bus Value) (i ref : ℕ) : b.close.Visited i ref ↔ b.Visited i ref := by
  rw [Visited, close]
  dsimp only
  rw [List.getElem?_mapIdx]
  constructor
  · intro hvisited
    obtain ⟨sub', hsub', hmem⟩ := hvisited
    obtain ⟨sub, hsub, rfl⟩ := Option.map_eq_some_iff.mp hsub'
    refine ⟨sub, hsub, ?_⟩
    split_ifs at hmem <;> exact hmem
  · intro hvisited
    obtain ⟨sub, hsub, hmem⟩ := hvisited
    refine ⟨_, Option.map_eq_some_iff.mpr ⟨sub, hsub, rfl⟩, ?_⟩
    split_ifs <;> exact hmem

/-- Every move keeps the facts of the readers. -/
theorem Bus.Readers.change (h : b.Readers) (hregistry : b.Registry) (hchange : b.Change b') :
    b'.Readers := by
  cases hchange with
  | idle => exact h
  | publish value =>
    constructor
    · intro i ref hvisited
      obtain ⟨p, hi, hentered⟩ := h.entered i ref hvisited
      exact ⟨p, getElem?_concat_of_getElem? hi _, hentered⟩
    · intro i p pending hi hreading
      rcases getElem?_concat_eq_some hi with hold | ⟨-, rfl⟩
      · exact h.pending i p pending hold hreading
      · exact nomatch hreading
  | proceed hi hphase => exact h.set hi (by rw [hphase]; exact id) (fun _ hreading => nomatch hreading)
  | @enter i p order hi hphase =>
    -- before it took the lock, the call has visited nothing
    have hunvisited (ref : ℕ) : ¬b.Visited i ref := by
      intro hvisited
      obtain ⟨q, hj, hentered⟩ := h.entered i ref hvisited
      obtain rfl := Option.some.inj (hi.symm.trans hj)
      rw [hphase] at hentered
      exact nomatch hentered
    obtain ⟨hnodup, hmem⟩ := hregistry.range order
    refine h.set hi (by rw [hphase]; exact fun hentered => nomatch hentered) ?_
    intro pending hreading
    obtain rfl := Option.some.inj hreading
    exact ⟨hnodup, fun ref => (hmem ref).trans (and_iff_left (hunvisited ref)).symm⟩
  | refuse hi hphase hclosed => exact h.set hi (fun _ => rfl) (fun _ hreading => nomatch hreading)
  | leave hi hphase => exact h.set hi (fun _ => rfl) (fun _ hreading => nomatch hreading)
  | deliver hi hphase hsub hsend => exact h.visit hi hphase hsub rfl rfl
  | overflow hi hphase hsub => exact h.visit hi hphase hsub rfl rfl
  | panic hi hphase hsub hclosed => exact h.frame (fun _ _ => Iff.rfl) rfl rfl
  | @drop i ref p pending sub hi hphase hsub =>
    have hdropped : (b.setSub ref { sub with drops := sub.drops + 1 }).Readers :=
      h.frame (visited_setSub_same hsub rfl) rfl rfl
    refine hdropped.set hi (fun _ => rfl) fun rest hreading => ?_
    exact hdropped.pending i p rest hi ((congrArg PublishPhase.reading? hphase).trans hreading)
  | @count i p pending hi hphase =>
    have hcounted : Bus.Readers { b with droppedSubOverflow := b.droppedSubOverflow + 1 } :=
      h.frame (fun _ _ => Iff.rfl) rfl rfl
    refine hcounted.set hi (fun _ => rfl) fun rest hreading => ?_
    exact hcounted.pending i p rest hi ((congrArg PublishPhase.reading? hphase).trans hreading)
  | skipID => exact h.frame (fun _ _ => Iff.rfl) rfl rfl
  | subscribe hfree hopen hroom => exact h.idle hfree b.visited_addSub rfl
  | unsub hfree hsub => exact h.idle hfree (visited_setSub_same hsub rfl) rfl
  | close hfree => exact h.idle hfree b.visited_close rfl
  | work hsub hpassed hclosed htotal => exact h.frame (visited_setSub_same hsub rfl) rfl rfl

end Readers

end Grunyas.Decisions
