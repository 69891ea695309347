import Grunyas.Go.Maps
import Grunyas.Machine.Run
import Grunyas.Proxy.IdleHeap

/-!
# The idle sweeper

Sessions are tracked, untracked and expired. Every call keeps the heap and the map of the sweeper
`Consistent`, so that they agree, and the entries know their places, after any sequence of calls:
`sweeper_consistent`.
-/

namespace Grunyas.Proxy

open GoHeap Machine Grunyas.Server

/-- `newIdleSweeper`. -/
def newIdleSweeper (Session : Type) (timeout : Time) : Sweeper Session := { timeout := timeout }

namespace Sweeper

variable {Session : Type} [DecidableEq Session]

/-- `Track` of a session, and the time at which it reads the clock. -/
def track (s : Sweeper Session) (now : Time) (sess : Session) : Sweeper Session :=
  if s.timeout ≤ 0 then s
  else
    let ref := s.cells.length
    let pushed := (s.alloc ⟨sess, now + s.timeout, 0⟩).heapPush ref
    { pushed with entries := pushed.entries.insert sess ref }

/-- `Untrack` of a session. -/
def untrack (s : Sweeper Session) (sess : Session) : Sweeper Session :=
  if s.timeout ≤ 0 then s
  else
    match s.entries.lookup sess with
    | none => s
    | some ref =>
      match s.cells[ref]? with
      | none => { s with panicked := true }
      | some entry =>
        if 0 ≤ entry.index ∧ entry.index < s.heap.length then
          let removed := s.heapRemove entry.index.toNat
          { removed with entries := removed.entries.erase sess }
        else { s with panicked := true }

/-- The loop of `_expire`, with the sessions that expired. -/
def expireLoop (now : Time) (lastActive : Session → Time) :
    ℕ → Sweeper Session → List Session → Sweeper Session × List Session
  | 0, s, expired => (s, expired)
  | turns + 1, s, expired =>
    match s.heap[0]? with
    | none => (s, expired)
    | some ref =>
      match s.cells[ref]? with
      | none => ({ s with panicked := true }, expired)
      | some entry =>
        if now < entry.deadline then (s, expired)
        else
          let newDeadline := lastActive entry.sess + s.timeout
          if now < newDeadline then
            expireLoop now lastActive turns ((s.setDeadline ref newDeadline).heapFix 0) expired
          else
            let popped := s.heapPop
            expireLoop now lastActive turns { popped with entries := popped.entries.erase entry.sess }
              (expired ++ [entry.sess])

/-- `_expire` at a time. Every turn of its loop leaves one entry less that is due, so that as many turns
as there are entries suffice. -/
def expireAt (s : Sweeper Session) (now : Time) (lastActive : Session → Time) :
    Sweeper Session × List Session :=
  expireLoop now lastActive s.heap.length s []

/-- `Expire` at a time. -/
def expire (s : Sweeper Session) (now : Time) (lastActive : Session → Time) :
    Sweeper Session × List Session :=
  if s.timeout ≤ 0 then (s, []) else s.expireAt now lastActive

/-- The heap and the map of a sweeper agree, and the heap is in order. -/
structure Consistent (s : Sweeper Session) : Prop where
  indexed : s.Indexed
  mapped : ∀ sess ref, s.entries.lookup sess = some ref ↔
    ref ∈ s.heap ∧ (s.info ref).map Prod.fst = some sess
  ordered : Ordered (heapInterface Session) s s.heap.length
  running : s.panicked = false

/-- A new sweeper is consistent. -/
theorem consistent_new (timeout : Time) : (newIdleSweeper Session timeout).Consistent where
  indexed _ _ hk := nomatch hk
  mapped _ _ := by
    constructor
    · exact fun hk => nomatch hk
    · exact fun hk => nomatch hk.1
  ordered _ _ hk := nomatch hk
  running := rfl

variable {s : Sweeper Session}

/-- The deadline of a session, if it is tracked. -/
def deadlineOf (s : Sweeper Session) (sess : Session) : Option Time :=
  ((s.entries.lookup sess).bind s.info).map Prod.snd

/-- The deadline of the session of an entry. -/
theorem deadlineOf_of_lookup {sess : Session} {ref : ℕ} (hlookup : s.entries.lookup sess = some ref)
    {deadline : Time} (hinfo : s.info ref = some (sess, deadline)) : s.deadlineOf sess = some deadline := by
  rw [deadlineOf, hlookup, Option.bind_some, hinfo]
  rfl

/-- A session that is tracked has an entry in the heap. -/
theorem Consistent.exists_entry (h : s.Consistent) {sess : Session} {ref : ℕ}
    (hlookup : s.entries.lookup sess = some ref) :
    ∃ deadline, ref ∈ s.heap ∧ s.info ref = some (sess, deadline) := by
  obtain ⟨hmem, hsess⟩ := (h.mapped sess ref).mp hlookup
  obtain ⟨noted, hinfo, rfl⟩ := Option.map_eq_some_iff.mp hsess
  exact ⟨noted.2, hmem, hinfo⟩

/-- A session is tracked exactly if it has a deadline. -/
theorem Consistent.mem_entries_iff (h : s.Consistent) (sess : Session) :
    sess ∈ s.entries ↔ ∃ deadline, s.deadlineOf sess = some deadline := by
  rw [← Finmap.lookup_isSome, Option.isSome_iff_exists]
  constructor
  · rintro ⟨ref, hlookup⟩
    obtain ⟨deadline, -, hinfo⟩ := h.exists_entry hlookup
    exact ⟨deadline, deadlineOf_of_lookup hlookup hinfo⟩
  · rintro ⟨deadline, hdeadline⟩
    obtain ⟨noted, hnoted, -⟩ := Option.map_eq_some_iff.mp hdeadline
    obtain ⟨ref, hlookup, -⟩ := Option.bind_eq_some_iff.mp hnoted
    exact ⟨ref, hlookup⟩

/-- Taking an entry out of the heap and its session out of the map. -/
theorem Consistent.erase (h : s.Consistent) {s' : Sweeper Session} {sess : Session} {ref : ℕ}
    (hlookup : s.entries.lookup sess = some ref) (hremoved : Arranged s s' (s.heap.erase ref))
    (hordered : Ordered (heapInterface Session) s' s'.heap.length) :
    Consistent { s' with entries := s'.entries.erase sess } where
  indexed := hremoved.indexed
  mapped other ref' := by
    have hmem : ref' ∈ s'.heap ↔ ref' ≠ ref ∧ ref' ∈ s.heap :=
      hremoved.heap.mem_iff.trans (List.Nodup.mem_erase_iff h.indexed.nodup)
    change (s'.entries.erase sess).lookup other = some ref' ↔ ref' ∈ s'.heap ∧ (s'.info ref').map _ = _
    rw [hremoved.entries, hremoved.info, hmem, GoMap.lookup_erase_eq_some]
    constructor
    · intro hk
      obtain ⟨hin, hsess⟩ := (h.mapped other ref').mp hk.2
      refine ⟨⟨fun heq => hk.1 ?_, hin⟩, hsess⟩
      rw [heq, ((h.mapped sess ref).mp hlookup).2] at hsess
      exact (Option.some.inj hsess).symm
    · intro hk
      have hother := (h.mapped other ref').mpr ⟨hk.1.2, hk.2⟩
      refine ⟨fun heq => hk.1.1 ?_, hother⟩
      rw [heq, hlookup] at hother
      exact (Option.some.inj hother).symm
  ordered := hordered
  running := hremoved.panicked.trans h.running

/-- The deadlines without the one of a session. -/
theorem deadlineOf_erase {s' : Sweeper Session} {refs : List ℕ} (hremoved : Arranged s s' refs)
    (sess other : Session) :
    deadlineOf { s' with entries := s'.entries.erase sess } other =
      if other = sess then none else s.deadlineOf other := by
  have hinfo : info { s' with entries := s'.entries.erase sess } = s.info := hremoved.info
  rw [deadlineOf, hinfo]
  split_ifs with hother
  · rw [hother, Finmap.lookup_erase]
    rfl
  · rw [Finmap.lookup_erase_ne hother, hremoved.entries, deadlineOf]

/-- Putting a new entry into the heap and its session, which is not tracked, into the map. -/
theorem Consistent.insert (h : s.Consistent) {s₁ s' : Sweeper Session} {sess : Session} {ref : ℕ}
    (hfree : s.entries.lookup sess = none) (hpushed : Arranged s₁ s' (s.heap ++ [ref]))
    (hordered : Ordered (heapInterface Session) s' s'.heap.length) (hentries : s₁.entries = s.entries)
    (hrunning : s₁.panicked = s.panicked) (hkept : ∀ other ∈ s.heap, s₁.info other = s.info other)
    (hnew : (s₁.info ref).map Prod.fst = some sess) :
    Consistent { s' with entries := s'.entries.insert sess ref } where
  indexed := hpushed.indexed
  mapped other ref' := by
    have hmem : ref' ∈ s'.heap ↔ ref' ∈ s.heap ∨ ref' = ref := by
      rw [hpushed.heap.mem_iff, List.mem_append, List.mem_singleton]
    change (s'.entries.insert sess ref).lookup other = some ref' ↔
      ref' ∈ s'.heap ∧ (s'.info ref').map _ = _
    rw [hpushed.entries, hentries, hpushed.info, hmem, GoMap.lookup_insert_eq_some]
    constructor
    · intro hk
      rcases hk with ⟨rfl, rfl⟩ | ⟨-, hold⟩
      · exact ⟨Or.inr rfl, hnew⟩
      · obtain ⟨hin, hsess⟩ := (h.mapped other ref').mp hold
        exact ⟨Or.inl hin, (congrArg _ (hkept ref' hin)).trans hsess⟩
    · intro hk
      rcases hk.1 with hin | rfl
      · have hsess := (congrArg _ (hkept ref' hin)).symm.trans hk.2
        have hold := (h.mapped other ref').mpr ⟨hin, hsess⟩
        refine Or.inr ⟨fun heq => ?_, hold⟩
        rw [heq, hfree] at hold
        exact nomatch hold
      · exact Or.inl ⟨(Option.some.inj (hnew.symm.trans hk.2)).symm, rfl⟩
  ordered := hordered
  running := (hpushed.panicked.trans hrunning).trans h.running

/-- A new entry leaves those of the heap. -/
theorem Consistent.info_alloc_of_mem (h : s.Consistent) (entry : IdleEntry Session) {ref : ℕ}
    (hmem : ref ∈ s.heap) : (s.alloc entry).info ref = s.info ref :=
  s.info_alloc entry (h.indexed.lt_length hmem)

/-- Pushing a new entry. -/
theorem Consistent.push (h : s.Consistent) (entry : IdleEntry Session) :
    Arranged (s.alloc entry) ((s.alloc entry).heapPush s.cells.length) (s.heap ++ [s.cells.length]) ∧
      Ordered (heapInterface Session) ((s.alloc entry).heapPush s.cells.length)
        ((s.alloc entry).heapPush s.cells.length).heap.length := by
  have hfresh : s.cells.length ∉ s.heap := fun hmem => (h.indexed.lt_length hmem).ne rfl
  have hordered : Ordered (heapInterface Session) (s.alloc entry) s.heap.length :=
    h.ordered.congr fun k hk => deadlineAt_congr (List.getElem?_eq_getElem hk)
      (List.getElem?_eq_getElem hk) (h.info_alloc_of_mem entry (List.getElem_mem hk))
  exact heapPush_arranged (h.indexed.alloc entry) hordered (s.length_lt_alloc entry) hfresh

/-- `Track` of a session that is not tracked. -/
theorem Consistent.track (h : s.Consistent) (now : Time) {sess : Session}
    (hfree : s.entries.lookup sess = none) : (s.track now sess).Consistent := by
  unfold Sweeper.track
  split_ifs with htimeout
  · exact h
  obtain ⟨hpushed, hordered⟩ := h.push ⟨sess, now + s.timeout, 0⟩
  refine h.insert hfree hpushed hordered rfl rfl (fun _ => h.info_alloc_of_mem _) ?_
  rw [info_alloc_new]
  rfl

/-- The deadlines after `Track`. -/
theorem Consistent.deadlineOf_track (h : s.Consistent) (htimeout : 0 < s.timeout) (now : Time)
    (sess other : Session) :
    (s.track now sess).deadlineOf other =
      if other = sess then some (now + s.timeout) else s.deadlineOf other := by
  obtain ⟨hpushed, -⟩ := h.push ⟨sess, now + s.timeout, 0⟩
  rw [Sweeper.track, if_neg (not_le.mpr htimeout)]
  dsimp only
  split_ifs with hother
  · subst hother
    refine deadlineOf_of_lookup (Finmap.lookup_insert _) ?_
    exact (congrFun hpushed.info _).trans (info_alloc_new _ _)
  · have hlookup : (((s.alloc ⟨sess, now + s.timeout, 0⟩).heapPush s.cells.length).entries.insert sess
        s.cells.length).lookup other = s.entries.lookup other := by
      rw [Finmap.lookup_insert_of_ne _ hother, hpushed.entries]
      rfl
    rw [deadlineOf, hlookup, deadlineOf]
    cases hold : s.entries.lookup other with
    | none => rfl
    | some ref =>
      obtain ⟨-, hmem, -⟩ := h.exists_entry hold
      exact congrArg (Option.map Prod.snd)
        ((congrFun hpushed.info ref).trans (h.info_alloc_of_mem _ hmem))

/-- `Untrack` takes the entry of a session out. -/
theorem Consistent.untrack_eq (h : s.Consistent) (htimeout : 0 < s.timeout) {sess : Session} {ref : ℕ}
    (hlookup : s.entries.lookup sess = some ref) :
    ∃ s', s.untrack sess = { s' with entries := s'.entries.erase sess } ∧
      Arranged s s' (s.heap.erase ref) ∧ Ordered (heapInterface Session) s' s'.heap.length := by
  obtain ⟨hmem, -⟩ := (h.mapped sess ref).mp hlookup
  obtain ⟨k, hk⟩ := List.mem_iff_getElem?.mp hmem
  obtain ⟨entry, hcell, hindex⟩ := Option.map_eq_some_iff.mp (h.indexed k ref hk)
  have hkl := (List.getElem?_eq_some_iff.mp hk).1
  refine ⟨s.heapRemove k, ?_, heapRemove_arranged h.indexed h.ordered hk⟩
  rw [Sweeper.untrack, if_neg (not_le.mpr htimeout), hlookup]
  simp only [hcell, hindex]
  rw [if_pos ⟨by omega, by omega⟩, Int.toNat_natCast]

/-- `Untrack` of a session. -/
theorem Consistent.untrack (h : s.Consistent) (sess : Session) : (s.untrack sess).Consistent := by
  by_cases htimeout : s.timeout ≤ 0
  · rwa [Sweeper.untrack, if_pos htimeout]
  cases hlookup : s.entries.lookup sess with
  | none => rwa [Sweeper.untrack, if_neg htimeout, hlookup]
  | some ref =>
    obtain ⟨s', huntrack, hremoved, hordered⟩ := h.untrack_eq (not_le.mp htimeout) hlookup
    rw [huntrack]
    exact h.erase hlookup hremoved hordered

/-- The deadlines after `Untrack`. -/
theorem Consistent.deadlineOf_untrack (h : s.Consistent) (htimeout : 0 < s.timeout)
    (sess other : Session) :
    (s.untrack sess).deadlineOf other = if other = sess then none else s.deadlineOf other := by
  cases hlookup : s.entries.lookup sess with
  | none =>
    rw [Sweeper.untrack, if_neg (not_le.mpr htimeout), hlookup]
    split_ifs with hother
    · rw [hother, deadlineOf, hlookup]
      rfl
    · rfl
  | some ref =>
    obtain ⟨s', huntrack, hremoved, -⟩ := h.untrack_eq htimeout hlookup
    rw [huntrack, deadlineOf_erase hremoved]

/-- Writing the deadline of the first entry and putting it at its place. -/
theorem Consistent.refresh (h : s.Consistent) {ref : ℕ} (hfirst : s.heap[0]? = some ref)
    (deadline : Time) :
    ((s.setDeadline ref deadline).heapFix 0).Consistent ∧
      Arranged (s.setDeadline ref deadline) ((s.setDeadline ref deadline).heapFix 0) s.heap := by
  have hindexed : (s.setDeadline ref deadline).Indexed := by
    intro k other hk
    rw [indexOf_setDeadline]
    exact h.indexed k other hk
  have hkey (k : ℕ) (hk : k < s.heap.length) (hpos : 0 < k) :
      (s.setDeadline ref deadline).deadlineAt k = s.deadlineAt k := by
    have hat := List.getElem?_eq_getElem hk
    have hne : s.heap[k] ≠ ref := fun hsame => hpos.ne (h.indexed.unique hfirst (hsame ▸ hat))
    refine deadlineAt_congr hat hat ?_
    rw [info_setDeadline, if_neg hne]
  have hhole : HoleOrder (heapInterface Session) (s.setDeadline ref deadline) s.heap.length 0 := by
    refine ⟨fun c hc hcn _ hparent => ?_, fun hpos => absurd hpos (lt_irrefl 0)⟩
    have hcp := parent_lt hc
    exact (hkey (parent c) (by omega) (by omega)).trans_le
      ((h.ordered c hc hcn).trans_eq (hkey c hcn hc).symm)
  have hsess (other : ℕ) : ((s.setDeadline ref deadline).info other).map Prod.fst =
      (s.info other).map Prod.fst := by
    rw [info_setDeadline]
    split_ifs with hsame
    · rw [hsame, Option.map_map]
      rfl
    · rfl
  obtain ⟨harranged, hordered⟩ := heapFix_arranged hindexed (List.getElem?_eq_some_iff.mp hfirst).1 hhole
  refine ⟨⟨harranged.indexed, fun sess other => ?_, hordered, harranged.panicked.trans h.running⟩,
    harranged⟩
  rw [harranged.entries, harranged.info, harranged.heap.mem_iff, hsess]
  exact h.mapped sess other

/-- The deadlines after the one of the first entry was written. -/
theorem Consistent.deadlineOf_refresh (h : s.Consistent) {ref : ℕ} (hfirst : s.heap[0]? = some ref)
    {sess : Session} {old : Time} (hinfo : s.info ref = some (sess, old)) (deadline : Time)
    (other : Session) :
    ((s.setDeadline ref deadline).heapFix 0).deadlineOf other =
      if other = sess then some deadline else s.deadlineOf other := by
  obtain ⟨-, hfixed⟩ := h.refresh hfirst deadline
  have hlookup : s.entries.lookup sess = some ref :=
    (h.mapped sess ref).mpr ⟨List.mem_of_getElem? hfirst, by rw [hinfo]; rfl⟩
  have hentries : (s.setDeadline ref deadline).entries = s.entries := rfl
  split_ifs with hother
  · subst hother
    refine deadlineOf_of_lookup ((congrArg _ hfixed.entries).trans hlookup) ?_
    rw [hfixed.info, info_setDeadline, if_pos rfl, hinfo]
    rfl
  · rw [deadlineOf, hfixed.entries, hentries, hfixed.info, deadlineOf]
    cases hold : s.entries.lookup other with
    | none => rfl
    | some ref' =>
      -- Another session has another entry.
      have hne : ref' ≠ ref := by
        rintro rfl
        have hsess := ((h.mapped other ref').mp hold).2
        rw [hinfo] at hsess
        exact hother (Option.some.inj hsess).symm
      rw [Option.bind_some, Option.bind_some, info_setDeadline, if_neg hne]

/-- If the first entry is not due, none is. -/
theorem Consistent.due_eq_zero (h : s.Consistent) {now : Time} {ref : ℕ} (hfirst : s.heap[0]? = some ref)
    (hlater : s.isDue now ref = false) : s.due now = 0 := by
  rw [due, List.countP_eq_zero]
  intro other hother hdue
  obtain ⟨k, hk⟩ := List.mem_iff_getElem?.mp hother
  have hle : s.deadlineAt 0 ≤ s.deadlineAt k :=
    h.ordered.first_le (List.getElem?_eq_some_iff.mp hk).1
  rw [deadlineAt, deadlineAt, hfirst, hk] at hle
  exact absurd (hle.trans (of_decide_eq_true hdue)) (of_decide_eq_false hlater)

/-- If no entry is due, all deadlines lie ahead. -/
theorem Consistent.lt_of_due_eq_zero (h : s.Consistent) {now : Time} (hdue : s.due now = 0)
    {sess : Session} {deadline : Time} (hdeadline : s.deadlineOf sess = some deadline) :
    now < deadline := by
  obtain ⟨noted, hnoted, rfl⟩ := Option.map_eq_some_iff.mp hdeadline
  obtain ⟨ref, hlookup, hinfo⟩ := Option.bind_eq_some_iff.mp hnoted
  have hlater := List.countP_eq_zero.mp hdue ref ((h.mapped sess ref).mp hlookup).1
  rw [isDue, hinfo, decide_eq_true_iff] at hlater
  exact not_le.mp hlater

/-- What `_expire` makes of a deadline: one that has passed is put off if the session was active since,
and otherwise given up. -/
def aged (now timeout lastActive deadline : Time) : Option Time :=
  if now < deadline then some deadline
  else if now < lastActive + timeout then some (lastActive + timeout)
  else none

/-- A deadline that lies ahead does not age. -/
theorem aged_of_lt {now deadline : Time} (h : now < deadline) (timeout lastActive : Time) :
    aged now timeout lastActive deadline = some deadline := if_pos h

/-- A deadline that has passed is put off by the activity since. -/
theorem aged_of_active {now timeout lastActive deadline : Time} (hpassed : ¬now < deadline)
    (hactive : now < lastActive + timeout) :
    aged now timeout lastActive deadline = some (lastActive + timeout) := by
  rw [aged, if_neg hpassed, if_pos hactive]

/-- A deadline is given up if it has passed and there was no activity since. -/
theorem aged_eq_none_iff {now timeout lastActive deadline : Time} :
    aged now timeout lastActive deadline = none ↔ deadline ≤ now ∧ lastActive + timeout ≤ now := by
  unfold aged
  split_ifs with hlater hactive
  · exact iff_of_false not_false fun h => not_le.mpr hlater h.1
  · exact iff_of_false not_false fun h => not_le.mpr hactive h.2
  · exact iff_of_true rfl ⟨not_lt.mp hlater, not_lt.mp hactive⟩

/-- A turn of the loop of `_expire` that does not end it: it ages the deadline of one session, and takes
the session out if it is given up. -/
structure ExpireTurn (now : Time) (lastActive : Session → Time) (s s' : Sweeper Session) (sess : Session)
    (deadline : Time) : Prop where
  consistent : s'.Consistent
  due : s.due now = s'.due now + 1
  timeout : s'.timeout = s.timeout
  passed : s.deadlineOf sess = some deadline ∧ deadline ≤ now
  deadlines : ∀ other, s'.deadlineOf other =
    if other = sess then aged now s.timeout (lastActive sess) deadline else s.deadlineOf other
  loop : ∀ turns expired, expireLoop now lastActive (turns + 1) s expired =
    expireLoop now lastActive turns s'
      (expired ++ if aged now s.timeout (lastActive sess) deadline = none then [sess] else [])

/-- The loop of `_expire` ends with no entry due, or makes a turn. -/
theorem Consistent.expireTurn (h : s.Consistent) (now : Time) (lastActive : Session → Time) :
    (s.due now = 0 ∧ ∀ turns expired, expireLoop now lastActive turns s expired = (s, expired)) ∨
      ∃ s' sess deadline, ExpireTurn now lastActive s s' sess deadline := by
  cases hfirst : s.heap[0]? with
  | none =>
    have hempty : s.heap = [] := List.eq_nil_of_length_eq_zero (Nat.le_zero.mp
      (List.getElem?_eq_none_iff.mp hfirst))
    refine Or.inl ⟨by rw [due, hempty]; rfl, fun turns expired => ?_⟩
    cases turns with
    | zero => rfl
    | succ turns => rw [expireLoop, hfirst]
  | some ref =>
    have hmem := List.mem_of_getElem? hfirst
    obtain ⟨entry, hcell, -⟩ := Option.map_eq_some_iff.mp (h.indexed 0 ref hfirst)
    have hinfo : s.info ref = some (entry.sess, entry.deadline) := congrArg (Option.map _) hcell
    have hlookup := (h.mapped entry.sess ref).mpr ⟨hmem, by rw [hinfo]; rfl⟩
    have hdue_iff : s.isDue now ref = decide (entry.deadline ≤ now) := by
      rw [isDue, hinfo]
      rfl
    by_cases hlater : now < entry.deadline
    · refine Or.inl ⟨?_, fun turns expired => ?_⟩
      · exact h.due_eq_zero hfirst (hdue_iff.trans (decide_eq_false (not_le.mpr hlater)))
      · cases turns with
        | zero => rfl
        | succ turns => simp only [expireLoop, hfirst, hcell, if_pos hlater]
    · have hdue := hdue_iff.trans (decide_eq_true (not_lt.mp hlater))
      have hpassed := And.intro (deadlineOf_of_lookup hlookup hinfo) (not_lt.mp hlater)
      by_cases hactive : now < lastActive entry.sess + s.timeout
      · have haged := aged_of_active hlater hactive
        obtain ⟨hnext, hfixed⟩ := h.refresh hfirst (lastActive entry.sess + s.timeout)
        refine Or.inr ⟨_, entry.sess, entry.deadline, hnext,
          due_refreshed h.indexed.nodup hmem hdue hactive hfixed (hinfo ▸ rfl), hfixed.timeout, hpassed,
          fun other => ?_, fun turns expired => ?_⟩
        · rw [h.deadlineOf_refresh hfirst hinfo, haged]
        · rw [haged, expireLoop, hfirst]
          simp [hcell, hlater, hactive]
      · have haged : aged now s.timeout (lastActive entry.sess) entry.deadline = none :=
          aged_eq_none_iff.mpr ⟨not_lt.mp hlater, not_lt.mp hactive⟩
        obtain ⟨hremoved, hordered⟩ := heapPop_arranged h.indexed h.ordered hfirst
        have hless : s.due now = s.heapPop.due now + 1 := due_popped hmem hdue hremoved
        refine Or.inr ⟨{ s.heapPop with entries := s.heapPop.entries.erase entry.sess }, entry.sess,
          entry.deadline, h.erase hlookup hremoved hordered, hless, hremoved.timeout, hpassed,
          fun other => ?_, fun turns expired => ?_⟩
        · rw [deadlineOf_erase hremoved, haged]
        · rw [haged, expireLoop, hfirst]
          simp [hcell, hlater, hactive]

/-- The loop of `_expire` keeps the sweeper consistent, and it ends with no entry due if it has as many
turns as there are entries due. -/
theorem expireLoop_spec (now : Time) (lastActive : Session → Time) (turns : ℕ) (s : Sweeper Session)
    (expired : List Session) (h : s.Consistent) :
    (expireLoop now lastActive turns s expired).1.Consistent ∧
      (s.due now ≤ turns → (expireLoop now lastActive turns s expired).1.due now = 0) := by
  induction turns generalizing s expired with
  | zero => exact ⟨h, Nat.le_zero.mp⟩
  | succ turns ih =>
    rcases h.expireTurn now lastActive with ⟨hdue, hends⟩ | ⟨s', sess, deadline, hturn⟩
    · rw [hends]
      exact ⟨h, fun _ => hdue⟩
    · rw [hturn.loop]
      obtain ⟨hconsistent, hdone⟩ := ih s' _ hturn.consistent
      have hless := hturn.due
      exact ⟨hconsistent, fun hturns => hdone (by omega)⟩

/-- A deadline ages once. -/
theorem aged_bind_aged (now timeout lastActive deadline : Time) :
    (aged now timeout lastActive deadline).bind (aged now timeout lastActive) =
      aged now timeout lastActive deadline := by
  by_cases hlater : now < deadline
  · rw [aged_of_lt hlater, Option.bind_some, aged_of_lt hlater]
  by_cases hactive : now < lastActive + timeout
  · rw [aged_of_active hlater hactive, Option.bind_some, aged_of_lt hactive]
  · rw [aged_eq_none_iff.mpr ⟨not_lt.mp hlater, not_lt.mp hactive⟩]
    rfl

/-- Deadlines that lie ahead do not age. -/
theorem Consistent.bind_aged_of_due_eq_zero (h : s.Consistent) {now : Time} (hdue : s.due now = 0)
    (timeout lastActive : Time) (sess : Session) :
    (s.deadlineOf sess).bind (aged now timeout lastActive) = s.deadlineOf sess := by
  cases hdeadline : s.deadlineOf sess with
  | none => rfl
  | some deadline => exact aged_of_lt (h.lt_of_due_eq_zero hdue hdeadline) _ _

/-- With enough turns, the loop of `_expire` ages all deadlines. -/
theorem deadlineOf_expireLoop (now : Time) (lastActive : Session → Time) (turns : ℕ)
    (s : Sweeper Session) (expired : List Session) (h : s.Consistent) (hturns : s.due now ≤ turns)
    (sess : Session) :
    (expireLoop now lastActive turns s expired).1.deadlineOf sess =
      (s.deadlineOf sess).bind (aged now s.timeout (lastActive sess)) := by
  induction turns generalizing s expired with
  | zero => exact (h.bind_aged_of_due_eq_zero (Nat.le_zero.mp hturns) _ _ sess).symm
  | succ turns ih =>
    rcases h.expireTurn now lastActive with ⟨hdue, hends⟩ | ⟨s', first, deadline, hturn⟩
    · rw [hends]
      exact (h.bind_aged_of_due_eq_zero hdue _ _ sess).symm
    · have hless := hturn.due
      rw [hturn.loop, ih s' _ hturn.consistent (by omega), hturn.timeout, hturn.deadlines]
      split_ifs with hfirst
      · rw [hfirst, hturn.passed.1, aged_bind_aged]
        rfl
      · rfl

/-- A session is tracked, and its deadline is given up at that time. -/
def GivenUp (now : Time) (lastActive : Session → Time) (s : Sweeper Session) (sess : Session) : Prop :=
  ∃ deadline, s.deadlineOf sess = some deadline ∧ aged now s.timeout (lastActive sess) deadline = none

/-- With no entry due, no deadline is given up. -/
theorem Consistent.not_givenUp {now : Time} (h : s.Consistent) (hdue : s.due now = 0)
    (lastActive : Session → Time) (sess : Session) : ¬ GivenUp now lastActive s sess := by
  rintro ⟨deadline, hdeadline, hgone⟩
  exact not_le.mpr (h.lt_of_due_eq_zero hdue hdeadline) (aged_eq_none_iff.mp hgone).1

section Turn

variable {now : Time} {lastActive : Session → Time} {s' : Sweeper Session} {first : Session}
  {deadline : Time} (hturn : ExpireTurn now lastActive s s' first deadline)

include hturn

/-- The session of a turn then has no deadline left, or one that lies ahead. -/
theorem ExpireTurn.not_givenUp : ¬ GivenUp now lastActive s' first := by
  rintro ⟨later, hlater, hgone⟩
  rw [hturn.timeout] at hgone
  rw [hturn.deadlines, if_pos rfl] at hlater
  have hidem := aged_bind_aged now s.timeout (lastActive first) deadline
  rw [hlater, Option.bind_some, hgone] at hidem
  cases hidem

/-- A turn takes one given-up deadline from those of the sweeper, or none. -/
theorem ExpireTurn.givenUp_iff (sess : Session) : GivenUp now lastActive s sess ↔
    sess ∈ (if aged now s.timeout (lastActive first) deadline = none then [first] else []) ∨
      GivenUp now lastActive s' sess := by
  by_cases hsess : sess = first
  · subst hsess
    rw [or_iff_left hturn.not_givenUp, GivenUp, hturn.passed.1]
    split_ifs with hgiven
    · exact iff_of_true ⟨deadline, rfl, hgiven⟩ List.mem_cons_self
    · refine iff_of_false ?_ List.not_mem_nil
      rintro ⟨_, hsame, hgone⟩
      exact hgiven (Option.some.inj hsame ▸ hgone)
  · rw [or_iff_right, GivenUp, GivenUp, hturn.deadlines, if_neg hsess, hturn.timeout]
    split_ifs
    · exact fun hmem => hsess (List.mem_singleton.mp hmem)
    · exact List.not_mem_nil

end Turn

/-- With enough turns, the loop of `_expire` returns the sessions whose deadlines are given up, each of
them once. -/
theorem expired_expireLoop (now : Time) (lastActive : Session → Time) (turns : ℕ)
    (s : Sweeper Session) (expired : List Session) (h : s.Consistent) (hturns : s.due now ≤ turns) :
    ∃ gone, (expireLoop now lastActive turns s expired).2 = expired ++ gone ∧ gone.Nodup ∧
      ∀ sess, sess ∈ gone ↔ GivenUp now lastActive s sess := by
  induction turns generalizing s expired with
  | zero =>
    refine ⟨[], (List.append_nil _).symm, List.nodup_nil, fun sess => ?_⟩
    exact iff_of_false List.not_mem_nil (h.not_givenUp (Nat.le_zero.mp hturns) lastActive sess)
  | succ turns ih =>
    rcases h.expireTurn now lastActive with ⟨hdue, hends⟩ | ⟨s', first, deadline, hturn⟩
    · rw [hends]
      exact ⟨[], (List.append_nil _).symm, List.nodup_nil, fun sess =>
        iff_of_false List.not_mem_nil (h.not_givenUp hdue lastActive sess)⟩
    · have hless := hturn.due
      obtain ⟨gone, hgone, hnodup, hmem⟩ := ih s' (expired ++ if aged now s.timeout (lastActive first)
        deadline = none then [first] else []) hturn.consistent (by omega)
      refine ⟨(if aged now s.timeout (lastActive first) deadline = none then [first] else []) ++ gone,
        ?_, ?_, fun sess => ?_⟩
      · rw [hturn.loop, hgone, List.append_assoc]
      · split_ifs
        · exact List.nodup_cons.mpr ⟨fun hfirst => hturn.not_givenUp ((hmem first).mp hfirst), hnodup⟩
        · exact hnodup
      · rw [List.mem_append, hmem, hturn.givenUp_iff]

/-- The loop of `_expire` ends by itself: more turns than there are entries due change nothing. -/
theorem expireLoop_eq_of_le (now : Time) (lastActive : Session → Time) {turns more : ℕ}
    (hmore : turns ≤ more) (s : Sweeper Session) (expired : List Session) (h : s.Consistent)
    (hturns : s.due now ≤ turns) :
    expireLoop now lastActive more s expired = expireLoop now lastActive turns s expired := by
  induction turns generalizing s expired more with
  | zero =>
    rcases h.expireTurn now lastActive with ⟨-, hends⟩ | ⟨s', first, deadline, hturn⟩
    · rw [hends, hends]
    · have hless := hturn.due
      omega
  | succ turns ih =>
    obtain ⟨more, rfl⟩ := Nat.exists_eq_add_of_le' (Nat.one_le_of_lt hmore)
    rcases h.expireTurn now lastActive with ⟨-, hends⟩ | ⟨s', first, deadline, hturn⟩
    · rw [hends, hends]
    · have hless := hturn.due
      rw [hturn.loop, hturn.loop]
      exact ih (Nat.le_of_succ_le_succ hmore) s' _ hturn.consistent (by omega)

/-- The loop of `_expire` keeps the timeout. -/
theorem timeout_expireLoop (now : Time) (lastActive : Session → Time) (turns : ℕ) (s : Sweeper Session)
    (expired : List Session) (h : s.Consistent) :
    (expireLoop now lastActive turns s expired).1.timeout = s.timeout := by
  induction turns generalizing s expired with
  | zero => rfl
  | succ turns ih =>
    rcases h.expireTurn now lastActive with ⟨-, hends⟩ | ⟨s', first, deadline, hturn⟩
    · rw [hends]
    · rw [hturn.loop, ih s' _ hturn.consistent, hturn.timeout]

/-- `_expire` keeps the sweeper consistent. -/
theorem Consistent.expireAt (h : s.Consistent) (now : Time) (lastActive : Session → Time) :
    (s.expireAt now lastActive).1.Consistent :=
  (expireLoop_spec now lastActive _ s [] h).1

/-- The loop of `_expire` is not cut short: it ends with no entry due. -/
theorem Consistent.due_expireAt (h : s.Consistent) (now : Time) (lastActive : Session → Time) :
    (s.expireAt now lastActive).1.due now = 0 :=
  (expireLoop_spec now lastActive _ s [] h).2 List.countP_le_length

/-- The sessions of the heap, place by place. -/
def sessions (s : Sweeper Session) : List Session :=
  s.heap.filterMap fun ref => (s.info ref).map Prod.fst

/-- A session is in the map exactly if it is in the heap. -/
theorem Consistent.mem_sessions (h : s.Consistent) (sess : Session) :
    sess ∈ s.sessions ↔ sess ∈ s.entries := by
  rw [sessions, List.mem_filterMap, ← Finmap.lookup_isSome, Option.isSome_iff_exists]
  exact exists_congr fun ref => (h.mapped sess ref).symm

/-- No session is in the heap twice. -/
theorem Consistent.nodup_sessions (h : s.Consistent) : s.sessions.Nodup := by
  rw [sessions, List.Nodup, List.pairwise_filterMap]
  refine h.indexed.nodup.imp_of_mem ?_
  intro ref ref' hmem hmem' hne sess hsess sess' hsess' hsame
  -- the map has one entry for a session
  have hlookup := (h.mapped sess ref).mpr ⟨hmem, hsess⟩
  have hlookup' := (h.mapped sess' ref').mpr ⟨hmem', hsess'⟩
  rw [hsame, hlookup'] at hlookup
  exact hne (Option.some.inj hlookup).symm

/-- `Untrack` of a session that is not in the heap does nothing. -/
theorem Consistent.untrack_gone (h : s.Consistent) {sess : Session} (hgone : sess ∉ s.sessions) :
    s.untrack sess = s := by
  rw [h.mem_sessions, ← Finmap.lookup_eq_none] at hgone
  rw [Sweeper.untrack, hgone]
  split_ifs <;> rfl

end Sweeper

/-- A call of the sweeper, with the time that it is given or reads from the clock. -/
inductive SweeperCall (Session : Type) where
  | track (now : Time) (sess : Session)
  | untrack (sess : Session)
  | expire (now : Time) (lastActive : Session → Time)

variable {Session : Type} [DecidableEq Session]

/-- The sweeper after a call. -/
def Sweeper.call (s : Sweeper Session) : SweeperCall Session → Sweeper Session
  | .track now sess => s.track now sess
  | .untrack sess => s.untrack sess
  | .expire now lastActive => (s.expireAt now lastActive).1

/-- A session is tracked only if it is not tracked already. -/
def SweeperCall.TracksNew (s : Sweeper Session) : SweeperCall Session → Prop
  | .track _ sess => sess ∉ s.entries
  | _ => True

instance (s : Sweeper Session) (c : SweeperCall Session) : Decidable (c.TracksNew s) :=
  match c with
  | .track _ sess => inferInstanceAs (Decidable (sess ∉ s.entries))
  | .untrack _ => isTrue trivial
  | .expire _ _ => isTrue trivial

/-- Every such call keeps the sweeper consistent. -/
theorem Sweeper.Consistent.call {s : Sweeper Session} (h : s.Consistent) {c : SweeperCall Session}
    (hnew : c.TracksNew s) : (s.call c).Consistent := by
  cases c with
  | track now sess => exact h.track now (Finmap.lookup_eq_none.mpr hnew)
  | untrack sess => exact h.untrack sess
  | expire now lastActive => exact h.expireAt now lastActive

/-- Every call keeps the timeout. -/
theorem Sweeper.Consistent.timeout_call {s : Sweeper Session} (h : s.Consistent)
    (c : SweeperCall Session) : (s.call c).timeout = s.timeout := by
  cases c with
  | track now sess =>
    rw [Sweeper.call, Sweeper.track]
    split_ifs
    · rfl
    · exact (h.push ⟨sess, now + s.timeout, 0⟩).1.timeout
  | untrack sess =>
    by_cases htimeout : s.timeout ≤ 0
    · rw [Sweeper.call, Sweeper.untrack, if_pos htimeout]
    cases hlookup : s.entries.lookup sess with
    | none => rw [Sweeper.call, Sweeper.untrack, if_neg htimeout, hlookup]
    | some ref =>
      obtain ⟨s', huntrack, hremoved, -⟩ := h.untrack_eq (not_le.mp htimeout) hlookup
      rw [Sweeper.call, huntrack]
      exact hremoved.timeout
  | expire now lastActive => exact Sweeper.timeout_expireLoop now lastActive _ s [] h

/-- After any calls of the sweeper that track no session twice, the heap and the map hold the same
sessions and none twice; every entry of the heap knows its place and is the one that the map has for its
session; no deadline is before the one above it; an entry that is not in the heap is not in the map, and
untracking a session without one does nothing. The sweeper has not panicked. -/
theorem sweeper_consistent (timeout : Time) (calls : List (SweeperCall Session))
    (h : Throughout Sweeper.call (fun s c => c.TracksNew s) (newIdleSweeper Session timeout) calls) :
    let s := run Sweeper.call (newIdleSweeper Session timeout) calls
    (∀ sess, sess ∈ s.sessions ↔ sess ∈ s.entries) ∧ s.sessions.Nodup ∧
      (∀ k ref : ℕ, s.heap[k]? = some ref → ∃ entry, s.cells[ref]? = some entry ∧
        entry.index = k ∧ s.entries.lookup entry.sess = some ref) ∧
      (∀ k, 0 < k → k < s.heap.length → ¬s.deadlineAt k < s.deadlineAt ((k - 1) / 2)) ∧
      (∀ ref, ref ∉ s.heap → ∀ sess, s.entries.lookup sess ≠ some ref) ∧
      (∀ sess, sess ∉ s.sessions → s.untrack sess = s) ∧ s.panicked = false := by
  intro s
  have hs : s.Consistent :=
    run_invariant (fun _ _ hs hnew => hs.call hnew) (Sweeper.consistent_new timeout) h
  refine ⟨hs.mem_sessions, hs.nodup_sessions, ?_, ?_, ?_, fun _ => hs.untrack_gone, hs.running⟩
  · intro k ref hk
    obtain ⟨entry, hcell, hindex⟩ := Option.map_eq_some_iff.mp (hs.indexed k ref hk)
    have hinfo : s.info ref = some (entry.sess, entry.deadline) := congrArg (Option.map _) hcell
    exact ⟨entry, hcell, hindex, (hs.mapped _ _).mpr ⟨List.mem_of_getElem? hk, by rw [hinfo]; rfl⟩⟩
  · intro k hpos hk
    exact not_lt.mpr (hs.ordered k hpos hk)
  · intro ref hgone sess hlookup
    exact hgone ((hs.mapped sess ref).mp hlookup).1

/-- Three sessions are tracked; the first one to be due was active, the second one expires, and the third
one is untracked. -/
theorem sweeper_consistent_three :
    let calls : List (SweeperCall ℕ) := [.track 3 1, .track 1 2, .track 2 3,
      .expire 7 fun sess => if sess = 2 then 4 else 0, .untrack 1]
    let s := run Sweeper.call (newIdleSweeper ℕ 5) calls
    s.sessions = [2] ∧ ∀ sess, sess ∈ s.sessions ↔ sess ∈ s.entries :=
  ⟨by decide, (sweeper_consistent 5 _ (by decide)).1⟩

end Grunyas.Proxy
