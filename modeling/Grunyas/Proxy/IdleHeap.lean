import Grunyas.Go.Heap
import Grunyas.Server.Types
import Mathlib.Data.Finmap
import Mathlib.Data.Int.Order.Basic

/-!
# The heap of the idle sweeper

The sweeper keeps an entry for every session: a heap of the entries by deadline and a map from the
sessions to their entries. An entry knows its place in the heap, and every operation on the heap writes
the places of the entries that it moves. Whatever an operation does, it leaves a heap of the expected
entries, each of which knows its place, and nothing else differs: `Arranged`.

The entries are pointers in the source. Here they lie in `cells`, from which nothing is freed, and the
heap and the map hold their addresses. A failed lookup of an address or a place is a panic. All times
are points of one clock: whether a time carries a monotonic reading is not modelled.
-/

namespace Grunyas.Proxy

open GoHeap Grunyas.Server

/-- The entry of a session. -/
structure IdleEntry (Session : Type) where
  sess : Session
  deadline : Time
  index : ℤ
  deriving DecidableEq

/-- The sweeper. -/
structure Sweeper (Session : Type) where
  timeout : Time
  cells : List (IdleEntry Session) := []
  heap : List ℕ := []
  entries : Finmap (fun _ : Session => ℕ) := ∅
  panicked : Bool := false

namespace Sweeper

variable {Session : Type}

/-- Allocate an entry; its address is the number of the cells before. -/
def alloc (s : Sweeper Session) (entry : IdleEntry Session) : Sweeper Session :=
  { s with cells := s.cells ++ [entry] }

/-- Write the place of an entry. -/
def setIndex (s : Sweeper Session) (ref : ℕ) (index : ℤ) : Sweeper Session :=
  { s with cells := s.cells.modify ref fun e => { e with index := index } }

/-- Write the deadline of an entry. -/
def setDeadline (s : Sweeper Session) (ref : ℕ) (deadline : Time) : Sweeper Session :=
  { s with cells := s.cells.modify ref fun e => { e with deadline := deadline } }

/-- The session and the deadline of an entry. -/
def info (s : Sweeper Session) (ref : ℕ) : Option (Session × Time) :=
  s.cells[ref]?.map fun e => (e.sess, e.deadline)

/-- The deadline of the entry at a place of the heap. -/
def deadlineAt (s : Sweeper Session) (k : ℕ) : Time :=
  ((s.heap[k]?.bind s.info).map Prod.snd).getD 0

/-- The `Swap` of the heap. -/
def swap (s : Sweeper Session) (i j : ℕ) : Sweeper Session :=
  match s.heap[i]?, s.heap[j]? with
  | some a, some b => ({ s with heap := (s.heap.set i b).set j a }.setIndex b i).setIndex a j
  | _, _ => { s with panicked := true }

/-- The `Push` of the heap, which adds an entry at the end. -/
def pushLast (s : Sweeper Session) (ref : ℕ) : Sweeper Session :=
  { s.setIndex ref s.heap.length with heap := s.heap ++ [ref] }

/-- The `Pop` of the heap, which takes the last entry. -/
def popLast (s : Sweeper Session) : Sweeper Session :=
  match s.heap.getLast? with
  | some ref => { s.setIndex ref (-1) with heap := s.heap.dropLast }
  | none => { s with panicked := true }

/-- Writing a place leaves the rest of an entry. -/
@[simp] theorem info_setIndex (s : Sweeper Session) (ref : ℕ) (index : ℤ) :
    (s.setIndex ref index).info = s.info := by
  funext other
  simp only [info, setIndex, List.getElem?_modify]
  cases s.cells[other]? with
  | none => rfl
  | some e =>
    simp only [Option.map_eq_map, Option.map_some]
    split_ifs <;> rfl

/-- What a swap of two places does. -/
theorem swap_eq {s : Sweeper Session} {i j a b : ℕ} (ha : s.heap[i]? = some a)
    (hb : s.heap[j]? = some b) :
    s.swap i j = ({ s with heap := (s.heap.set i b).set j a }.setIndex b i).setIndex a j := by
  rw [swap, ha, hb]

/-- The heap after a swap. -/
theorem heap_swap {s : Sweeper Session} {i j a b : ℕ} (ha : s.heap[i]? = some a)
    (hb : s.heap[j]? = some b) (k : ℕ) :
    (s.swap i j).heap[k]? = if k = j then some a else if k = i then some b else s.heap[k]? := by
  obtain ⟨hi, -⟩ := List.getElem?_eq_some_iff.mp ha
  obtain ⟨hj, -⟩ := List.getElem?_eq_some_iff.mp hb
  rw [swap_eq ha hb]
  simp only [setIndex, List.getElem?_set, List.length_set, eq_comm (a := k)]
  split_ifs <;> rfl

/-- A swap leaves the sessions and deadlines of the entries. -/
theorem info_swap {s : Sweeper Session} {i j : ℕ} : (s.swap i j).info = s.info := by
  unfold swap
  split
  · rw [info_setIndex, info_setIndex]
    rfl
  · rfl

/-- The heap of the package's interface. -/
def heapInterface (Session : Type) : Interface (Sweeper Session) Time where
  len s := s.heap.length
  key := deadlineAt
  swap := swap
  len_swap s i j := by
    unfold swap
    split
    · simp [setIndex]
    · rfl
  key_swap s i j k hi hj := by
    have ha := List.getElem?_eq_getElem hi
    have hb := List.getElem?_eq_getElem hj
    unfold deadlineAt
    rw [info_swap, heap_swap ha hb]
    split_ifs with hkj hki hki
    · subst hkj hki
      rw [ha]
    · rw [ha]
    · rw [hb]
    · rfl

/-- `heap.Push` of an entry. -/
def heapPush (s : Sweeper Session) (ref : ℕ) : Sweeper Session :=
  up (heapInterface Session) (s.pushLast ref) s.heap.length

/-- `heap.Pop`. -/
def heapPop (s : Sweeper Session) : Sweeper Session :=
  let n := s.heap.length - 1
  (down (heapInterface Session) (s.swap 0 n) 0 n).1.popLast

/-- `heap.Remove` at a place of the heap. -/
def heapRemove (s : Sweeper Session) (i : ℕ) : Sweeper Session :=
  let n := s.heap.length - 1
  (if n ≠ i then fix (heapInterface Session) (s.swap i n) i n else s).popLast

/-- `heap.Fix` at a place of the heap. -/
def heapFix (s : Sweeper Session) (i : ℕ) : Sweeper Session :=
  fix (heapInterface Session) s i s.heap.length

/-- The place that an entry has noted. -/
def indexOf (s : Sweeper Session) (ref : ℕ) : Option ℤ := s.cells[ref]?.map IdleEntry.index

/-- Writing a place leaves those of the other entries. -/
theorem indexOf_setIndex (s : Sweeper Session) (ref : ℕ) (index : ℤ) (other : ℕ) :
    (s.setIndex ref index).indexOf other =
      if other = ref then (s.indexOf ref).map fun _ => index else s.indexOf other := by
  simp only [indexOf, setIndex, List.getElem?_modify, eq_comm (a := other)]
  split_ifs with hsame
  · subst hsame
    cases s.cells[ref]? <;> rfl
  · cases s.cells[other]? <;> rfl

/-- Writing a deadline leaves the place of an entry. -/
@[simp] theorem indexOf_setDeadline (s : Sweeper Session) (ref : ℕ) (deadline : Time) :
    (s.setDeadline ref deadline).indexOf = s.indexOf := by
  funext other
  simp only [indexOf, setDeadline, List.getElem?_modify]
  cases s.cells[other]? with
  | none => rfl
  | some e =>
    simp only [Option.map_eq_map, Option.map_some]
    split_ifs <;> rfl

/-- Writing a deadline leaves those of the other entries. -/
theorem info_setDeadline (s : Sweeper Session) (ref : ℕ) (deadline : Time) (other : ℕ) :
    (s.setDeadline ref deadline).info other =
      if other = ref then (s.info ref).map fun noted => (noted.1, deadline) else s.info other := by
  simp only [info, setDeadline, List.getElem?_modify, eq_comm (a := other)]
  split_ifs with hsame
  · subst hsame
    cases s.cells[ref]? <;> rfl
  · cases s.cells[other]? <;> rfl

/-- Every entry of the heap knows its place. -/
def Indexed (s : Sweeper Session) : Prop :=
  ∀ k ref : ℕ, s.heap[k]? = some ref → s.indexOf ref = some (k : ℤ)

/-- An entry is at one place only. -/
theorem Indexed.unique {s : Sweeper Session} (h : s.Indexed) {k l ref : ℕ}
    (hk : s.heap[k]? = some ref) (hl : s.heap[l]? = some ref) : k = l := by
  have hsame := (h k ref hk).symm.trans (h l ref hl)
  exact Int.ofNat.inj (Option.some.inj hsame)

/-- The heap holds no entry twice. -/
theorem Indexed.nodup {s : Sweeper Session} (h : s.Indexed) : s.heap.Nodup := by
  rw [List.nodup_iff_getElem?_ne_getElem?]
  intro i j hij hj hsame
  rw [List.getElem?_eq_getElem hj] at hsame
  exact hij.ne (h.unique hsame (List.getElem?_eq_getElem hj))

/-- An entry of the heap lies in the cells. -/
theorem Indexed.lt_length {s : Sweeper Session} (h : s.Indexed) {ref : ℕ} (hmem : ref ∈ s.heap) :
    ref < s.cells.length := by
  obtain ⟨k, hk⟩ := List.mem_iff_getElem?.mp hmem
  obtain ⟨e, he, -⟩ := Option.map_eq_some_iff.mp (h k ref hk)
  exact (List.getElem?_eq_some_iff.mp he).1

/-- A new entry leaves the others. -/
theorem info_alloc (s : Sweeper Session) (entry : IdleEntry Session) {ref : ℕ}
    (hlt : ref < s.cells.length) : (s.alloc entry).info ref = s.info ref :=
  congrArg (Option.map _) (List.getElem?_append_left hlt)

/-- What a new entry notes. -/
theorem info_alloc_new (s : Sweeper Session) (entry : IdleEntry Session) :
    (s.alloc entry).info s.cells.length = some (entry.sess, entry.deadline) :=
  congrArg (Option.map _) List.getElem?_concat_length

/-- A new entry has an address. -/
theorem length_lt_alloc (s : Sweeper Session) (entry : IdleEntry Session) :
    s.cells.length < (s.alloc entry).cells.length := by
  rw [alloc, List.length_append]
  exact Nat.lt_succ_self _

/-- A new entry leaves the places of the others. -/
theorem Indexed.alloc {s : Sweeper Session} (h : s.Indexed) (entry : IdleEntry Session) :
    (s.alloc entry).Indexed := by
  intro k ref hk
  have hlt := h.lt_length (List.mem_of_getElem? hk)
  have hcell : (s.alloc entry).cells[ref]? = s.cells[ref]? := List.getElem?_append_left hlt
  rw [indexOf, hcell]
  exact h k ref hk

/-- The deadlines of the heap depend on its entries and on what they note. -/
theorem deadlineAt_congr {s s' : Sweeper Session} {k ref : ℕ} (hs : s.heap[k]? = some ref)
    (hs' : s'.heap[k]? = some ref) (hinfo : s'.info ref = s.info ref) :
    s'.deadlineAt k = s.deadlineAt k := by
  simp only [deadlineAt, hs, hs', Option.bind_some, hinfo]

/-- The heap of `s'` has the given entries in some order; but for the heap, `s'` is `s`. -/
structure Arranged (s s' : Sweeper Session) (refs : List ℕ) : Prop where
  indexed : s'.Indexed
  heap : s'.heap.Perm refs
  info : s'.info = s.info
  entries : s'.entries = s.entries
  timeout : s'.timeout = s.timeout
  panicked : s'.panicked = s.panicked

/-- A sweeper as it is. -/
theorem Indexed.arranged {s : Sweeper Session} (h : s.Indexed) : Arranged s s s.heap :=
  ⟨h, List.Perm.refl _, rfl, rfl, rfl, rfl⟩

/-- A swap writes the places of both entries. -/
theorem Indexed.swap {s : Sweeper Session} (h : s.Indexed) {i j : ℕ} (hi : i < s.heap.length)
    (hj : j < s.heap.length) : (s.swap i j).Indexed := by
  have ha := List.getElem?_eq_getElem hi
  have hb := List.getElem?_eq_getElem hj
  generalize s.heap[i] = a at ha
  generalize s.heap[j] = b at hb
  intro k ref hk
  rw [heap_swap ha hb] at hk
  rw [swap_eq ha hb, indexOf_setIndex, indexOf_setIndex, indexOf_setIndex]
  have hia : indexOf { s with heap := (s.heap.set i b).set j a } a = some (i : ℤ) := h i a ha
  have hjb : indexOf { s with heap := (s.heap.set i b).set j a } b = some (j : ℤ) := h j b hb
  split_ifs at hk with hkj hki
  · obtain rfl := Option.some.inj hk
    subst hkj
    simp only [if_true, hia, hjb]
    split_ifs <;> rfl
  · obtain rfl := Option.some.inj hk
    subst hki
    have hne : b ≠ a := fun hsame => hkj (h.unique (hsame ▸ ha) hb)
    simp only [if_neg hne, if_true, hjb]
    rfl
  · have hra : ref ≠ a := fun hsame => hki (h.unique hk (hsame ▸ ha))
    have hrb : ref ≠ b := fun hsame => hkj (h.unique hk (hsame ▸ hb))
    rw [if_neg hra, if_neg hrb]
    exact h k ref hk

/-- A swap only rearranges the heap. -/
theorem Arranged.swap {s₀ s : Sweeper Session} {refs : List ℕ} (h : Arranged s₀ s refs) {i j : ℕ}
    (hi : i < s.heap.length) (hj : j < s.heap.length) : Arranged s₀ (s.swap i j) refs := by
  have hswap := swap_eq (List.getElem?_eq_getElem hi) (List.getElem?_eq_getElem hj)
  refine ⟨h.indexed.swap hi hj, ?_, info_swap.trans h.info, ?_, ?_, ?_⟩
  · rw [hswap]
    exact (List.set_set_perm hi hj).trans h.heap
  · rw [hswap]
    exact h.entries
  · rw [hswap]
    exact h.timeout
  · rw [hswap]
    exact h.panicked

/-- Swaps below a bound rearrange the heap there. -/
theorem arranged_swap_below {s₀ : Sweeper Session} {refs : List ℕ} {n : ℕ} (hn : n ≤ refs.length)
    {last : Option ℕ} (s : Sweeper Session) (i j : ℕ) (hs : Arranged s₀ s refs ∧ s.heap[n]? = last)
    (hi : i < n) (hj : j < n) :
    Arranged s₀ ((heapInterface Session).swap s i j) refs ∧
      ((heapInterface Session).swap s i j).heap[n]? = last := by
  have hlen := hs.1.heap.length_eq
  have hil : i < s.heap.length := by omega
  have hjl : j < s.heap.length := by omega
  have hheap := heap_swap (List.getElem?_eq_getElem hil) (List.getElem?_eq_getElem hjl) n
  rw [if_neg (by omega), if_neg (by omega)] at hheap
  exact ⟨hs.1.swap hil hjl, hheap.trans hs.2⟩

/-- `Pop` takes the last entry out. -/
theorem popLast_arranged {s₀ s : Sweeper Session} (h : Arranged s₀ s s₀.heap) {n ref : ℕ}
    (hlen : s₀.heap.length = n + 1) (hlast : s.heap[n]? = some ref)
    (ho : Ordered (heapInterface Session) s n) :
    Arranged s₀ s.popLast (s₀.heap.erase ref) ∧
      Ordered (heapInterface Session) s.popLast s.popLast.heap.length := by
  have hn : s.heap.length - 1 = n := by have := h.heap.length_eq; omega
  have hgetLast : s.heap.getLast? = some ref := by rw [List.getLast?_eq_getElem?, hn, hlast]
  have hpop : s.popLast = { s.setIndex ref (-1) with heap := s.heap.dropLast } := by
    rw [popLast, hgetLast]
  have hheap (k : ℕ) (hk : k < n) : s.popLast.heap[k]? = s.heap[k]? := by
    rw [hpop, List.getElem?_dropLast, hn, if_pos hk]
  have hinfo : s.popLast.info = s.info := by
    rw [hpop]
    exact info_setIndex s ref (-1)
  have hlength : s.popLast.heap.length = n := by
    rw [hpop, List.length_dropLast, hn]
  refine ⟨⟨?_, ?_, hinfo.trans h.info, ?_, ?_, ?_⟩, ?_⟩
  · intro k other hk
    have hkn : k < n := hlength ▸ (List.getElem?_eq_some_iff.mp hk).1
    rw [hheap k hkn] at hk
    have hne : other ≠ ref := fun hsame => hkn.ne (h.indexed.unique hk (hsame ▸ hlast))
    have hplaces := indexOf_setIndex s ref (-1) other
    rw [if_neg hne] at hplaces
    rw [hpop]
    exact hplaces.trans (h.indexed k other hk)
  · have hsplit : s.heap.dropLast ++ [ref] = s.heap := List.dropLast_append_getLast? ref hgetLast
    have hperm : (ref :: s.heap.dropLast).Perm s₀.heap := by
      refine (List.perm_append_singleton ref _).symm.trans ?_
      rw [hsplit]
      exact h.heap
    rw [hpop]
    exact List.erase_cons_head ref s.heap.dropLast ▸ hperm.erase ref
  · rw [hpop]
    exact h.entries
  · rw [hpop]
    exact h.timeout
  · rw [hpop]
    exact h.panicked
  · rw [hlength]
    refine ho.congr fun k hk => ?_
    change s.popLast.deadlineAt k = s.deadlineAt k
    rw [deadlineAt, hheap k hk, hinfo, deadlineAt]

variable {s : Sweeper Session}

/-- Swapping an entry with the last one and popping it takes it out. -/
theorem swapOut_arranged (h : s.Indexed) (ho : Ordered (heapInterface Session) s s.heap.length)
    {i n ref : ℕ} (hlen : s.heap.length = n + 1) (hi : s.heap[i]? = some ref) (hin : i < n) :
    Arranged s (fix (heapInterface Session) (s.swap i n) i n).popLast (s.heap.erase ref) ∧
      Ordered (heapInterface Session) (fix (heapInterface Session) (s.swap i n) i n).popLast
        (fix (heapInterface Session) (s.swap i n) i n).popLast.heap.length := by
  have hnl : n < s.heap.length := by omega
  have hheap := heap_swap hi (List.getElem?_eq_getElem hnl) n
  rw [if_pos rfl] at hheap
  have hfixed := fix_rec (h := heapInterface Session) (arranged_swap_below hnl.le)
    ⟨h.arranged.swap (by omega) hnl, hheap⟩ hin
  have hordered := fix_ordered (ho.swap_last hin hnl)
    ((heapInterface Session).len_swap s i n ▸ hnl.le) hin
  exact popLast_arranged hfixed.1 hlen hfixed.2 hordered

/-- `heap.Remove` takes out the entry at a place. -/
theorem heapRemove_arranged (h : s.Indexed) (ho : Ordered (heapInterface Session) s s.heap.length)
    {i ref : ℕ} (hi : s.heap[i]? = some ref) :
    Arranged s (s.heapRemove i) (s.heap.erase ref) ∧
      Ordered (heapInterface Session) (s.heapRemove i) (s.heapRemove i).heap.length := by
  have hil := (List.getElem?_eq_some_iff.mp hi).1
  obtain ⟨n, hlen⟩ : ∃ n, s.heap.length = n + 1 := ⟨s.heap.length - 1, by omega⟩
  unfold heapRemove
  rw [hlen, Nat.add_sub_cancel]
  dsimp only
  split_ifs with hlast
  · exact swapOut_arranged h ho hlen hi (by omega)
  · obtain rfl : n = i := not_not.mp hlast
    exact popLast_arranged h.arranged hlen hi fun c hc hcn => ho c hc (by omega)

/-- `heap.Pop` takes out the first entry. -/
theorem heapPop_arranged (h : s.Indexed) (ho : Ordered (heapInterface Session) s s.heap.length)
    {ref : ℕ} (hfirst : s.heap[0]? = some ref) :
    Arranged s s.heapPop (s.heap.erase ref) ∧
      Ordered (heapInterface Session) s.heapPop s.heapPop.heap.length := by
  have hil := (List.getElem?_eq_some_iff.mp hfirst).1
  obtain ⟨n, hlen⟩ : ∃ n, s.heap.length = n + 1 := ⟨s.heap.length - 1, by omega⟩
  unfold heapPop
  rw [hlen, Nat.add_sub_cancel]
  dsimp only
  rw [← fix_first]
  rcases Nat.eq_zero_or_pos n with rfl | hpos
  · have hheap := heap_swap hfirst hfirst 0
    rw [if_pos rfl] at hheap
    exact popLast_arranged (h.arranged.swap hil hil) hlen hheap fun c hc hcn => by omega
  · exact swapOut_arranged h ho hlen hfirst hpos

/-- `heap.Push` adds an entry. -/
theorem heapPush_arranged (h : s.Indexed) (ho : Ordered (heapInterface Session) s s.heap.length)
    {ref : ℕ} (hcell : ref < s.cells.length) (hfresh : ref ∉ s.heap) :
    Arranged s (s.heapPush ref) (s.heap ++ [ref]) ∧
      Ordered (heapInterface Session) (s.heapPush ref) (s.heapPush ref).heap.length := by
  have hheap (k : ℕ) (hk : k < s.heap.length) : (s.pushLast ref).heap[k]? = s.heap[k]? :=
    List.getElem?_append_left hk
  have hlen : (s.heap ++ [ref]).length = s.heap.length + 1 := List.length_append
  have hpushed : Arranged s (s.pushLast ref) (s.heap ++ [ref]) := by
    refine ⟨?_, List.Perm.refl _, info_setIndex s ref _, rfl, rfl, rfl⟩
    intro k other hk
    have hplaces := indexOf_setIndex s ref s.heap.length other
    have hkl : k < s.heap.length + 1 := hlen ▸ (List.getElem?_eq_some_iff.mp hk).1
    by_cases hlast : k = s.heap.length
    · obtain rfl : ref = other := by
        rw [hlast] at hk
        exact Option.some.inj (List.getElem?_concat_length.symm.trans hk)
      have hnoted : s.indexOf ref = some s.cells[ref].index :=
        congrArg (Option.map IdleEntry.index) (List.getElem?_eq_getElem hcell)
      rw [if_pos rfl, hnoted] at hplaces
      rw [hlast]
      exact hplaces
    · rw [hheap k (by omega)] at hk
      have hne : other ≠ ref := fun hsame => hfresh (hsame ▸ List.mem_of_getElem? hk)
      rw [if_neg hne] at hplaces
      exact hplaces.trans (h k other hk)
  have hkey (k : ℕ) (hk : k < s.heap.length) : (s.pushLast ref).deadlineAt k = s.deadlineAt k := by
    unfold deadlineAt
    rw [hheap k hk, hpushed.info]
  have hup := up_rec (h := heapInterface Session) (arranged_swap_below hlen.ge)
    ⟨hpushed, rfl⟩ (Nat.lt_succ_self s.heap.length)
  refine ⟨hup.1, ?_⟩
  rw [heapPush, hup.1.heap.length_eq, hlen]
  exact up_ordered (ho.congr hkey).upOrder hlen.ge (Nat.lt_succ_self _)

/-- `heap.Fix` puts the first entry at its place. -/
theorem heapFix_arranged (h : s.Indexed) (hpos : 0 < s.heap.length)
    (ho : HoleOrder (heapInterface Session) s s.heap.length 0) :
    Arranged s (s.heapFix 0) s.heap ∧
      Ordered (heapInterface Session) (s.heapFix 0) (s.heapFix 0).heap.length := by
  have hfixed := fix_rec (h := heapInterface Session) (arranged_swap_below le_rfl)
    ⟨h.arranged, rfl⟩ hpos
  refine ⟨hfixed.1, ?_⟩
  rw [heapFix, hfixed.1.heap.length_eq]
  exact fix_ordered ho le_rfl hpos

/-- An entry is due at a time. -/
def isDue (s : Sweeper Session) (now : Time) (ref : ℕ) : Bool :=
  decide (((s.info ref).map Prod.snd).getD 0 ≤ now)

/-- The number of the entries of the heap that are due at a time. -/
def due (s : Sweeper Session) (now : Time) : ℕ := s.heap.countP (s.isDue now)

/-- Taking out an entry that is due leaves one less. -/
theorem due_eq_succ {now : Time} {ref : ℕ} (hmem : ref ∈ s.heap) (hdue : s.isDue now ref = true) :
    s.due now = (s.heap.erase ref).countP (s.isDue now) + 1 := by
  rw [due, (List.perm_cons_erase hmem).countP_eq, List.countP_cons_of_pos hdue]

/-- Popping an entry that is due leaves one less. -/
theorem due_popped {s' : Sweeper Session} {now : Time} {ref : ℕ} (hmem : ref ∈ s.heap)
    (hdue : s.isDue now ref = true) (hremoved : Arranged s s' (s.heap.erase ref)) :
    s.due now = s'.due now + 1 := by
  have hsame : s'.isDue now = s.isDue now := by
    funext other
    rw [isDue, isDue, hremoved.info]
  rw [due_eq_succ hmem hdue, due, hsame, hremoved.heap.countP_eq]

/-- Putting the deadline of an entry that is due into the future leaves one less. -/
theorem due_refreshed {s' : Sweeper Session} {now deadline : Time} {ref : ℕ} (hnodup : s.heap.Nodup)
    (hmem : ref ∈ s.heap) (hdue : s.isDue now ref = true) (hlater : now < deadline)
    (hfixed : Arranged (s.setDeadline ref deadline) s' s.heap) (hcell : (s.info ref).isSome) :
    s.due now = s'.due now + 1 := by
  have hpostponed : s'.isDue now ref = false := by
    obtain ⟨noted, hnoted⟩ := Option.isSome_iff_exists.mp hcell
    rw [isDue, hfixed.info, info_setDeadline, if_pos rfl, hnoted]
    exact decide_eq_false (not_le.mpr hlater)
  have hothers : (s.heap.erase ref).countP (s'.isDue now) = (s.heap.erase ref).countP (s.isDue now) := by
    refine List.countP_congr fun other hother => ?_
    have hne : other ≠ ref := ((List.Nodup.mem_erase_iff hnodup).mp hother).1
    rw [isDue, isDue, hfixed.info, info_setDeadline, if_neg hne]
  rw [due_eq_succ hmem hdue, due, hfixed.heap.countP_eq, (List.perm_cons_erase hmem).countP_eq,
    List.countP_cons_of_neg (by rw [hpostponed]; exact Bool.false_ne_true), hothers]

end Sweeper

end Grunyas.Proxy
