import Mathlib.Data.Nat.Basic
import Mathlib.Order.Lattice

/-!
# The `container/heap` package

The package works on anything that can tell its length, compare the elements at two places and swap
them. An `Interface` is such a thing, with the key of every place; `up` and `down` are the loops of the
package, and `fix` is what both `Fix` and `Remove` do at a place whose key may be out of order.

The loops swap places and do nothing else, so whatever swaps below a bound keep, they keep: `up_rec`,
`down_rec`. They establish the order of the heap from the orders that the operations leave them with:
`up_ordered` where only one place may be too small, `fix_ordered` where it may be too small or too
large.
-/

namespace GoHeap

/-- What the package needs of a heap. The swapped places are below the length. -/
structure Interface (State Key : Type*) where
  len : State → ℕ
  key : State → ℕ → Key
  swap : State → ℕ → ℕ → State
  len_swap : ∀ s i j, len (swap s i j) = len s
  key_swap : ∀ s i j k, i < len s → j < len s →
    key (swap s i j) k = if k = i then key s j else if k = j then key s i else key s k

/-- The place above a place; the first place is above itself. -/
def parent (i : ℕ) : ℕ := (i - 1) / 2

/-- A place other than the first lies below its parent. -/
theorem parent_lt {i : ℕ} (h : 0 < i) : parent i < i := by
  unfold parent
  omega

/-- The places below a place. -/
theorem eq_of_parent_eq {c i : ℕ} (hc : 0 < c) (h : parent c = i) : c = 2 * i + 1 ∨ c = 2 * i + 2 := by
  unfold parent at h
  omega

section Swap

variable {State Key : Type*} {h : Interface State Key} {s : State} {i j k : ℕ}

/-- The first one of two swapped places. -/
theorem key_swap_left (hi : i < h.len s) (hj : j < h.len s) :
    h.key (h.swap s i j) i = h.key s j := by
  rw [h.key_swap s i j i hi hj, if_pos rfl]

/-- The second one of two swapped places. -/
theorem key_swap_right (hi : i < h.len s) (hj : j < h.len s) :
    h.key (h.swap s i j) j = h.key s i := by
  rw [h.key_swap s i j j hi hj, if_pos rfl, ite_eq_right_iff]
  intro hsame
  rw [hsame]

/-- A place that is not swapped. -/
theorem key_swap_other (hi : i < h.len s) (hj : j < h.len s) (hki : k ≠ i) (hkj : k ≠ j) :
    h.key (h.swap s i j) k = h.key s k := by
  rw [h.key_swap s i j k hi hj, if_neg hki, if_neg hkj]

end Swap

variable {State Key : Type*} [LinearOrder Key] (h : Interface State Key)

/-- The loop of `up`; as many turns as the place suffice. -/
def upLoop : ℕ → State → ℕ → State
  | 0, s, _ => s
  | turns + 1, s, j =>
    let i := parent j
    if i = j ∨ ¬h.key s j < h.key s i then s else upLoop turns (h.swap s i j) i

/-- Move the element at a place up until it is in order. -/
def up (s : State) (j : ℕ) : State := upLoop h j s j

/-- The place of the smaller one of the elements below a place. -/
def smallerChild (s : State) (i n : ℕ) : ℕ :=
  if 2 * i + 2 < n ∧ h.key s (2 * i + 2) < h.key s (2 * i + 1) then 2 * i + 2 else 2 * i + 1

/-- The loop of `down`, with the place that it ends at; as many turns as the bound suffice. -/
def downLoop : ℕ → State → ℕ → ℕ → State × ℕ
  | 0, s, i, _ => (s, i)
  | turns + 1, s, i, n =>
    if n ≤ 2 * i + 1 then (s, i)
    else
      let j := smallerChild h s i n
      if ¬h.key s j < h.key s i then (s, i) else downLoop turns (h.swap s i j) j n

/-- Move the element at a place down until it is in order below a bound, and tell whether it moved. -/
def down (s : State) (i n : ℕ) : State × Bool :=
  let moved := downLoop h n s i n
  (moved.1, decide (i < moved.2))

/-- Move the element at a place down, or up if it did not move. -/
def fix (s : State) (i n : ℕ) : State :=
  let moved := down h s i n
  if moved.2 then moved.1 else up h moved.1 i

/-- No element below the bound is smaller than the one above it. -/
def Ordered (s : State) (n : ℕ) : Prop := ∀ c, 0 < c → c < n → h.key s (parent c) ≤ h.key s c

/-- The elements below a place are not smaller than the one above it. -/
def Bridged (s : State) (n i : ℕ) : Prop :=
  0 < i → ∀ c, 0 < c → c < n → parent c = i → h.key s (parent i) ≤ h.key s c

/-- Everything is in order but the element at a place, which may be smaller than the one above it. -/
structure UpOrder (s : State) (n j : ℕ) : Prop where
  others : ∀ c, 0 < c → c < n → c ≠ j → h.key s (parent c) ≤ h.key s c
  bridged : Bridged h s n j

/-- Everything is in order but the element at a place, which may be larger than those below it. -/
structure DownOrder (s : State) (n i : ℕ) : Prop where
  others : ∀ c, 0 < c → c < n → parent c ≠ i → h.key s (parent c) ≤ h.key s c
  bridged : Bridged h s n i

/-- Everything is in order but the element at a place. -/
structure HoleOrder (s : State) (n i : ℕ) : Prop where
  others : ∀ c, 0 < c → c < n → c ≠ i → parent c ≠ i → h.key s (parent c) ≤ h.key s c
  bridged : Bridged h s n i

variable {h}

/-- What swaps below a bound keep, `up` keeps. -/
theorem up_rec {I : State → Prop} {n : ℕ} (hswap : ∀ s i j, I s → i < n → j < n → I (h.swap s i j))
    {s : State} {j : ℕ} (hs : I s) (hj : j < n) : I (up h s j) := by
  have hloop : ∀ turns s j, I s → j < n → I (upLoop h turns s j) := by
    intro turns
    induction turns with
    | zero => exact fun s j hs _ => hs
    | succ turns ih =>
      intro s j hs hj
      rw [upLoop]
      split_ifs with hstop
      · exact hs
      · have hi : parent j < n := lt_of_le_of_lt (by unfold parent; omega) hj
        exact ih _ _ (hswap s _ j hs hi hj) hi
  exact hloop j s j hs hj

/-- The smaller element below a place is below the bound. -/
theorem smallerChild_spec (s : State) {i n : ℕ} (hi : 2 * i + 1 < n) :
    0 < smallerChild h s i n ∧ smallerChild h s i n < n ∧ parent (smallerChild h s i n) = i ∧
      ∀ c, 0 < c → c < n → parent c = i → h.key s (smallerChild h s i n) ≤ h.key s c := by
  unfold smallerChild
  split_ifs with hright
  · refine ⟨by omega, hright.1, by unfold parent; omega, ?_⟩
    intro c hc _ hparent
    rcases eq_of_parent_eq hc hparent with rfl | rfl
    · exact hright.2.le
    · exact le_rfl
  · refine ⟨by omega, hi, by unfold parent; omega, ?_⟩
    intro c hc hcn hparent
    rcases eq_of_parent_eq hc hparent with rfl | rfl
    · exact le_rfl
    · exact not_lt.mp fun hlt => hright ⟨hcn, hlt⟩

/-- What swaps below a bound keep, `down` keeps. -/
theorem down_rec {I : State → Prop} {n : ℕ} (hswap : ∀ s i j, I s → i < n → j < n → I (h.swap s i j))
    {s : State} {i : ℕ} (hs : I s) : I (down h s i n).1 := by
  have hloop : ∀ turns s i, I s → I (downLoop h turns s i n).1 := by
    intro turns
    induction turns with
    | zero => exact fun s i hs => hs
    | succ turns ih =>
      intro s i hs
      rw [downLoop]
      dsimp only
      split_ifs with hleaf hstop
      · exact hs
      · obtain ⟨-, hj, -⟩ := smallerChild_spec (h := h) s (not_le.mp hleaf)
        exact ih _ _ (hswap s i _ hs (by omega) hj)
      · exact hs
  exact hloop n s i hs

/-- What swaps below a bound keep, `fix` keeps. -/
theorem fix_rec {I : State → Prop} {n : ℕ} (hswap : ∀ s i j, I s → i < n → j < n → I (h.swap s i j))
    {s : State} {i : ℕ} (hs : I s) (hi : i < n) : I (fix h s i n) := by
  unfold fix
  dsimp only
  split_ifs
  · exact down_rec hswap hs
  · exact up_rec hswap (down_rec hswap hs) hi

/-- A turn of `up` moves the element that may be too small to the place above. -/
theorem UpOrder.swap {s : State} {n j : ℕ} (ho : UpOrder h s n j) (hn : n ≤ h.len s) (hj : j < n)
    (hpos : 0 < j) (hlt : h.key s j < h.key s (parent j)) :
    UpOrder h (h.swap s (parent j) j) n (parent j) := by
  have hparent := parent_lt hpos
  have hi : parent j < h.len s := by omega
  have hjl : j < h.len s := by omega
  constructor
  · intro c hc hcn hci
    have hcp := parent_lt hc
    by_cases hcj : c = j
    · subst hcj
      rw [key_swap_left hi hjl, key_swap_right hi hjl]
      exact hlt.le
    · rw [key_swap_other hi hjl hci hcj]
      by_cases hbelow : parent c = j
      · rw [hbelow, key_swap_right hi hjl]
        exact ho.bridged hpos c hc hcn hbelow
      · by_cases hsibling : parent c = parent j
        · rw [hsibling, key_swap_left hi hjl]
          exact hlt.le.trans (hsibling ▸ ho.others c hc hcn hcj)
        · rw [key_swap_other hi hjl hsibling hbelow]
          exact ho.others c hc hcn hcj
  · intro hipos c hc hcn hsibling
    have hgrand := parent_lt hipos
    have hcp := parent_lt hc
    have habove := ho.others (parent j) hipos (by omega) (by omega)
    rw [key_swap_other hi hjl (by omega) (by omega)]
    by_cases hcj : c = j
    · subst hcj
      rw [key_swap_right hi hjl]
      exact habove
    · rw [key_swap_other hi hjl (by omega) hcj]
      exact habove.trans (hsibling ▸ ho.others c hc hcn hcj)

/-- If only one element may be smaller than the one above it, `up` puts the heap in order. -/
theorem up_ordered {s : State} {n j : ℕ} (ho : UpOrder h s n j) (hn : n ≤ h.len s) (hj : j < n) :
    Ordered h (up h s j) n := by
  have hloop : ∀ turns s j, UpOrder h s n j → n ≤ h.len s → j < n → j ≤ turns →
      Ordered h (upLoop h turns s j) n := by
    intro turns
    induction turns with
    | zero =>
      intro s j ho _ _ hturns c hc hcn
      exact ho.others c hc hcn (by omega)
    | succ turns ih =>
      intro s j ho hn hj hturns
      rw [upLoop]
      split_ifs with hstop
      · intro c hc hcn
        by_cases hcj : c = j
        · subst hcj
          rcases hstop with hroot | hnot
          · rw [hroot]
          · exact not_lt.mp hnot
        · exact ho.others c hc hcn hcj
      · rw [not_or, not_not] at hstop
        have hpos : 0 < j := by
          by_contra hzero
          have hj0 : j = 0 := by omega
          exact hstop.1 (by rw [hj0]; rfl)
        have hparent := parent_lt hpos
        exact ih _ _ (ho.swap hn hj hpos hstop.2) (by rw [h.len_swap]; exact hn) (by omega) (by omega)
  exact hloop j s j ho hn hj le_rfl

/-- A turn of `down` moves the element that is too large to the place below. -/
theorem HoleOrder.swap {s : State} {n i : ℕ} (ho : HoleOrder h s n i) (hn : n ≤ h.len s)
    (hi : 2 * i + 1 < n) (hlt : h.key s (smallerChild h s i n) < h.key s i) :
    DownOrder h (h.swap s i (smallerChild h s i n)) n (smallerChild h s i n) := by
  obtain ⟨hpos, hjn, hparent, hmin⟩ := smallerChild_spec (h := h) s hi
  generalize smallerChild h s i n = j at hlt hpos hjn hparent hmin
  have hij : i < j := hparent ▸ parent_lt hpos
  have hil : i < h.len s := by omega
  have hjl : j < h.len s := by omega
  constructor
  · intro c hc hcn hbelow
    have hcp := parent_lt hc
    by_cases hcj : c = j
    · subst hcj
      rw [hparent, key_swap_left hil hjl, key_swap_right hil hjl]
      exact hlt.le
    · by_cases hci : c = i
      · subst hci
        rw [key_swap_left hil hjl, key_swap_other hil hjl (by omega) (by omega)]
        exact ho.bridged hc j hpos hjn hparent
      · rw [key_swap_other hil hjl hci hcj]
        by_cases hsibling : parent c = i
        · rw [hsibling, key_swap_left hil hjl]
          exact hmin c hc hcn hsibling
        · rw [key_swap_other hil hjl hsibling hbelow]
          exact ho.others c hc hcn hci hsibling
  · intro _ c hc hcn hbelow
    have hcp := parent_lt hc
    rw [hparent, key_swap_left hil hjl, key_swap_other hil hjl (by omega) (by omega)]
    exact hbelow ▸ ho.others c hc hcn (by omega) (by omega)

/-- An element that may only be too large is out of order. -/
theorem DownOrder.hole {s : State} {n i : ℕ} (ho : DownOrder h s n i) : HoleOrder h s n i :=
  ⟨fun c hc hcn _ hparent => ho.others c hc hcn hparent, ho.bridged⟩

/-- If only one element may be larger than those below it, the loop of `down` puts the heap in order. -/
theorem downLoop_ordered {turns n : ℕ} {s : State} {i : ℕ} (ho : DownOrder h s n i)
    (hn : n ≤ h.len s) (hturns : n ≤ turns + i) : Ordered h (downLoop h turns s i n).1 n := by
  induction turns generalizing s i with
  | zero =>
    intro c hc hcn
    have hcp := parent_lt hc
    exact ho.others c hc hcn (by omega)
  | succ turns ih =>
    rw [downLoop]
    dsimp only
    split_ifs with hleaf hmove
    · intro c hc hcn
      refine ho.others c hc hcn fun hparent => ?_
      rcases eq_of_parent_eq hc hparent with hchild | hchild <;> omega
    · obtain ⟨hpos, hjn, hparent, -⟩ := smallerChild_spec (h := h) s (not_le.mp hleaf)
      have hij := parent_lt hpos
      exact ih (ho.hole.swap hn (not_le.mp hleaf) hmove) (by rw [h.len_swap]; exact hn) (by omega)
    · obtain ⟨-, -, -, hmin⟩ := smallerChild_spec (h := h) s (not_le.mp hleaf)
      intro c hc hcn
      by_cases hparent : parent c = i
      · rw [hparent]
        exact (not_lt.mp hmove).trans (hmin c hc hcn hparent)
      · exact ho.others c hc hcn hparent

/-- The loop of `down` does not go up. -/
theorem le_downLoop (turns n : ℕ) (s : State) (i : ℕ) : i ≤ (downLoop h turns s i n).2 := by
  induction turns generalizing s i with
  | zero => exact le_rfl
  | succ turns ih =>
    rw [downLoop]
    dsimp only
    split_ifs with hleaf hmove
    · exact le_rfl
    · obtain ⟨hpos, -, hparent, -⟩ := smallerChild_spec (h := h) s (not_le.mp hleaf)
      exact ((parent_lt hpos).le.trans' hparent.ge).trans (ih _ _)
    · exact le_rfl

/-- If only one element may be out of order, `fix` puts the heap in order. -/
theorem fix_ordered {s : State} {n i : ℕ} (ho : HoleOrder h s n i) (hn : n ≤ h.len s) (hi : i < n) :
    Ordered h (fix h s i n) n := by
  obtain ⟨turns, rfl⟩ : ∃ turns, n = turns + 1 := ⟨n - 1, by omega⟩
  -- an element that does not move down is not larger than those below it
  have hup (hstay : ∀ c, 0 < c → c < turns + 1 → parent c = i → h.key s i ≤ h.key s c) :
      Ordered h (up h s i) (turns + 1) := by
    refine up_ordered ⟨fun c hc hcn hci => ?_, ho.bridged⟩ hn hi
    by_cases hparent : parent c = i
    · rw [hparent]
      exact hstay c hc hcn hparent
    · exact ho.others c hc hcn hci hparent
  by_cases hleaf : turns + 1 ≤ 2 * i + 1
  · have hloop : downLoop h (turns + 1) s i (turns + 1) = (s, i) := by rw [downLoop, if_pos hleaf]
    simp only [fix, down, hloop, lt_irrefl, decide_false, Bool.false_eq_true, if_false]
    refine hup fun c hc hcn hparent => ?_
    rcases eq_of_parent_eq hc hparent with hchild | hchild <;> omega
  · obtain ⟨hpos, hjn, hparent, hmin⟩ := smallerChild_spec (h := h) s (not_le.mp hleaf)
    by_cases hmove : h.key s (smallerChild h s i (turns + 1)) < h.key s i
    · have hij := parent_lt hpos
      have hend := le_downLoop (h := h) turns (turns + 1)
        (h.swap s i (smallerChild h s i (turns + 1))) (smallerChild h s i (turns + 1))
      have hloop : downLoop h (turns + 1) s i (turns + 1) =
          downLoop h turns (h.swap s i (smallerChild h s i (turns + 1)))
            (smallerChild h s i (turns + 1)) (turns + 1) := by
        rw [downLoop, if_neg hleaf, if_neg (not_not.mpr hmove)]
      simp only [fix, down, hloop]
      rw [if_pos (decide_eq_true (by omega))]
      exact downLoop_ordered (ho.swap hn (not_le.mp hleaf) hmove) (by rw [h.len_swap]; exact hn)
        (by omega)
    · have hloop : downLoop h (turns + 1) s i (turns + 1) = (s, i) := by
        rw [downLoop, if_neg hleaf, if_pos hmove]
      simp only [fix, down, hloop, lt_irrefl, decide_false, Bool.false_eq_true, if_false]
      exact hup fun c hc hcn hparent => (not_lt.mp hmove).trans (hmin c hc hcn hparent)

/-- The order depends on the keys below the bound. -/
theorem Ordered.congr {s s' : State} {n : ℕ} (ho : Ordered h s n)
    (hkey : ∀ k < n, h.key s' k = h.key s k) : Ordered h s' n := by
  intro c hc hcn
  have hparent := parent_lt hc
  rw [hkey c hcn, hkey (parent c) (by omega)]
  exact ho c hc hcn

/-- Of a heap with one more element, only that one may be out of order. -/
theorem Ordered.upOrder {s : State} {n : ℕ} (ho : Ordered h s n) : UpOrder h s (n + 1) n := by
  constructor
  · intro c hc hcn hlast
    exact ho c hc (by omega)
  · intro _ c hc hcn hbelow
    have hparent := parent_lt hc
    omega

/-- Nothing is above the first place. -/
@[simp] theorem up_first (s : State) : up h s 0 = s := rfl

/-- The first element only moves down. -/
theorem fix_first (s : State) (n : ℕ) : fix h s 0 n = (down h s 0 n).1 := by
  unfold fix
  dsimp only
  split_ifs
  · rfl
  · rw [up_first]

/-- Once the last element is swapped out of a heap, only the element that came in its place may be out
of order. -/
theorem Ordered.swap_last {s : State} {i n : ℕ} (ho : Ordered h s (h.len s)) (hi : i < n)
    (hn : n < h.len s) : HoleOrder h (h.swap s i n) n i := by
  have hil : i < h.len s := by omega
  constructor
  · intro c hc hcn hci hparent
    have hcp := parent_lt hc
    rw [key_swap_other hil hn hci (by omega), key_swap_other hil hn hparent (by omega)]
    exact ho c hc (by omega)
  · intro hpos c hc hcn hbelow
    have hip := parent_lt hpos
    have hcp := parent_lt hc
    rw [key_swap_other hil hn (by omega) (by omega), key_swap_other hil hn (by omega) (by omega)]
    calc h.key s (parent i) ≤ h.key s i := ho i hpos hil
      _ = h.key s (parent c) := by rw [hbelow]
      _ ≤ h.key s c := ho c hc (by omega)

/-- No element is smaller than the first one. -/
theorem Ordered.first_le {s : State} {n : ℕ} (ho : Ordered h s n) {i : ℕ} (hi : i < n) :
    h.key s 0 ≤ h.key s i := by
  induction i using Nat.strong_induction_on with
  | _ i ih =>
    rcases Nat.eq_zero_or_pos i with rfl | hpos
    · exact le_rfl
    · have hparent := parent_lt hpos
      exact (ih (parent i) hparent (by omega)).trans (ho i hpos hi)

end GoHeap
