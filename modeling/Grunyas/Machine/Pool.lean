import Mathlib.Data.List.Nodup
import Mathlib.Data.List.Perm.Subperm

/-!
# A pool of resources and those who hold them

A `Lender` lends resources of several kinds, of each kind at most so many at a time; how it chooses them
is left open. Holders take resources and give them back. If what every holder has taken is what it has
given back and what it holds, then the holdings together are what the lender has lent
(`Lender.exchange_holdings`), and no two holders have the same resource (`Lender.disjoint`).

`Pool` is the lender that may do whatever a lender may: a resource is lent if it is free, or if it is new
and its kind has room, and one that is given back is kept or dropped.
-/

namespace Machine

open scoped List

universe u

section Holders

variable {R : Type*} {holdings : List (List R)}

/-- The holding of one holder and those of the others. -/
theorem perm_flatten_eraseIdx {i : ℕ} {old : List R}
    (h : holdings[i]? = some old) : holdings.flatten.Perm (old ++ (holdings.eraseIdx i).flatten) := by
  induction holdings generalizing i with
  | nil => cases h
  | cons first rest ih =>
    cases i with
    | zero =>
      obtain rfl : first = old := Option.some.inj h
      exact List.Perm.refl _
    | succ i =>
      have hrest := ih (i := i) (by simpa using h)
      calc first ++ rest.flatten
          ~ first ++ (old ++ (rest.eraseIdx i).flatten) := hrest.append_left first
        _ ~ old ++ (first ++ (rest.eraseIdx i).flatten) := List.perm_append_comm_assoc _ _ _

/-- The holdings after one of them changed. -/
theorem perm_flatten_set {i : ℕ} {old : List R} (h : holdings[i]? = some old) (new : List R) :
    (holdings.set i new).flatten.Perm (new ++ (holdings.eraseIdx i).flatten) := by
  have hnew : (holdings.set i new)[i]? = some new := by
    simp [(List.getElem?_eq_some_iff.mp h).1]
  have hset := perm_flatten_eraseIdx hnew
  rwa [List.eraseIdx_set_eq] at hset

end Holders

/-- A lender of resources. What is lent is not free, nothing is there twice, and of no kind is there more
than its capacity. A resource is lent to one who takes it until it is given back; resources may be opened
and dropped meanwhile. -/
structure Lender {R : Type u} {K : Type*} [DecidableEq K] (kind : R → K) (capacity : K → ℕ) where
  State : Type u
  free : State → List R
  lent : State → List R
  empty : State
  take : State → R → Option State
  giveBack : Bool → State → R → Option State
  fill : State → R → Option State
  drop : State → R → State
  nodup : ∀ p, (free p ++ lent p).Nodup
  bounded : ∀ p k, (free p ++ lent p).countP (fun r => kind r = k) ≤ capacity k
  empty_lent : lent empty = []
  take_lent : ∀ {p r q}, take p r = some q → (lent q).Perm (r :: lent p)
  giveBack_lent : ∀ {keep p r q}, giveBack keep p r = some q → (r :: lent q).Perm (lent p)
  fill_lent : ∀ {p r q}, fill p r = some q → (lent q).Perm (lent p)
  drop_lent : ∀ p r, (lent (drop p r)).Perm (lent p)

namespace Lender

variable {R : Type u} {K : Type*} [DecidableEq K] {kind : R → K} {capacity : K → ℕ}
variable {lib : Lender kind capacity} {p q : lib.State}

/-- Lend resources and take others back. -/
def exchange (lib : Lender kind capacity) (p : lib.State) (got returned : List R) (keep : Bool) :
    Option lib.State :=
  (got.foldlM lib.take p).bind fun q => returned.foldlM (lib.giveBack keep) q

/-- Resources that are taken are lent. -/
theorem takeAll_lent {got : List R} (h : got.foldlM lib.take p = some q) :
    (lib.lent q).Perm (got ++ lib.lent p) := by
  induction got generalizing p with
  | nil =>
    cases h
    exact List.Perm.refl _
  | cons r got ih =>
    rw [List.foldlM_cons] at h
    obtain ⟨u, hu, hrest⟩ := Option.bind_eq_some_iff.mp h
    calc lib.lent q
        ~ got ++ lib.lent u := ih hrest
      _ ~ got ++ r :: lib.lent p := (lib.take_lent hu).append_left got
      _ ~ r :: got ++ lib.lent p := List.perm_middle

/-- Resources that are given back were lent. -/
theorem giveBackAll_lent {keep : Bool} {returned : List R}
    (h : returned.foldlM (lib.giveBack keep) p = some q) :
    (returned ++ lib.lent q).Perm (lib.lent p) := by
  induction returned generalizing p with
  | nil =>
    cases h
    exact List.Perm.refl _
  | cons r returned ih =>
    rw [List.foldlM_cons] at h
    obtain ⟨u, hu, hrest⟩ := Option.bind_eq_some_iff.mp h
    exact ((ih hrest).cons r).trans (lib.giveBack_lent hu)

/-- What is lent after an exchange. -/
theorem exchange_lent {got returned : List R} {keep : Bool}
    (h : lib.exchange p got returned keep = some q) :
    (returned ++ lib.lent q).Perm (got ++ lib.lent p) := by
  obtain ⟨u, htaken, hreturned⟩ := Option.bind_eq_some_iff.mp h
  exact (giveBackAll_lent hreturned).trans (takeAll_lent htaken)

variable {holdings : List (List R)}

/-- The holdings after a holder took resources and gave others back are what is lent. -/
theorem exchange_holdings {i : ℕ} {old new got returned : List R} {keep : Bool}
    (hlent : (lib.lent p).Perm holdings.flatten) (hi : holdings[i]? = some old)
    (hexchange : lib.exchange p got returned keep = some q)
    (hledger : old ++ got = returned ++ new) :
    (lib.lent q).Perm (holdings.set i new).flatten := by
  rw [← List.perm_append_left_iff returned]
  calc returned ++ lib.lent q
      ~ got ++ lib.lent p := exchange_lent hexchange
    _ ~ got ++ (old ++ (holdings.eraseIdx i).flatten) :=
        (hlent.trans (perm_flatten_eraseIdx hi)).append_left got
    _ ~ old ++ got ++ (holdings.eraseIdx i).flatten := by
        rw [← List.append_assoc]
        exact List.perm_append_comm.append_right _
    _ = returned ++ (new ++ (holdings.eraseIdx i).flatten) := by
        rw [hledger, List.append_assoc]
    _ ~ returned ++ (holdings.set i new).flatten := (perm_flatten_set hi new).symm.append_left returned

/-- No resource is held by two holders. -/
theorem disjoint (hlent : (lib.lent p).Perm holdings.flatten) {i j : ℕ} {a b : List R}
    (ha : holdings[i]? = some a) (hb : holdings[j]? = some b) {r : R} (hra : r ∈ a) (hrb : r ∈ b) :
    i = j := by
  have hnodup := (List.nodup_append.mp (lib.nodup p)).2.1
  have hflatten := hlent.nodup_iff.mp hnodup
  by_contra hne
  obtain ⟨hi, rfl⟩ := List.getElem?_eq_some_iff.mp ha
  obtain ⟨hj, rfl⟩ := List.getElem?_eq_some_iff.mp hb
  have hpairwise := List.pairwise_iff_getElem.mp (List.nodup_flatten.mp hflatten).2
  obtain hlt | hlt := Nat.lt_or_gt_of_ne hne
  · exact hpairwise i j hi hj hlt hra hrb
  · exact hpairwise j i hj hi hlt hrb hra

/-- What is held is not free. -/
theorem not_free_of_held (hlent : (lib.lent p).Perm holdings.flatten) {i : ℕ} {a : List R}
    (ha : holdings[i]? = some a) {r : R} (hra : r ∈ a) : r ∉ lib.free p := by
  intro hfree
  have hmem : r ∈ lib.lent p :=
    hlent.mem_iff.mpr (List.mem_flatten.mpr ⟨a, List.mem_of_getElem? ha, hra⟩)
  exact (List.nodup_append.mp (lib.nodup p)).2.2 r hfree r hmem rfl

end Lender

variable {R : Type u} {K : Type*} [DecidableEq R] [DecidableEq K]

/-- A pool of resources. -/
structure Pool (kind : R → K) (capacity : K → ℕ) where
  free : List R
  lent : List R
  nodup : (free ++ lent).Nodup
  bounded : ∀ k, (free ++ lent).countP (fun r => kind r = k) ≤ capacity k

namespace Pool

variable {kind : R → K} {capacity : K → ℕ}

/-- A pool that has nothing. -/
def empty : Pool kind capacity := ⟨[], [], List.nodup_nil, fun _ => Nat.zero_le _⟩

/-- Resources are moved or dropped. -/
def move (p : Pool kind capacity) (free lent : List R)
    (h : (free ++ lent).Subperm (p.free ++ p.lent)) : Pool kind capacity where
  free := free
  lent := lent
  nodup := by
    obtain ⟨kept, hperm, hsub⟩ := h
    exact hperm.nodup_iff.mp (hsub.nodup p.nodup)
  bounded k := Nat.le_trans (h.countP_le _) (p.bounded k)

/-- The kind of a resource has room for it, and it is new. -/
def Room (p : Pool kind capacity) (r : R) : Prop :=
  r ∉ p.free ++ p.lent ∧
    (p.free ++ p.lent).countP (fun q => kind q = kind r) < capacity (kind r)

instance (p : Pool kind capacity) (r : R) : Decidable (p.Room r) :=
  inferInstanceAs (Decidable (_ ∧ _))

/-- A new resource is added. -/
def add (p : Pool kind capacity) (r : R) (free lent : List R)
    (h : (free ++ lent).Perm (r :: (p.free ++ p.lent))) (hroom : p.Room r) : Pool kind capacity where
  free := free
  lent := lent
  nodup := h.nodup_iff.mpr (List.nodup_cons.mpr ⟨hroom.1, p.nodup⟩)
  bounded k := by
    rw [h.countP_eq, List.countP_cons]
    have hk := p.bounded k
    by_cases hkind : kind r = k
    · have hless := hroom.2
      rw [hkind] at hless
      simp only [hkind, decide_true, if_true]
      omega
    · simpa [hkind] using hk

/-- Lend a resource that is free or new. -/
def take (p : Pool kind capacity) (r : R) : Option (Pool kind capacity) :=
  if hfree : r ∈ p.free then
    some (p.move (p.free.erase r) (r :: p.lent) (List.Perm.subperm (by
      exact (List.perm_middle).trans ((List.perm_cons_erase hfree).append_right _).symm)))
  else if hroom : p.Room r then some (p.add r p.free (r :: p.lent) List.perm_middle hroom)
  else none

/-- Take a resource back, and keep or drop it. -/
def giveBack (keep : Bool) (p : Pool kind capacity) (r : R) : Option (Pool kind capacity) :=
  if hlent : r ∈ p.lent then
    some (if keep then
      p.move (r :: p.free) (p.lent.erase r) (List.Perm.subperm (by
        exact List.perm_middle.symm.trans ((List.perm_cons_erase hlent).append_left _).symm))
    else p.move p.free (p.lent.erase r) ((List.erase_sublist.append_left _).subperm))
  else none

/-- Open a new resource and keep it free. -/
def fill (p : Pool kind capacity) (r : R) : Option (Pool kind capacity) :=
  if hroom : p.Room r then some (p.add r (r :: p.free) p.lent (List.Perm.refl _) hroom) else none

/-- Drop a free resource. -/
def drop (p : Pool kind capacity) (r : R) : Pool kind capacity :=
  p.move (p.free.erase r) p.lent (List.erase_sublist.append_right _).subperm

variable (kind capacity) in
/-- Such a pool is a lender. -/
def lender : Lender kind capacity where
  State := Pool kind capacity
  free := free
  lent := lent
  empty := empty
  take := take
  giveBack := giveBack
  fill := fill
  drop := drop
  nodup := nodup
  bounded := bounded
  empty_lent := rfl
  take_lent := by
    intro p r q h
    unfold take at h
    split_ifs at h <;> cases h <;> exact List.Perm.refl _
  giveBack_lent := by
    intro keep p r q h
    unfold giveBack at h
    split_ifs at h with hlent hkeep <;> cases h <;> exact (List.perm_cons_erase hlent).symm
  fill_lent := by
    intro p r q h
    unfold fill at h
    split_ifs at h
    cases h
    exact List.Perm.refl _
  drop_lent := fun _ _ => List.Perm.refl _

end Pool

end Machine
