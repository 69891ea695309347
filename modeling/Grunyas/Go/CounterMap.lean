import Grunyas.Go.Maps
import Mathlib.Algebra.BigOperators.Group.Finset.Piecewise

/-!
# Maps of counters

A counter that a map does not have reads as zero and is made when it is first incremented.
-/

namespace GoMap

variable {α : Type*} [DecidableEq α]

/-- The value of a counter. -/
def counter (m : Finmap fun _ : α => ℕ) (key : α) : ℕ := (m.lookup key).getD 0

/-- Increment a counter. -/
def increment (m : Finmap fun _ : α => ℕ) (key : α) : Finmap fun _ : α => ℕ :=
  m.insert key (counter m key + 1)

/-- The sum of the counters whose keys pass a test. -/
def sumWhere (m : Finmap fun _ : α => ℕ) (test : α → Bool) : ℕ :=
  ∑ key ∈ m.keys with test key, counter m key

/-- An increment adds one to its counter only. -/
theorem counter_increment (m : Finmap fun _ : α => ℕ) (key other : α) :
    counter (increment m key) other = counter m other + if other = key then 1 else 0 := by
  unfold counter increment
  by_cases h : other = key
  · subst h
    simp [counter]
  · simp [Finmap.lookup_insert_of_ne m h, h]

/-- The keys after an increment. -/
theorem keys_increment (m : Finmap fun _ : α => ℕ) (key : α) :
    (increment m key).keys = insert key m.keys := by
  ext other
  simp [increment, Finmap.mem_keys, Finmap.mem_insert]

/-- A key that the map does not have adds nothing to a sum. -/
theorem sumWhere_eq_insert (m : Finmap fun _ : α => ℕ) (test : α → Bool) (key : α) :
    sumWhere m test = ∑ other ∈ insert key m.keys with test other, counter m other := by
  refine Finset.sum_subset (Finset.filter_subset_filter _ (Finset.subset_insert key m.keys)) ?_
  intro other hother hnew
  have habsent : other ∉ m := by
    intro hmem
    exact hnew (Finset.mem_filter.mpr ⟨Finmap.mem_keys.mpr hmem, (Finset.mem_filter.mp hother).2⟩)
  rw [counter, Finmap.lookup_eq_none.mpr habsent]
  rfl

/-- The sum of the counters of one key. -/
theorem sumWhere_eq_counter (m : Finmap fun _ : α => ℕ) (key : α) :
    sumWhere m (fun other => decide (other = key)) = counter m key := by
  rw [sumWhere_eq_insert m _ key]
  simp [Finset.filter_eq']

/-- An increment adds one to the sums that its key is part of. -/
theorem sumWhere_increment (m : Finmap fun _ : α => ℕ) (test : α → Bool) (key : α) :
    sumWhere (increment m key) test = sumWhere m test + if test key then 1 else 0 := by
  rw [sumWhere_eq_insert m test key, sumWhere, keys_increment]
  simp only [counter_increment, Finset.sum_add_distrib]
  congr 1
  rw [Finset.sum_ite_eq']
  simp

end GoMap
