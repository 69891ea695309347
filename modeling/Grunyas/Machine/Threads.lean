import Mathlib.Algebra.GroupWithZero.Nat
import Mathlib.Data.List.Basic

/-!
# Threads

A program with several threads is a list of what each of them does next. A step of thread `i`
replaces the entry at place `i`, so that a count over all threads changes by what the two entries
contribute, and a property of all threads is to be shown for the new entry only.
-/

namespace Machine

variable {Thread : Type*} {threads : List Thread} {i : ℕ} {old : Thread}

/-- The threads that count, after one of them took a step. -/
theorem countP_set_add (counts : Thread → Bool) (h : threads[i]? = some old) (new : Thread) :
    (threads.set i new).countP counts + (counts old).toNat =
      threads.countP counts + (counts new).toNat := by
  induction threads generalizing i with
  | nil => cases h
  | cons first rest ih =>
    cases i with
    | zero =>
      obtain rfl : first = old := Option.some.inj h
      rw [List.set_cons_zero, List.countP_cons, List.countP_cons]
      cases counts first <;> cases counts new <;> simp
    | succ i =>
      have hrest := ih (i := i) (by simpa using h)
      rw [List.set_cons_succ, List.countP_cons, List.countP_cons]
      omega

/-- A sum over all threads, after one of them took a step. -/
theorem sum_map_set_add (weight : Thread → ℕ) (h : threads[i]? = some old) (new : Thread) :
    ((threads.set i new).map weight).sum + weight old = (threads.map weight).sum + weight new := by
  induction threads generalizing i with
  | nil => cases h
  | cons first rest ih =>
    cases i with
    | zero =>
      obtain rfl : first = old := Option.some.inj h
      simp only [List.set_cons_zero, List.map_cons, List.sum_cons]
      omega
    | succ i =>
      have hrest := ih (i := i) (by simpa using h)
      simp only [List.set_cons_succ, List.map_cons, List.sum_cons]
      omega

/-- The threads after one of them took a step. -/
theorem getElem?_set_of_getElem? (h : threads[i]? = some old) (new : Thread) (j : ℕ) :
    (threads.set i new)[j]? = if j = i then some new else threads[j]? := by
  have hi := (List.getElem?_eq_some_iff.mp h).1
  rw [List.getElem?_set]
  split_ifs with hsame hother hother
  · rfl
  · exact absurd hsame.symm hother
  · exact absurd hother.symm hsame
  · rfl

/-- The threads after another one started. -/
theorem getElem?_concat_eq_some {new thread : Thread} {j : ℕ}
    (h : (threads ++ [new])[j]? = some thread) :
    threads[j]? = some thread ∨ j = threads.length ∧ thread = new := by
  rw [List.getElem?_append] at h
  split_ifs at h with hlt
  · exact Or.inl h
  · rw [List.getElem?_singleton] at h
    split_ifs at h with hlast
    · exact Or.inr ⟨by omega, (Option.some.inj h).symm⟩

/-- A thread that there was before another one started. -/
theorem getElem?_concat_of_getElem? {thread : Thread} (h : threads[i]? = some thread) (new : Thread) :
    (threads ++ [new])[i]? = some thread :=
  (List.getElem?_append_left (List.getElem?_eq_some_iff.mp h).1).trans h

/-- A property of every thread, after one of them took a step. -/
theorem forall_mem_set {P : Thread → Prop} (h : ∀ thread ∈ threads, P thread) {new : Thread}
    (hnew : P new) : ∀ thread ∈ threads.set i new, P thread := by
  intro thread hmem
  rcases List.mem_or_eq_of_mem_set hmem with hold | rfl
  · exact h thread hold
  · exact hnew

end Machine
