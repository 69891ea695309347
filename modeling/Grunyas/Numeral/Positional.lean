import Mathlib.Data.Nat.Digits.Lemmas

/-!
# Positional numerals, most significant digit first

The number that a list of digits denotes, as Mathlib's `Nat.ofDigits` of the reversed list. Lists
of one length are ordered as the numbers they denote (`OrderedAlphabet.lt_iff_value_lt`), a digit
is a window of the number (`getElem?_eq_window`), and the windows of a number denote it again
(`value_windows`).
-/

namespace Positional

/-- The number that a list of digits denotes. -/
def value (base : ℕ) (ds : List ℕ) : ℕ := Nat.ofDigits base ds.reverse

@[simp] theorem value_nil (base : ℕ) : value base [] = 0 := rfl

/-- The first digit has the highest weight. -/
theorem value_cons (base d : ℕ) (ds : List ℕ) :
    value base (d :: ds) = d * base ^ ds.length + value base ds := by
  rw [value, Nat.ofDigits_reverse_cons, value, Nat.add_comm, Nat.mul_comm]

/-- A list of digits shifts the digits in front of it by its length. -/
theorem value_append (base : ℕ) (ds es : List ℕ) :
    value base (ds ++ es) = value base ds * base ^ es.length + value base es := by
  rw [value, List.reverse_append, Nat.ofDigits_append, List.length_reverse, value, value,
    Nat.add_comm, Nat.mul_comm]

/-- Zeros at the end shift a numeral. -/
theorem value_append_zeros (base : ℕ) (ds : List ℕ) (k : ℕ) :
    value base (ds ++ List.replicate k 0) = value base ds * base ^ k := by
  have hzeros : value base (List.replicate k 0) = 0 := by
    rw [value, List.reverse_replicate, Nat.ofDigits_replicate_zero]
  rw [value_append, List.length_replicate, hzeros, Nat.add_zero]

/-- A numeral is below the power of the base that its length allows. -/
theorem value_lt {base : ℕ} (hbase : 1 < base) {ds : List ℕ} (hds : ∀ d ∈ ds, d < base) :
    value base ds < base ^ ds.length := by
  rw [← List.length_reverse]
  apply Nat.ofDigits_lt_base_pow_length hbase
  intro d hd
  exact hds d (List.mem_reverse.mp hd)

/-- Numerals of one length denote different numbers. -/
theorem value_inj {base : ℕ} (hbase : 1 < base) {ds es : List ℕ} (hlength : ds.length = es.length)
    (hds : ∀ d ∈ ds, d < base) (hes : ∀ d ∈ es, d < base) (h : value base ds = value base es) :
    ds = es := by
  apply List.reverse_injective
  apply Nat.ofDigits_inj_of_len_eq hbase _ _ _ h
  · rw [List.length_reverse, List.length_reverse, hlength]
  · intro d hd
    exact hds d (List.mem_reverse.mp hd)
  · intro d hd
    exact hes d (List.mem_reverse.mp hd)

/-- The digit of a number with the given weight. -/
def window (base place n : ℕ) : ℕ := n / base ^ place % base

/-- A digit of a numeral is the window at its place. -/
theorem getElem?_eq_window {base : ℕ} (hbase : 1 < base) {ds : List ℕ} (hds : ∀ d ∈ ds, d < base)
    {i : ℕ} (hi : i < ds.length) :
    ds[i]? = some (window base (ds.length - 1 - i) (value base ds)) := by
  have hsplit : ds = ds.take i ++ ds[i] :: ds.drop (i + 1) := by
    rw [← List.drop_eq_getElem_cons hi, List.take_append_drop]
  have hplace : (ds.drop (i + 1)).length = ds.length - 1 - i := by
    rw [List.length_drop]
    omega
  have hrest : value base (ds.drop (i + 1)) < base ^ (ds.length - 1 - i) := by
    rw [← hplace]
    exact value_lt hbase fun d hd => hds d (List.mem_of_mem_drop hd)
  have hvalue : value base ds = (value base (ds.take i) * base + ds[i]) * base ^ (ds.length - 1 - i)
      + value base (ds.drop (i + 1)) := by
    conv_lhs => rw [hsplit]
    rw [value_append, value_cons, List.length_cons, hplace, Nat.pow_succ]
    ring
  have hpos : 0 < base ^ (ds.length - 1 - i) := Nat.pow_pos (by omega)
  rw [List.getElem?_eq_getElem hi, window, hvalue, Nat.mul_comm (_ + _), Nat.mul_add_div hpos,
    Nat.div_eq_of_lt hrest, Nat.add_zero, Nat.mul_comm, Nat.mul_add_mod,
    Nat.mod_eq_of_lt (hds _ (List.getElem_mem hi))]

/-- The windows of a number, from the highest of the given length down. -/
def windows (base length n : ℕ) : List ℕ :=
  (List.range length).map fun i => window base (length - 1 - i) n

/-- One more place puts its window in front. -/
theorem windows_succ (base length n : ℕ) :
    windows base (length + 1) n = window base length n :: windows base length n := by
  rw [windows, List.range_succ_eq_map, List.map_cons, List.map_map]
  congr 1
  apply List.map_congr_left
  intro i hi
  have hlt := List.mem_range.mp hi
  have hplace : length + 1 - 1 - (i + 1) = length - 1 - i := by omega
  rw [Function.comp_apply, Nat.succ_eq_add_one, hplace]

@[simp] theorem length_windows (base length n : ℕ) : (windows base length n).length = length := by
  rw [windows, List.length_map, List.length_range]

/-- The windows of a number denote it, up to what the length can hold. -/
theorem value_windows (base length n : ℕ) :
    value base (windows base length n) = n % base ^ length := by
  induction length with
  | zero => rw [Nat.pow_zero, Nat.mod_one]; rfl
  | succ length ih =>
    rw [windows_succ, value_cons, length_windows, ih, window, Nat.mod_pow_succ]
    ring

/-- The windows of the number that a numeral denotes are its digits. -/
theorem windows_value {base : ℕ} (hbase : 1 < base) {ds : List ℕ} (hds : ∀ d ∈ ds, d < base) :
    windows base ds.length (value base ds) = ds := by
  apply List.ext_getElem?
  intro i
  by_cases hi : i < ds.length
  · rw [getElem?_eq_window hbase hds hi, windows, List.getElem?_map, List.getElem?_range hi]
    rfl
  · rw [List.getElem?_eq_none (by rw [length_windows]; omega), List.getElem?_eq_none (by omega)]

/-- The low windows of a shifted number are zeros. -/
theorem window_mul_pow {base place k : ℕ} (hbase : 0 < base) (hplace : place < k) (n : ℕ) :
    window base place (n * base ^ k) = 0 := by
  have hsplit : n * base ^ k = n * base ^ (k - place - 1) * base * base ^ place := by
    rw [Nat.mul_assoc, Nat.mul_assoc, ← Nat.pow_succ', ← Nat.pow_add, Nat.succ_eq_add_one]
    congr 2
    omega
  rw [window, hsplit, Nat.mul_div_cancel _ (Nat.pow_pos hbase), Nat.mul_mod_left]

/-- The windows of a shifted number are those of the number, and zeros. -/
theorem windows_mul_pow {base : ℕ} (hbase : 0 < base) (length k n : ℕ) :
    windows base (length + k) (n * base ^ k) = windows base length n ++ List.replicate k 0 := by
  induction length with
  | zero =>
    rw [Nat.zero_add]
    apply List.eq_replicate_iff.mpr
    refine ⟨length_windows _ _ _, ?_⟩
    intro d hd
    obtain ⟨i, hi, rfl⟩ := List.mem_map.mp hd
    have hlt := List.mem_range.mp hi
    exact window_mul_pow hbase (by omega) n
  | succ length ih =>
    rw [Nat.add_right_comm, windows_succ, ih, windows_succ, List.cons_append, window, window,
      Nat.pow_add, Nat.mul_div_mul_right _ _ (Nat.pow_pos hbase)]

/-- Letters that stand for digits, in the order of the digits. -/
structure OrderedAlphabet (α : Type*) [LT α] (base : ℕ) where
  letter : α → Prop
  digit : α → ℕ
  digit_lt : ∀ a, letter a → digit a < base
  lt_iff : ∀ a b, letter a → letter b → (a < b ↔ digit a < digit b)
  digit_inj : ∀ a b, letter a → letter b → digit a = digit b → a = b

namespace OrderedAlphabet

variable {α : Type*} [LT α] {base : ℕ} (A : OrderedAlphabet α base)

/-- Every digit of a word of letters is below the base. -/
theorem lt_of_mem_map {as : List α} (has : ∀ a ∈ as, A.letter a) :
    ∀ d ∈ as.map A.digit, d < base := by
  intro d hd
  obtain ⟨a, ha, rfl⟩ := List.mem_map.mp hd
  exact A.digit_lt a (has a ha)

/-- Words of one length are ordered as the numbers they denote. -/
theorem lt_iff_value_lt (hbase : 1 < base) : ∀ {as bs : List α}, as.length = bs.length →
    (∀ a ∈ as, A.letter a) → (∀ b ∈ bs, A.letter b) →
    (as < bs ↔ value base (as.map A.digit) < value base (bs.map A.digit)) := by
  intro as
  induction as with
  | nil =>
    intro bs hlength _ _
    cases List.length_eq_zero_iff.mp hlength.symm
    simp
  | cons a as ih =>
    intro bs hlength has hbs
    cases bs with
    | nil => cases hlength
    | cons b bs =>
      have hrests : as.length = bs.length := Nat.succ.inj hlength
      have ha := has a List.mem_cons_self
      have hb := hbs b List.mem_cons_self
      have has' : ∀ x ∈ as, A.letter x := fun x hx => has x (List.mem_cons_of_mem _ hx)
      have hbs' : ∀ x ∈ bs, A.letter x := fun x hx => hbs x (List.mem_cons_of_mem _ hx)
      have hleft := value_lt hbase (A.lt_of_mem_map has')
      have hright := value_lt hbase (A.lt_of_mem_map hbs')
      rw [List.length_map] at hleft hright
      rw [List.cons_lt_cons_iff, ih hrests has' hbs', A.lt_iff a b ha hb, List.map_cons,
        List.map_cons, value_cons, value_cons, List.length_map, List.length_map, hrests]
      rw [hrests] at hleft
      -- the rests are below one unit of the first digit
      rcases Nat.lt_trichotomy (A.digit a) (A.digit b) with hlt | heq | hgt
      · have hunit := Nat.mul_le_mul_right (base ^ bs.length) hlt
        rw [Nat.succ_mul] at hunit
        exact iff_of_true (Or.inl hlt) (by omega)
      · rw [A.digit_inj a b ha hb heq]
        simp
      · have hunit := Nat.mul_le_mul_right (base ^ bs.length) hgt
        rw [Nat.succ_mul] at hunit
        apply iff_of_false _ (by omega)
        rintro (hlt | ⟨rfl, -⟩) <;> omega

end OrderedAlphabet

end Positional
