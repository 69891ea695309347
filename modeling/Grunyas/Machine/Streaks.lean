import Mathlib.Algebra.Order.Group.Defs

/-!
# Timed streaks of a sequence of verdicts

A sequence of verdicts is taken at times that do not decrease. Something is held from the end of a
streak of positive verdicts that lasts for one duration until the end of a streak of at least two
negative verdicts that lasts for another one. `held_succ_of_true` and `held_succ_of_false` say what
one more verdict makes of it, in terms of the streak in which the sequence ends.
-/

namespace Machine

variable {T : Type*} (time : ℕ → T) (verdict : ℕ → Bool)

/-- The verdicts between two places, both included, are all the same. -/
def Streak (value : Bool) (first last : ℕ) : Prop :=
  ∀ i, first ≤ i → i ≤ last → verdict i = value

/-- Among the first `n` verdicts, some streak of positive ones lasts for `hold`, and no streak of
negative ones after it lasts for `release`. -/
def Held [Sub T] [LE T] (hold release : T) (n : ℕ) : Prop :=
  ∃ a b, a ≤ b ∧ b < n ∧ Streak verdict true a b ∧ hold ≤ time b - time a ∧
    ¬∃ c d, b < c ∧ c < d ∧ d < n ∧ Streak verdict false c d ∧ release ≤ time d - time c

/-- The streak in which the first `n` verdicts end, and the time at which it began. -/
def EndsIn (value : Bool) (since : T) (n : ℕ) : Prop :=
  ∃ k, k < n ∧ time k = since ∧ (∀ i, k ≤ i → i < n → verdict i = value) ∧
    ∀ j, j + 1 = k → verdict j ≠ value

variable {time verdict} {value : Bool} {n : ℕ}

/-- A streak reaches one place further. -/
theorem EndsIn.succ {since : T} (h : EndsIn time verdict value since n) (hn : verdict n = value) :
    EndsIn time verdict value since (n + 1) := by
  obtain ⟨k, hk, hsince, hstreak, hbefore⟩ := h
  refine ⟨k, by omega, hsince, fun i hki hi => ?_, hbefore⟩
  obtain hi | rfl := Nat.lt_succ_iff_lt_or_eq.mp hi
  · exact hstreak i hki hi
  · exact hn

/-- A new streak begins. -/
theorem EndsIn.begin (hlast : ∀ j, j + 1 = n → verdict j ≠ value) (hn : verdict n = value) :
    EndsIn time verdict value (time n) (n + 1) := by
  refine ⟨n, by omega, rfl, fun i hni hi => ?_, hlast⟩
  obtain rfl : i = n := by omega
  exact hn

/-- A streak that goes on to the next verdict begins no earlier than the one before it ends in. -/
theorem EndsIn.le_of_streak [Preorder T] {since : T} (h : EndsIn time verdict value since n)
    (hmono : ∀ i j, i ≤ j → j ≤ n → time i ≤ time j) {a : ℕ} (ha : a ≤ n)
    (hstreak : Streak verdict value a n) :
    since ≤ time a := by
  obtain ⟨k, hk, rfl, -, hbefore⟩ := h
  refine hmono k a ?_ ha
  by_contra hlt
  obtain ⟨j, rfl⟩ : ∃ j, k = j + 1 := ⟨k - 1, by omega⟩
  exact hbefore j rfl (hstreak j (by omega) (by omega))

section

variable [Sub T] [LE T] {hold release : T}

/-- A positive verdict holds what its streak has held for long enough, and releases nothing. -/
theorem held_succ_of_true (hn : verdict n = true) :
    Held time verdict hold release (n + 1) ↔ Held time verdict hold release n ∨
      ∃ a ≤ n, Streak verdict true a n ∧ hold ≤ time n - time a := by
  constructor
  · rintro ⟨a, b, hab, hb, hstreak, hhold, hkept⟩
    obtain hb | rfl := Nat.lt_succ_iff_lt_or_eq.mp hb
    · refine .inl ⟨a, b, hab, hb, hstreak, hhold, ?_⟩
      rintro ⟨c, d, hbc, hcd, hd, hfree⟩
      exact hkept ⟨c, d, hbc, hcd, by omega, hfree⟩
    · exact .inr ⟨a, hab, hstreak, hhold⟩
  · rintro (⟨a, b, hab, hb, hstreak, hhold, hkept⟩ | ⟨a, ha, hstreak, hhold⟩)
    · refine ⟨a, b, hab, by omega, hstreak, hhold, ?_⟩
      rintro ⟨c, d, hbc, hcd, hd, hfree, hlong⟩
      obtain hd | rfl := Nat.lt_succ_iff_lt_or_eq.mp hd
      · exact hkept ⟨c, d, hbc, hcd, hd, hfree, hlong⟩
      · simp [hfree d hcd.le le_rfl] at hn
    · refine ⟨a, n, ha, by omega, hstreak, hhold, ?_⟩
      rintro ⟨c, d, hnc, hcd, hd, -⟩
      omega

/-- A negative verdict releases what its streak has released for long enough, and holds nothing. -/
theorem held_succ_of_false (hn : verdict n = false) :
    Held time verdict hold release (n + 1) ↔ Held time verdict hold release n ∧
      ¬∃ c < n, Streak verdict false c n ∧ release ≤ time n - time c := by
  constructor
  · rintro ⟨a, b, hab, hb, hstreak, hhold, hkept⟩
    have hbn : b < n := by
      refine (Nat.lt_succ_iff_lt_or_eq.mp hb).resolve_right ?_
      rintro rfl
      simp [hstreak b hab le_rfl] at hn
    refine ⟨⟨a, b, hab, hbn, hstreak, hhold, ?_⟩, ?_⟩
    · rintro ⟨c, d, hbc, hcd, hd, hfree⟩
      exact hkept ⟨c, d, hbc, hcd, by omega, hfree⟩
    · rintro ⟨c, hcn, hfree, hlong⟩
      -- The streak starts after the held one, since the last verdict of that one is positive.
      have hbc : b < c := by
        by_contra hcb
        have hfalse := hfree b (by omega) hbn.le
        rw [hstreak b hab le_rfl] at hfalse
        cases hfalse
      exact hkept ⟨c, n, hbc, hcn, by omega, hfree, hlong⟩
  · rintro ⟨⟨a, b, hab, hb, hstreak, hhold, hkept⟩, hlast⟩
    refine ⟨a, b, hab, by omega, hstreak, hhold, ?_⟩
    rintro ⟨c, d, hbc, hcd, hd, hfree, hlong⟩
    obtain hd | rfl := Nat.lt_succ_iff_lt_or_eq.mp hd
    · exact hkept ⟨c, d, hbc, hcd, hd, hfree, hlong⟩
    · exact hlast ⟨c, hcd, hfree, hlong⟩

/-- Nothing is held before the first verdict. -/
theorem not_held_zero : ¬Held time verdict hold release 0 := by
  rintro ⟨a, b, -, hb, -⟩
  omega

end

/-- A streak that begins with the last verdict is that verdict alone. -/
theorem eq_of_streak (hlast : ∀ j, j + 1 = n → verdict j ≠ value) {a : ℕ} (ha : a ≤ n)
    (hstreak : Streak verdict value a n) : a = n := by
  by_contra hne
  obtain ⟨j, rfl⟩ : ∃ j, n = j + 1 := ⟨n - 1, by omega⟩
  exact hlast j rfl (hstreak j (by omega) (by omega))

/-- A streak that goes on to the next verdict lasts no longer than the one in which the sequence
ends. -/
theorem EndsIn.le_of_lasts [AddCommGroup T] [LinearOrder T] [IsOrderedAddMonoid T]
    {since duration : T} (h : EndsIn time verdict value since n)
    (hmono : ∀ i j, i ≤ j → j ≤ n → time i ≤ time j) {a : ℕ} (ha : a ≤ n)
    (hstreak : Streak verdict value a n) (hlasts : duration ≤ time n - time a) :
    duration ≤ time n - since :=
  hlasts.trans (sub_le_sub_left (h.le_of_streak hmono ha hstreak) _)

/-- The streak in which the sequence ends goes on to the next verdict. -/
theorem EndsIn.exists_streak [Sub T] [LE T] {since duration : T} (h : EndsIn time verdict value since n)
    (hn : verdict n = value) (hlasts : duration ≤ time n - since) :
    ∃ a < n, Streak verdict value a n ∧ duration ≤ time n - time a := by
  obtain ⟨k, hk, rfl, hsame, -⟩ := h
  refine ⟨k, hk, fun i hki hi => ?_, hlasts⟩
  obtain hi | rfl := hi.lt_or_eq
  · exact hsame i hki hi
  · exact hn

/-- Without durations, something is held exactly if one of the last two verdicts is positive. -/
theorem held_zero_iff [AddCommGroup T] [LinearOrder T] [IsOrderedAddMonoid T]
    (hmono : ∀ i j, i ≤ j → j < n → time i ≤ time j) :
    Held time verdict 0 0 n ↔ ∃ j < n, n ≤ j + 2 ∧ verdict j = true := by
  induction n with
  | zero =>
    refine iff_of_false not_held_zero fun hlast => ?_
    obtain ⟨j, hj, -⟩ := hlast
    exact Nat.not_lt_zero j hj
  | succ n ih =>
    cases hn : verdict n with
    | true =>
      refine iff_of_true ((held_succ_of_true hn).mpr (.inr ⟨n, le_rfl, fun i hni hi => ?_, ?_⟩))
        ⟨n, by omega, by omega, hn⟩
      · rw [le_antisymm hi hni, hn]
      · rw [sub_self]
    | false =>
      rw [held_succ_of_false hn, ih fun i j hij hj => hmono i j hij (by omega)]
      constructor
      · intro hheld
        obtain ⟨⟨j, hj, hlast, hpositive⟩, hkept⟩ := hheld
        by_cases hnear : n ≤ j + 1
        · exact ⟨j, by omega, by omega, hpositive⟩
        -- the verdict between is positive, or there are two negative ones
        obtain rfl : n = j + 2 := by omega
        refine ⟨j + 1, by omega, le_rfl, ?_⟩
        by_contra hnegative
        refine hkept ⟨j + 1, by omega, fun i hji hi => ?_, ?_⟩
        · obtain rfl | rfl : i = j + 1 ∨ i = j + 2 := by omega
          · exact Bool.not_eq_true _ ▸ hnegative
          · exact hn
        · exact sub_nonneg.mpr (hmono (j + 1) (j + 2) (by omega) (by omega))
      · intro hlast
        obtain ⟨j, hj, hnear, hpositive⟩ := hlast
        have hne : j ≠ n := by
          intro hsame
          rw [hsame, hn] at hpositive
          cases hpositive
        refine ⟨⟨j, by omega, by omega, hpositive⟩, fun hfree => ?_⟩
        obtain ⟨c, hc, hstreak, -⟩ := hfree
        rw [hstreak j (by omega) (by omega)] at hpositive
        cases hpositive

end Machine
