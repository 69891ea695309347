import Mathlib.Data.List.Basic

/-!
# Reading a text word by word

A reader of a text skips the pieces that carry no meaning, takes a word, and goes on behind it.
What counts as such a piece, where a word ends and where reading goes on are the parameters of a
`Reading`: two scanners of one text differ in nothing else. The loops are recursions on a bound
that the length of the text always suffices for; `skip_of_gap` and `spans_eq` are their equations
without the bound, and `gap_induction` follows the skipping of pieces.
-/

namespace Sql

/-- How a text is read. -/
structure Reading (α : Type*) where
  /-- The length of the piece without meaning in front, zero if there is none. -/
  gap : List α → ℕ
  /-- The length of the word in front, zero if there is none. -/
  word : List α → ℕ
  /-- How far reading goes on where a word is in front. -/
  next : List α → ℕ
  gap_nil : gap [] = 0
  word_nil : word [] = 0
  next_ne_zero : ∀ {s}, word s ≠ 0 → next s ≠ 0

namespace Reading

variable {α : Type*} (reading : Reading α)

/-- Skip the pieces in front, at most so many. -/
def skipLoop : ℕ → List α → List α
  | 0, s => s
  | bound + 1, s => if reading.gap s = 0 then s else skipLoop bound (s.drop (reading.gap s))

/-- The text behind the pieces in front. -/
def skip (s : List α) : List α := reading.skipLoop s.length s

/-- The number of symbols in the pieces in front. -/
def lead (s : List α) : ℕ := s.length - (reading.skip s).length

/-- The words, each with the number of symbols up to its end, at most so many. -/
def spansLoop : ℕ → List α → List (List α × ℕ)
  | 0, _ => []
  | bound + 1, s =>
    let t := reading.skip s
    if reading.word t = 0 then []
    else (t.take (reading.word t), reading.lead s + reading.word t) ::
      (spansLoop bound (t.drop (reading.next t))).map fun span =>
        (span.1, reading.lead s + reading.next t + span.2)

/-- The words of a text, each with the number of symbols up to its end. -/
def spans (s : List α) : List (List α × ℕ) := reading.spansLoop (s.length + 1) s

/-- The words of a text. -/
def words (s : List α) : List (List α) := (reading.spans s).map Prod.fst

/-- The first word of a text, empty if there is none. -/
def firstWord (s : List α) : List α := (reading.skip s).take (reading.word (reading.skip s))

variable {reading} {s : List α}

/-- Where a piece is in front there is a text, and dropping the piece shortens it. -/
theorem length_drop_gap_lt (h : reading.gap s ≠ 0) : (s.drop (reading.gap s)).length < s.length := by
  have hpos : s.length ≠ 0 := by
    intro hnil
    rw [List.length_eq_zero_iff.mp hnil] at h
    exact h reading.gap_nil
  rw [List.length_drop]
  omega

/-- Where a word is in front, reading goes on with a shorter text. -/
theorem length_drop_next_lt (h : reading.word s ≠ 0) : (s.drop (reading.next s)).length < s.length := by
  have hpos : s.length ≠ 0 := by
    intro hnil
    rw [List.length_eq_zero_iff.mp hnil] at h
    exact h reading.word_nil
  have hnext := reading.next_ne_zero h
  rw [List.length_drop]
  omega

/-- The bound is immaterial to the skipping of pieces. -/
theorem skipLoop_eq {bound : ℕ} (h : s.length ≤ bound) : reading.skipLoop bound s = reading.skip s := by
  suffices heq : ∀ first second (s : List α), s.length ≤ first → s.length ≤ second →
      reading.skipLoop first s = reading.skipLoop second s from heq _ _ s h (Nat.le_refl _)
  intro first
  induction first with
  | zero =>
    intro second s hfirst _
    obtain rfl := List.length_eq_zero_iff.mp (Nat.le_zero.mp hfirst)
    cases second with
    | zero => rfl
    | succ second => rw [skipLoop, skipLoop, if_pos reading.gap_nil]
  | succ first ih =>
    intro second s hfirst hsecond
    by_cases hgap : reading.gap s = 0
    · cases second with
      | zero => rw [skipLoop, skipLoop, if_pos hgap]
      | succ second => rw [skipLoop, skipLoop, if_pos hgap, if_pos hgap]
    · have hlt := length_drop_gap_lt hgap
      obtain ⟨second, rfl⟩ := Nat.exists_eq_succ_of_ne_zero (show second ≠ 0 by omega)
      rw [skipLoop, skipLoop, if_neg hgap, if_neg hgap]
      exact ih second _ (by omega) (by omega)

/-- Nothing is skipped where no piece is in front. -/
theorem skip_of_gap_eq_zero (h : reading.gap s = 0) : reading.skip s = s := by
  rw [skip]
  cases s.length with
  | zero => rfl
  | succ n => rw [skipLoop, if_pos h]

/-- Skipping goes on behind the piece in front. -/
theorem skip_of_gap (h : reading.gap s ≠ 0) :
    reading.skip s = reading.skip (s.drop (reading.gap s)) := by
  have hlt := length_drop_gap_lt h
  obtain ⟨n, hn⟩ := Nat.exists_eq_succ_of_ne_zero (Nat.ne_zero_of_lt hlt)
  rw [skip, hn, skipLoop, if_neg h, skipLoop_eq (by omega)]

@[simp] theorem skip_nil : reading.skip [] = [] := rfl

variable (reading) in
/-- Induction along the skipping of pieces. -/
theorem gap_induction {motive : List α → Prop}
    (stop : ∀ s, reading.gap s = 0 → motive s)
    (piece : ∀ s, reading.gap s ≠ 0 → motive (s.drop (reading.gap s)) → motive s)
    (s : List α) : motive s := by
  induction hn : s.length using Nat.strongRecOn generalizing s with
  | _ n ih =>
    by_cases h : reading.gap s = 0
    · exact stop s h
    · exact piece s h (ih _ (hn ▸ length_drop_gap_lt h) _ rfl)

/-- Behind the skipped pieces there is no other. -/
theorem gap_skip (s : List α) : reading.gap (reading.skip s) = 0 := by
  induction s using gap_induction reading with
  | stop s h => rwa [skip_of_gap_eq_zero h]
  | piece s h ih => rwa [skip_of_gap h]

/-- Skipping twice is skipping once. -/
@[simp] theorem skip_skip (s : List α) : reading.skip (reading.skip s) = reading.skip s :=
  skip_of_gap_eq_zero (gap_skip s)

/-- What skipping leaves is the end of the text. -/
theorem skip_suffix (s : List α) : reading.skip s <:+ s := by
  induction s using gap_induction reading with
  | stop s h =>
    rewrite [skip_of_gap_eq_zero h]
    exact List.suffix_refl s
  | piece s h ih =>
    rw [skip_of_gap h]
    exact ih.trans (List.drop_suffix _ _)

variable (reading)

theorem length_skip_le (s : List α) : (reading.skip s).length ≤ s.length :=
  (skip_suffix s).length_le

/-- Skipping drops the pieces in front. -/
theorem drop_lead (s : List α) : s.drop (reading.lead s) = reading.skip s :=
  (List.suffix_iff_eq_drop.mp (skip_suffix s)).symm

theorem lead_le (s : List α) : reading.lead s ≤ s.length := Nat.sub_le _ _

/-- The pieces in front and what follows them make up the text. -/
theorem lead_add_length_skip (s : List α) : reading.lead s + (reading.skip s).length = s.length :=
  Nat.sub_add_cancel (reading.length_skip_le s)

variable {reading}

/-- The piece in front, where it lies within the text, and the pieces behind it. -/
theorem lead_of_gap (h : reading.gap s ≠ 0) (hle : reading.gap s ≤ s.length) :
    reading.lead s = reading.gap s + reading.lead (s.drop (reading.gap s)) := by
  have hlen := reading.length_skip_le (s.drop (reading.gap s))
  rw [List.length_drop] at hlen
  rw [lead, lead, skip_of_gap h, List.length_drop]
  omega

/-- The bound is immaterial to the reading of words. -/
theorem spansLoop_eq {bound : ℕ} (h : s.length < bound) :
    reading.spansLoop bound s = reading.spans s := by
  suffices heq : ∀ first second (s : List α), s.length < first → s.length < second →
      reading.spansLoop first s = reading.spansLoop second s from heq _ _ s h (Nat.lt_succ_self _)
  intro first
  induction first with
  | zero => exact fun _ _ h => absurd h (Nat.not_lt_zero _)
  | succ first ih =>
    intro second s hfirst hsecond
    obtain ⟨second, rfl⟩ := Nat.exists_eq_succ_of_ne_zero (Nat.ne_zero_of_lt hsecond)
    rw [spansLoop, spansLoop]
    by_cases hword : reading.word (reading.skip s) = 0
    · rw [if_pos hword, if_pos hword]
    · have hlt := length_drop_next_lt hword
      have hle := reading.length_skip_le s
      rw [if_neg hword, if_neg hword, ih second _ (by omega) (by omega)]

/-- The words of a text: the one behind the pieces in front, and those of the rest. -/
theorem spans_eq (s : List α) : reading.spans s =
    if reading.word (reading.skip s) = 0 then []
    else (reading.firstWord s, reading.lead s + reading.word (reading.skip s)) ::
      (reading.spans ((reading.skip s).drop (reading.next (reading.skip s)))).map fun span =>
        (span.1, reading.lead s + reading.next (reading.skip s) + span.2) := by
  by_cases hword : reading.word (reading.skip s) = 0
  · rw [spans, spansLoop, if_pos hword, if_pos hword]
  · have hlt := length_drop_next_lt hword
    have hle := reading.length_skip_le s
    rw [spans, spansLoop, if_neg hword, if_neg hword, spansLoop_eq (by omega)]
    rfl

/-- The words of a text without their ends. -/
theorem words_eq (s : List α) : reading.words s =
    if reading.word (reading.skip s) = 0 then []
    else reading.firstWord s ::
      reading.words ((reading.skip s).drop (reading.next (reading.skip s))) := by
  rw [words, spans_eq]
  split_ifs
  · rfl
  · rw [List.map_cons, List.map_map]
    rfl


/-- Skip the pieces that two readings take alike. -/
def meet (first second : Reading α) : Reading α where
  gap s := if first.gap s = second.gap s then first.gap s else 0
  word := first.word
  next := first.next
  gap_nil := by rw [first.gap_nil, ite_self]
  word_nil := first.word_nil
  next_ne_zero := first.next_ne_zero

section Meet

variable {first second : Reading α}

/-- Both readings take a piece that is skipped in common. -/
theorem gap_of_meet (h : (meet first second).gap s ≠ 0) :
    first.gap s = (meet first second).gap s ∧ second.gap s = (meet first second).gap s := by
  by_cases heq : first.gap s = second.gap s
  · have hgap : (meet first second).gap s = first.gap s := if_pos heq
    exact ⟨hgap.symm, (hgap.trans heq).symm⟩
  · exact absurd (if_neg heq) h

/-- Each reading skips the common pieces first. -/
theorem skip_meet (s : List α) : first.skip ((meet first second).skip s) = first.skip s ∧
    second.skip ((meet first second).skip s) = second.skip s := by
  induction s using gap_induction (meet first second) with
  | stop s h =>
    rw [skip_of_gap_eq_zero h]
    exact ⟨rfl, rfl⟩
  | piece s h ih =>
    obtain ⟨hfirst, hsecond⟩ := gap_of_meet h
    rw [skip_of_gap h, skip_of_gap (hfirst ▸ h : first.gap s ≠ 0),
      skip_of_gap (hsecond ▸ h : second.gap s ≠ 0), hfirst, hsecond]
    exact ih

/-- Behind the common pieces the readings part, or neither takes another piece. -/
theorem gap_meet_skip (s : List α)
    (h : first.gap ((meet first second).skip s) = second.gap ((meet first second).skip s)) :
    first.gap ((meet first second).skip s) = 0 := by
  have hstop : (meet first second).gap ((meet first second).skip s) = 0 := gap_skip s
  exact (if_pos h).symm.trans hstop

end Meet

/-- A text cut behind the pieces in front is read up to the same place. -/
theorem skip_take (hcut : ∀ (s : List α) m, reading.gap s ≤ m → reading.gap (s.take m) = reading.gap s)
    {m : ℕ} (h : reading.lead s ≤ m) :
    reading.skip (s.take m) = (reading.skip s).take (m - reading.lead s) := by
  induction s using gap_induction reading generalizing m with
  | stop s hgap =>
    have hlead : reading.lead s = 0 := by rw [lead, skip_of_gap_eq_zero hgap, Nat.sub_self]
    have htake : reading.gap (s.take m) = 0 := (hcut s m (hgap ▸ Nat.zero_le m)).trans hgap
    rw [skip_of_gap_eq_zero hgap, skip_of_gap_eq_zero htake, hlead, Nat.sub_zero]
  | piece s hgap ih =>
    by_cases hlong : s.length ≤ m
    · have hrest := reading.lead_add_length_skip s
      rw [List.take_of_length_le hlong, List.take_of_length_le (by omega)]
    · have hle : reading.gap s ≤ s.length := by
        by_contra hover
        have hnil : s.drop (reading.gap s) = [] := List.drop_eq_nil_of_le (by omega)
        rw [lead, skip_of_gap hgap, hnil, skip_nil, List.length_nil] at h
        omega
      rw [lead_of_gap hgap hle] at h ⊢
      have htake : reading.gap (s.take m) = reading.gap s := hcut s m (by omega)
      rw [skip_of_gap (htake ▸ hgap), skip_of_gap hgap, htake, List.drop_take, ih (by omega),
        Nat.sub_sub]

/-- The pieces in front are then as long as in the whole text. -/
theorem lead_take (hcut : ∀ (s : List α) m, reading.gap s ≤ m → reading.gap (s.take m) = reading.gap s)
    {m : ℕ} (h : reading.lead s ≤ m) : reading.lead (s.take m) = reading.lead s := by
  have hrest := reading.lead_add_length_skip s
  rw [lead, skip_take hcut h, List.length_take, List.length_take]
  omega

/-- A text cut within the pieces in front is read as if the piece that is cut stood first. -/
theorem skip_take_of_lt
    (hcut : ∀ (s : List α) m, reading.gap s ≤ m → reading.gap (s.take m) = reading.gap s)
    {m : ℕ} (h : m < reading.lead s) :
    ∃ t j, j < reading.gap t ∧ reading.skip (s.take m) = reading.skip (t.take j) := by
  induction s using gap_induction reading generalizing m with
  | stop s hgap =>
    rw [lead, skip_of_gap_eq_zero hgap, Nat.sub_self] at h
    exact absurd h (Nat.not_lt_zero m)
  | piece s hgap ih =>
    by_cases hpiece : m < reading.gap s
    · exact ⟨s, m, hpiece, rfl⟩
    · have hle := reading.lead_le s
      rw [lead_of_gap hgap (by omega)] at h
      obtain ⟨t, j, hj, heq⟩ := ih (m := m - reading.gap s) (by omega)
      have htake : reading.gap (s.take m) = reading.gap s := hcut s m (by omega)
      refine ⟨t, j, hj, ?_⟩
      rw [skip_of_gap (htake ▸ hgap), htake, List.drop_take, heq]

end Reading

end Sql
