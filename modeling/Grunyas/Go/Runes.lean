import Grunyas.Go.Strings
import Mathlib.Data.List.DropRight

/-!
# Texts rune by rune

What a `range` loop sees of a byte string that need not be valid UTF-8. A nonempty text starts
with a byte below 0x80, with the encoding of a scalar value in several bytes, or with one byte
that does not decode (`decodeRune_cons`). `rune_induction` follows the loop; searching, trimming
and lower-casing are then list functions of the runes, and ASCII bytes stand for themselves.
-/

namespace GoText

/-- A byte is built from its own value. -/
theorem ofNat_eq_of_toNat (b : UInt8) {n : ℕ} (h : n = b.toNat) : UInt8.ofNat n = b := by
  rw [h, UInt8.ofNat_toNat]

/-- The bytes accepted behind a first byte continue a rune. -/
theorem acceptsSecond_bounds {first : ℕ} {b : UInt8} (h : acceptsSecond first b = true) :
    isContinuation b = true ∧ (first = 0xE0 → 0xA0 ≤ b.toNat) ∧ (first = 0xF0 → 0x90 ≤ b.toNat) ∧
      (first = 0xED → b.toNat ≤ 0x9F) ∧ (first = 0xF4 → b.toNat ≤ 0x8F) := by
  simp only [acceptsSecond, isContinuation, Bool.and_eq_true, decide_eq_true_eq] at h ⊢
  split_ifs at h <;> omega

/-- The first rune of a nonempty text: a byte below 0x80, the encoding of a scalar value in
several bytes, or one byte that does not decode. -/
theorem decodeRune_cons (b : UInt8) (rest : Text) :
    (b.toNat < 0x80 ∧ decodeRune (b :: rest) = (b.toNat, 1)) ∨
    (0x80 ≤ b.toNat ∧ decodeRune (b :: rest) = (runeError, 1)) ∨
    ∃ r cont tail, rest = cont ++ tail ∧ cont ≠ [] ∧ (∀ c ∈ cont, isContinuation c = true) ∧
      IsScalar r ∧ 0x80 ≤ r ∧ encodeRune r = b :: cont := by
  by_cases hascii : b.toNat < 0x80
  · exact .inl ⟨hascii, by simp [decodeRune, hascii]⟩
  right
  by_cases hlead : b.toNat < 0xC2 ∨ 0xF4 < b.toNat
  · exact .inl ⟨by omega, by simp [decodeRune, hascii, hlead]⟩
  rcases rest with _ | ⟨b₁, rest⟩
  · exact .inl ⟨by omega, by simp [decodeRune, hascii, hlead]⟩
  by_cases hsecond : acceptsSecond b.toNat b₁ = true
  swap
  · exact .inl ⟨by omega, by simp [decodeRune, hascii, hlead, hsecond]⟩
  obtain ⟨hcont, hE0, hF0, hED, hF4⟩ := acceptsSecond_bounds hsecond
  have hb₁ := hcont
  simp only [isContinuation, Bool.and_eq_true, decide_eq_true_eq] at hb₁
  by_cases htwo : b.toNat < 0xE0
  · refine .inr ⟨b.toNat % 32 * 64 + b₁.toNat % 64, [b₁], rest, rfl, by simp, by simpa using hcont,
      .inl (by omega), by omega, ?_⟩
    rw [encodeRune, if_neg (by omega), if_pos (by omega), ofNat_eq_of_toNat b (by omega),
      ofNat_eq_of_toNat b₁ (by omega)]
  rcases rest with _ | ⟨b₂, rest⟩
  · exact .inl ⟨by omega, by simp [decodeRune, hascii, hlead, hsecond, htwo]⟩
  by_cases hthird : isContinuation b₂ = true
  swap
  · exact .inl ⟨by omega, by simp [decodeRune, hascii, hlead, hsecond, htwo, hthird]⟩
  have hb₂ := hthird
  simp only [isContinuation, Bool.and_eq_true, decide_eq_true_eq] at hb₂
  by_cases hthree : b.toNat < 0xF0
  · refine .inr ⟨b.toNat % 16 * 4096 + b₁.toNat % 64 * 64 + b₂.toNat % 64, [b₁, b₂], rest, rfl,
      by simp, by simpa using ⟨hcont, hthird⟩, ?_, by omega, ?_⟩
    · unfold IsScalar
      omega
    · rw [encodeRune, if_neg (by omega), if_neg (by omega), if_neg (by omega), if_pos (by omega),
        ofNat_eq_of_toNat b (by omega), ofNat_eq_of_toNat b₁ (by omega),
        ofNat_eq_of_toNat b₂ (by omega)]
  rcases rest with _ | ⟨b₃, rest⟩
  · exact .inl ⟨by omega, by simp [decodeRune, hascii, hlead, hsecond, htwo, hthird, hthree]⟩
  by_cases hfourth : isContinuation b₃ = true
  swap
  · exact .inl ⟨by omega, by simp [decodeRune, hascii, hlead, hsecond, htwo, hthird, hthree, hfourth]⟩
  have hb₃ := hfourth
  simp only [isContinuation, Bool.and_eq_true, decide_eq_true_eq] at hb₃
  refine .inr ⟨b.toNat % 8 * 262144 + b₁.toNat % 64 * 4096 + b₂.toNat % 64 * 64 + b₃.toNat % 64,
    [b₁, b₂, b₃], rest, rfl, by simp, by simpa using ⟨hcont, hthird, hfourth⟩, ?_, by omega, ?_⟩
  · exact .inr (by omega)
  · rw [encodeRune, if_neg (by omega), if_neg (by omega), if_neg (by omega), if_neg (by omega),
      ofNat_eq_of_toNat b (by omega), ofNat_eq_of_toNat b₁ (by omega),
      ofNat_eq_of_toNat b₂ (by omega), ofNat_eq_of_toNat b₃ (by omega)]


/-- What decodes to a rune other than the replacement character does so whatever follows. -/
theorem decodeRune_append_of_ne {s : Text} {r n : ℕ} (hd : decodeRune s = (r, n))
    (hr : r ≠ runeError) (t : Text) : decodeRune (s ++ t) = (r, n) := by
  cases s with
  | nil => exact absurd (congrArg Prod.fst hd).symm hr
  | cons b rest =>
    obtain ⟨hascii, -⟩ | ⟨-, herr⟩ | ⟨r', cont, tail, rfl, -, -, hscalar, -, he⟩ := decodeRune_cons b rest
    · rw [← hd]
      simp [decodeRune, hascii]
    · rw [herr] at hd
      exact absurd (congrArg Prod.fst hd).symm hr
    · rw [← List.cons_append, ← he] at hd ⊢
      rw [decodeRune_encodeRune hscalar] at hd
      rw [List.append_assoc, decodeRune_encodeRune hscalar, hd]

/-- A first rune does not depend on how much of the text behind it is there. -/
theorem decodeRune_of_prefix {head rest rest' : Text} {r : ℕ} (hne : head ≠ [])
    (hd : decodeRune (head ++ rest) = (r, head.length)) (hrest : rest' <+: rest) :
    decodeRune (head ++ rest') = (r, head.length) := by
  obtain ⟨b, head, rfl⟩ := List.exists_cons_of_ne_nil hne
  obtain ⟨more, rfl⟩ := hrest
  rw [List.cons_append] at hd ⊢
  obtain ⟨hascii, h⟩ | ⟨hhigh, h⟩ | ⟨r', cont, tail, htail, -, -, hscalar, -, he⟩ :=
    decodeRune_cons b (head ++ (rest' ++ more))
  · rw [← hd]
    simp [decodeRune, hascii]
  · -- were the shorter text to decode, so would the longer one
    rw [hd] at h
    obtain rfl : head = [] := by simpa using congrArg Prod.snd h
    obtain ⟨hascii, -⟩ | ⟨-, h'⟩ | ⟨r', cont, tail, htail, hcont, -, hscalar, -, he⟩ :=
      decodeRune_cons b rest'
    · omega
    · rw [List.nil_append, h', ← h]
    · have hwhole := decodeRune_encodeRune hscalar (tail ++ more)
      rw [he, List.cons_append, ← List.append_assoc, ← htail, ← List.nil_append (rest' ++ more), hd] at hwhole
      have hlen := congrArg Prod.snd hwhole
      simp [hcont] at hlen
  · have hwhole := decodeRune_encodeRune hscalar tail
    rw [he, List.cons_append, ← htail, hd] at hwhole
    obtain ⟨rfl, hlen⟩ := Prod.mk.inj hwhole
    obtain ⟨rfl, -⟩ := List.append_inj htail (by simpa using hlen)
    rw [← List.cons_append, ← he, decodeRune_encodeRune hscalar]

/-- A nonempty text is the bytes of its first rune and a rest. -/
theorem exists_rune {s : Text} (hs : s ≠ []) :
    ∃ head rest r, head ≠ [] ∧ s = head ++ rest ∧ decodeRune s = (r, head.length) := by
  obtain ⟨b, s, rfl⟩ := List.exists_cons_of_ne_nil hs
  obtain ⟨-, h⟩ | ⟨-, h⟩ | ⟨r, cont, tail, rfl, -, -, hscalar, -, he⟩ := decodeRune_cons b s
  · exact ⟨[b], s, _, by simp, rfl, h⟩
  · exact ⟨[b], s, _, by simp, rfl, h⟩
  · refine ⟨b :: cont, tail, r, by simp, rfl, ?_⟩
    rw [← List.cons_append, ← he, decodeRune_encodeRune hscalar]

/-- The first rune lies within the text. -/
theorem decodeRune_width_le (s : Text) : (decodeRune s).2 ≤ s.length := by
  by_cases hs : s = []
  · rw [hs]
    exact Nat.le_refl 0
  · obtain ⟨head, rest, r, -, rfl, hd⟩ := exists_rune hs
    rw [hd, List.length_append]
    exact Nat.le_add_right _ _

/-- Induction along a `range` loop over the text. -/
theorem rune_induction {motive : Text → Prop} (nil : motive [])
    (rune : ∀ head rest r, head ≠ [] → decodeRune (head ++ rest) = (r, head.length) →
      motive rest → motive (head ++ rest)) (s : Text) : motive s := by
  induction hn : s.length using Nat.strong_induction_on generalizing s with
  | _ n ih =>
    by_cases hs : s = []
    · rw [hs]
      exact nil
    · obtain ⟨head, rest, r, hne, rfl, hd⟩ := exists_rune hs
      have hpos := List.length_pos_of_ne_nil hne
      rw [List.length_append] at hn
      exact rune head rest r hne hd (ih rest.length (by omega) rest rfl)

/-- The bytes of a first rune: one below 0x80, one that does not decode, or the encoding of a scalar
value in several bytes. -/
theorem rune_cases {head rest : Text} {r : ℕ} (hne : head ≠ [])
    (hd : decodeRune (head ++ rest) = (r, head.length)) :
    (∃ b, head = [b] ∧ b.toNat < 0x80 ∧ r = b.toNat) ∨
    (∃ b, head = [b] ∧ 0x80 ≤ b.toNat ∧ r = runeError) ∨
    ∃ b cont, head = b :: cont ∧ 0x80 ≤ b.toNat ∧ (∀ c ∈ cont, isContinuation c = true) ∧
      IsScalar r ∧ 0x80 ≤ r ∧ encodeRune r = head := by
  obtain ⟨b, head, rfl⟩ := List.exists_cons_of_ne_nil hne
  rw [List.cons_append] at hd
  have hone {r' : ℕ} (h : decodeRune (b :: (head ++ rest)) = (r', 1)) : head = [] ∧ r = r' := by
    rw [hd] at h
    exact ⟨by simpa using congrArg Prod.snd h, congrArg Prod.fst h⟩
  obtain ⟨hascii, h⟩ | ⟨hhigh, h⟩ | ⟨r', cont, tail, htail, hcont, hcontinues, hscalar, hr, he⟩ :=
    decodeRune_cons b (head ++ rest)
  · obtain ⟨rfl, rfl⟩ := hone h
    exact .inl ⟨b, rfl, hascii, rfl⟩
  · obtain ⟨rfl, rfl⟩ := hone h
    exact .inr (.inl ⟨b, rfl, hhigh, rfl⟩)
  · have hwhole := decodeRune_encodeRune hscalar tail
    rw [he, List.cons_append, ← htail] at hwhole
    have hhigh : 0x80 ≤ b.toNat := by
      by_contra hlow
      have hbyte : decodeRune (b :: (head ++ rest)) = (b.toNat, 1) := by
        simp [decodeRune, Nat.lt_of_not_le hlow]
      rw [hwhole] at hbyte
      exact hcont (by simpa using congrArg Prod.snd hbyte)
    rw [hd] at hwhole
    obtain ⟨rfl, hlen⟩ := Prod.mk.inj hwhole
    obtain ⟨rfl, -⟩ := List.append_inj htail (by simpa using hlen)
    exact .inr (.inr ⟨b, head, rfl, hhigh, hcontinues, hscalar, hr, he⟩)

/-- The replacement character, or the rune whose encoding the bytes are. -/
theorem eq_runeError_or_encodeRune {head rest : Text} {r : ℕ} (hne : head ≠ [])
    (hd : decodeRune (head ++ rest) = (r, head.length)) :
    r = runeError ∨ IsScalar r ∧ head = encodeRune r := by
  obtain ⟨b, rfl, hb, rfl⟩ | ⟨b, -, -, h⟩ | ⟨b, cont, -, -, -, hscalar, -, he⟩ := rune_cases hne hd
  · exact .inr ⟨.inl (by omega), by rw [encodeRune, if_pos hb, UInt8.ofNat_toNat]⟩
  · exact .inl h
  · exact .inr ⟨hscalar, he.symm⟩

/-- Every decoded rune is a scalar value. -/
theorem isScalar_of_decodeRune {head rest : Text} {r : ℕ} (hne : head ≠ [])
    (hd : decodeRune (head ++ rest) = (r, head.length)) : IsScalar r := by
  obtain rfl | ⟨h, -⟩ := eq_runeError_or_encodeRune hne hd
  · exact .inr (by decide)
  · exact h

@[simp] theorem runes_nil : runes [] = [] := rfl

section Rune

variable {head rest : Text} {r : ℕ}

/-- The runes of a text begin with the first. -/
theorem runes_rune (hne : head ≠ []) (hd : decodeRune (head ++ rest) = (r, head.length)) :
    runes (head ++ rest) = r :: runes rest := by
  obtain ⟨b, head, rfl⟩ := List.exists_cons_of_ne_nil hne
  rw [List.cons_append] at hd ⊢
  rw [runes, runesFrom, hd, List.length_cons, Nat.add_sub_cancel, runesFrom_skip, runes]

/-- A search for a rune that skips some bytes starts behind them. -/
theorem indexFuncFrom_skip (p : ℕ → Bool) (pos : ℕ) (skipped s : Text) :
    indexFuncFrom p pos skipped.length (skipped ++ s) =
      indexFuncFrom p (pos + skipped.length) 0 s := by
  induction skipped generalizing pos with
  | nil => rfl
  | cons b skipped ih =>
    rw [List.length_cons, List.cons_append, indexFuncFrom, ih]
    congr 1
    omega

/-- A search counts from where it starts. -/
theorem indexFuncFrom_eq (p : ℕ → Bool) (pos skip : ℕ) (s : Text) :
    indexFuncFrom p pos skip s = (indexFuncFrom p 0 skip s).map (· + pos) := by
  induction s generalizing pos skip with
  | nil => cases skip <;> rfl
  | cons b s ih =>
    have hadd : ∀ found : Option ℕ,
        (found.map (· + (0 + 1))).map (· + pos) = found.map (· + (pos + 1)) := by
      intro found
      rw [Option.map_map]
      congr 1
      funext n
      simp only [Function.comp_apply]
      omega
    cases skip with
    | succ skip => rw [indexFuncFrom, indexFuncFrom, ih (pos + 1), ih (0 + 1), hadd]
    | zero =>
      rw [indexFuncFrom, indexFuncFrom]
      split_ifs
      · simp
      · rw [ih (pos + 1), ih (0 + 1), hadd]

/-- A search for a rune looks at the first one, then behind it. -/
theorem indexFunc_rune (p : ℕ → Bool) (hne : head ≠ [])
    (hd : decodeRune (head ++ rest) = (r, head.length)) :
    indexFunc p (head ++ rest) =
      if p r then some 0 else (indexFunc p rest).map (· + head.length) := by
  obtain ⟨b, head, rfl⟩ := List.exists_cons_of_ne_nil hne
  rw [List.cons_append] at hd ⊢
  rw [indexFunc, indexFuncFrom, hd, List.length_cons, Nat.add_sub_cancel, indexFuncFrom_skip,
    indexFuncFrom_eq, indexFunc]
  simp only [Nat.zero_add, Nat.add_comm 1]

end Rune

/-- The number of bytes up to the end of the first occurrence of a substring, or of all bytes. -/
def bytesThrough (sub s : Text) : ℕ := ((index sub s).map (· + sub.length)).getD s.length

/-- Up to the next occurrence there is a byte, if there is any. -/
theorem bytesThrough_ne_zero {sub s : Text} (hsub : sub ≠ []) (hs : s ≠ []) :
    bytesThrough sub s ≠ 0 := by
  have hpos := List.length_pos_of_ne_nil hsub
  rw [bytesThrough]
  cases index sub s with
  | none => exact Nat.ne_of_gt (List.length_pos_of_ne_nil hs)
  | some i => exact Nat.ne_of_gt (Nat.lt_of_lt_of_le hpos (Nat.le_add_left _ i))

/-- The number of bytes before the first rune that satisfies the predicate, or of all bytes. -/
def bytesBefore (p : ℕ → Bool) (s : Text) : ℕ := (indexFunc p s).getD s.length

@[simp] theorem bytesBefore_nil (p : ℕ → Bool) : bytesBefore p [] = 0 := rfl

/-- The bytes before a rune, from the first rune on. -/
theorem bytesBefore_rune (p : ℕ → Bool) {head rest : Text} {r : ℕ} (hne : head ≠ [])
    (hd : decodeRune (head ++ rest) = (r, head.length)) :
    bytesBefore p (head ++ rest) = if p r then 0 else head.length + bytesBefore p rest := by
  rw [bytesBefore, indexFunc_rune p hne hd]
  split_ifs
  · rfl
  · cases hindex : indexFunc p rest with
    | none => simp [bytesBefore, hindex]
    | some i => simp [bytesBefore, hindex, Nat.add_comm]

theorem bytesBefore_le (p : ℕ → Bool) (s : Text) : bytesBefore p s ≤ s.length := by
  induction s using rune_induction with
  | nil => exact Nat.le_refl 0
  | rune head rest r hne hd ih =>
    rw [bytesBefore_rune p hne hd, List.length_append]
    split_ifs <;> omega

/-- The rune behind the bytes before a rune is that rune. -/
theorem decodeRune_drop_bytesBefore {p : ℕ → Bool} {s : Text} (h : s.drop (bytesBefore p s) ≠ []) :
    p (decodeRune (s.drop (bytesBefore p s))).1 = true := by
  induction s using rune_induction with
  | nil => simp at h
  | rune head rest r hne hd ih =>
    rw [bytesBefore_rune p hne hd] at h ⊢
    split_ifs at h ⊢ with hp
    · rwa [List.drop_zero, hd]
    · rw [List.drop_length_add_append] at h ⊢
      exact ih h

/-- The bytes before a rune decode to the runes before it. -/
theorem runes_take_bytesBefore (p : ℕ → Bool) (s : Text) :
    runes (s.take (bytesBefore p s)) = (runes s).takeWhile fun r => !p r := by
  induction s using rune_induction with
  | nil => rfl
  | rune head rest r hne hd ih =>
    rw [bytesBefore_rune p hne hd, runes_rune hne hd, List.takeWhile_cons]
    cases hp : p r with
    | true => rfl
    | false =>
      have hfront := List.take_prefix (bytesBefore p rest) rest
      have hd' := decodeRune_of_prefix hne hd hfront
      rw [if_neg Bool.false_ne_true, List.take_length_add_append, runes_rune hne hd', ih]
      rfl

/-- The bytes before a rune go on behind a text that decodes and has no such rune. -/
theorem bytesBefore_append {p : ℕ → Bool} {s : Text} (hs : runeError ∉ runes s)
    (h : ∀ r ∈ runes s, p r = false) (t : Text) :
    bytesBefore p (s ++ t) = s.length + bytesBefore p t := by
  induction s using rune_induction with
  | nil => simp
  | rune head rest r hne hd ih =>
    rw [runes_rune hne hd] at hs h
    rw [List.mem_cons, not_or] at hs
    rw [List.forall_mem_cons] at h
    have hd' := decodeRune_append_of_ne hd (Ne.symm hs.1) t
    rw [List.append_assoc] at hd' ⊢
    rw [bytesBefore_rune p hne hd', h.1, if_neg Bool.false_ne_true, ih hs.2 h.2, List.length_append,
      Nat.add_assoc]

/-- A text of no such rune has all its bytes before it. -/
theorem bytesBefore_eq_length {p : ℕ → Bool} {s : Text} (h : ∀ r ∈ runes s, p r = false) :
    bytesBefore p s = s.length := by
  induction s using rune_induction with
  | nil => rfl
  | rune head rest r hne hd ih =>
    rw [runes_rune hne hd, List.forall_mem_cons] at h
    rw [bytesBefore_rune p hne hd, h.1, if_neg Bool.false_ne_true, ih h.2, List.length_append]

/-- Only the empty text has no runes. -/
theorem runes_eq_nil_iff {s : Text} : runes s = [] ↔ s = [] := by
  cases s with
  | nil => simp
  | cons b s => simp [runes, runesFrom]

/-- The runes of a text that decodes are the first runes of every text it begins. -/
theorem runes_append_of_not_mem {s : Text} (h : runeError ∉ runes s) (t : Text) :
    runes (s ++ t) = runes s ++ runes t := by
  induction s using rune_induction with
  | nil => rfl
  | rune head rest r hne hd ih =>
    rw [runes_rune hne hd, List.mem_cons, not_or] at h
    have hd' := decodeRune_append_of_ne hd (Ne.symm h.1) t
    rw [List.append_assoc] at hd' ⊢
    rw [runes_rune hne hd', runes_rune hne hd, ih h.2, List.cons_append]

/-- A text has no more runes than bytes. -/
theorem length_runes_le (s : Text) : (runes s).length ≤ s.length := by
  induction s using rune_induction with
  | nil => exact Nat.le_refl 0
  | rune head rest r hne hd ih =>
    have hpos := List.length_pos_of_ne_nil hne
    rw [runes_rune hne hd, List.length_cons, List.length_append]
    omega

/-- Every rune of a text is a scalar value. -/
theorem isScalar_runes {s : Text} : ∀ r ∈ runes s, IsScalar r := by
  induction s using rune_induction with
  | nil => exact List.forall_mem_nil _
  | rune head rest r hne hd ih =>
    rw [runes_rune hne hd]
    exact List.forall_mem_cons.mpr ⟨isScalar_of_decodeRune hne hd, ih⟩

/-- The lower case of a rune above U+007F that has one. -/
theorem lowerRune_cases (r : ℕ) :
    (r < 0x80 ∧ lowerRune r < 0x80) ∨ lowerRune r = r ∨
      0x80 ≤ r ∧ ∃ run ∈ lowerRuns, run.lists r = true ∧ lowerRune r = (r + run.shift).toNat := by
  unfold lowerRune
  split_ifs with hascii hupper
  · exact .inl ⟨hascii, by omega⟩
  · exact .inr (.inl rfl)
  · cases hfind : lowerRuns.find? (·.lists r) with
    | none => exact .inr (.inl rfl)
    | some run =>
      exact .inr (.inr ⟨by omega, run, List.mem_of_find?_eq_some hfind,
        by simpa using List.find?_some hfind, rfl⟩)

/-- What a run of the table lists lies between its ends. -/
theorem CaseRun.bounds {run : CaseRun} {r : ℕ} (h : run.lists r = true) :
    run.low ≤ r ∧ r ≤ run.high := by
  simp only [CaseRun.lists, Bool.and_eq_true, decide_eq_true_eq] at h
  exact h.1

/-- The lower-case forms in the table are scalar values and none of them is white space. -/
theorem lowerRuns_forms : ∀ run ∈ lowerRuns, 0 ≤ run.low + run.shift ∧
    (run.high + run.shift < 0xD800 ∨
      0xE000 ≤ run.low + run.shift ∧ run.high + run.shift ≤ 0x10FFFF) ∧
    ∀ space ∈ spaceRunes, space < run.low + run.shift ∨ run.high + run.shift < space := by
  decide +kernel

/-- Above U+007F only the dotted capital I and the Kelvin sign have an ASCII letter for their lower
case. -/
theorem lowerRune_of_high {r : ℕ} (h : 0x80 ≤ r) :
    0x80 ≤ lowerRune r ∨ lowerRune r = 0x69 ∨ lowerRune r = 0x6B := by
  have hruns : lowerRuns.all (fun run => 0x80 ≤ run.low + run.shift ∨
      (run.low = run.high ∧ (run.low + run.shift = 0x69 ∨ run.low + run.shift = 0x6B))) = true := by
    decide
  obtain ⟨hlt, -⟩ | heq | ⟨-, run, hrun, hlists, heq⟩ := lowerRune_cases r
  · omega
  · exact .inl (by omega)
  · have hform := of_decide_eq_true (List.all_eq_true.mp hruns run hrun)
    obtain ⟨hlow, hhigh⟩ := CaseRun.bounds hlists
    omega

/-- Lower-casing keeps scalar values. -/
theorem isScalar_lowerRune {r : ℕ} (h : IsScalar r) : IsScalar (lowerRune r) := by
  obtain ⟨-, hlt⟩ | heq | ⟨-, run, hrun, hlists, heq⟩ := lowerRune_cases r
  · exact .inl (by omega)
  · rwa [heq]
  · obtain ⟨hpos, hrange, -⟩ := lowerRuns_forms run hrun
    obtain ⟨hlow, hhigh⟩ := CaseRun.bounds hlists
    rw [heq]
    unfold IsScalar
    omega

/-- Lower-casing neither makes nor removes white space. -/
theorem isSpace_lowerRune (r : ℕ) : isSpace (lowerRune r) = isSpace r := by
  have hascii : ∀ r < 0x80, isSpace (lowerRune r) = isSpace r := by
    intro r hr
    rw [lowerRune, if_pos hr]
    split_ifs with hupper
    · simp only [isSpace, spaceRunes, List.mem_cons, List.not_mem_nil, or_false, decide_eq_decide]
      omega
    · rfl
  by_cases hr : isSpace r = true
  · rw [lowerRune_of_isSpace hr]
  · obtain ⟨hlt, -⟩ | heq | ⟨-, run, hrun, hlists, heq⟩ := lowerRune_cases r
    · exact hascii r hlt
    · rw [heq]
    · obtain ⟨hpos, -, hspaces⟩ := lowerRuns_forms run hrun
      obtain ⟨hlow, hhigh⟩ := CaseRun.bounds hlists
      have hnot : ¬ isSpace (lowerRune r) = true := by
        intro hspace
        have hout := hspaces _ (of_decide_eq_true hspace)
        rw [heq] at hout
        omega
      rw [Bool.not_eq_true] at hr hnot
      rw [hr, hnot]

/-- A rune that lowers to white space is that white space. -/
theorem eq_of_isSpace_lowerRune {r : ℕ} (h : isSpace (lowerRune r) = true) : lowerRune r = r :=
  lowerRune_of_isSpace (isSpace_lowerRune r ▸ h)

/-- The runes of a lower-cased text. -/
theorem runes_toLower (s : Text) : runes (toLower s) = (runes s).map lowerRune := by
  apply runes_encodeRunes
  intro r hr
  obtain ⟨r, hmem, rfl⟩ := List.mem_map.mp hr
  exact isScalar_lowerRune (isScalar_runes r hmem)

/-- An ASCII byte in front is its own rune. -/
theorem runes_cons_ascii {b : UInt8} (hb : b.toNat < 0x80) (s : Text) :
    runes (b :: s) = b.toNat :: runes s := by
  have hd : decodeRune ([b] ++ s) = (b.toNat, [b].length) := by simp [decodeRune, hb]
  exact runes_rune (by simp) hd

/-- Any other byte in front begins a rune that is not ASCII. -/
theorem runes_cons_high {b : UInt8} (hb : 0x80 ≤ b.toNat) (s : Text) :
    ∃ r rs, runes (b :: s) = r :: rs ∧ 0x80 ≤ r := by
  obtain ⟨h, -⟩ | ⟨-, h⟩ | ⟨r, cont, tail, rfl, -, -, hscalar, hr, he⟩ := decodeRune_cons b s
  · omega
  · exact ⟨runeError, runes s, runes_rune (List.cons_ne_nil b []) h, by decide⟩
  · refine ⟨r, runes tail, ?_, hr⟩
    rw [← List.cons_append, ← he, runes_encodeRune hscalar]

/-- An ASCII prefix of a text is one of its runes. -/
theorem hasPrefix_iff_runes {p : Text} (hp : ∀ b ∈ p, b.toNat < 0x80) (s : Text) :
    hasPrefix s p = true ↔ p.map UInt8.toNat <+: runes s := by
  rw [hasPrefix, List.isPrefixOf_iff_prefix]
  induction p generalizing s with
  | nil => simp
  | cons c p ih =>
    have hc := hp c List.mem_cons_self
    cases s with
    | nil => simp [runes, runesFrom]
    | cons b s =>
      rw [List.cons_prefix_cons, List.map_cons]
      by_cases hb : b.toNat < 0x80
      · rw [runes_cons_ascii hb, List.cons_prefix_cons, UInt8.toNat_inj,
          ih fun x hx => hp x (List.mem_cons_of_mem _ hx)]
      · obtain ⟨r, rs, heq, hr⟩ := runes_cons_high (Nat.le_of_not_lt hb) s
        rw [heq, List.cons_prefix_cons]
        apply iff_of_false
        · rintro ⟨rfl, -⟩
          exact hb hc
        · rintro ⟨hcr, -⟩
          omega

/-- A text is an ASCII text exactly if its runes are those of that text. -/
theorem eq_iff_runes {p : Text} (hp : ∀ b ∈ p, b.toNat < 0x80) (s : Text) :
    s = p ↔ runes s = p.map UInt8.toNat := by
  induction p generalizing s with
  | nil =>
    cases s with
    | nil => simp [runes, runesFrom]
    | cons b s => simp [runes, runesFrom]
  | cons c p ih =>
    have hc := hp c List.mem_cons_self
    cases s with
    | nil => simp [runes, runesFrom]
    | cons b s =>
      rw [List.cons_eq_cons, List.map_cons]
      by_cases hb : b.toNat < 0x80
      · rw [runes_cons_ascii hb, List.cons_eq_cons, UInt8.toNat_inj,
          ih fun x hx => hp x (List.mem_cons_of_mem _ hx)]
      · obtain ⟨r, rs, heq, hr⟩ := runes_cons_high (Nat.le_of_not_lt hb) s
        rw [heq, List.cons_eq_cons]
        apply iff_of_false
        · rintro ⟨rfl, -⟩
          exact hb hc
        · rintro ⟨hcr, -⟩
          omega

/-- Trimming on the left drops the leading runes. -/
theorem runes_trimLeftFunc (p : ℕ → Bool) (s : Text) :
    runes (trimLeftFunc p s) = (runes s).dropWhile p := by
  induction s using rune_induction with
  | nil => rfl
  | rune head rest r hne hd ih =>
    rw [runes_rune hne hd, List.dropWhile_cons, trimLeftFunc]
    cases hp : p r with
    | true =>
      rw [dropRunes_of_decode hne hd hp, if_pos rfl]
      exact ih
    | false =>
      rw [dropRunes_of_not hne hd hp, runes_rune hne hd]
      rfl

/-- Once trimmed, a text does not start with white space. -/
theorem isSpace_trimLeftFunc (s : Text) :
    isSpace (decodeRune (trimLeftFunc isSpace s)).1 = false := by
  induction s using rune_induction with
  | nil => decide
  | rune head rest r hne hd ih =>
    cases hr : isSpace r with
    | false => rw [trimLeftFunc, dropRunes_of_not hne hd hr, hd, hr]
    | true =>
      rw [trimLeftFunc, dropRunes_of_decode hne hd hr]
      exact ih

/-- A byte that does not continue a rune leaves the first rune of the text before it alone. -/
theorem decodeRune_append_lead {s : Text} (hs : s ≠ []) {c : UInt8} (hc : isContinuation c = false)
    (t : Text) : decodeRune (s ++ c :: t) = decodeRune s := by
  obtain ⟨b, s, rfl⟩ := List.exists_cons_of_ne_nil hs
  have hone {r : ℕ} (h : decodeRune (b :: (s ++ c :: t)) = (r, 1)) : decodeRune (b :: s) = (r, 1) :=
    decodeRune_of_prefix (List.cons_ne_nil b []) h (List.prefix_append s _)
  rw [List.cons_append]
  obtain ⟨-, h⟩ | ⟨-, h⟩ | ⟨r, cont, tail, heq, -, hcont, hscalar, -, he⟩ :=
    decodeRune_cons b (s ++ c :: t)
  · rw [h, hone h]
  · rw [h, hone h]
  · have hinside : ∃ more, s = cont ++ more := by
      obtain ⟨more, rfl, hmore⟩ | ⟨more, rfl, -⟩ := List.append_eq_append_iff.mp heq
      · cases more with
        | nil => exact ⟨[], by simp⟩
        | cons d more =>
          -- the rune would reach the byte that continues none
          obtain ⟨rfl, -⟩ := List.cons_eq_cons.mp hmore
          exact absurd (hcont c (by simp)) (by simp [hc])
      · exact ⟨more, rfl⟩
    obtain ⟨more, rfl⟩ := hinside
    rw [List.append_assoc, ← List.cons_append, ← List.cons_append, ← he,
      decodeRune_encodeRune hscalar, decodeRune_encodeRune hscalar]

/-- The first byte of an encoded rune does not continue another. -/
theorem exists_lead {r : ℕ} (h : IsScalar r) :
    ∃ c cont, encodeRune r = c :: cont ∧ isContinuation c = false := by
  obtain ⟨hr, he⟩ | ⟨hl, hr, he⟩ | ⟨hl, hr, he⟩ | ⟨hl, hr, he⟩ := encodeRune_cases h
  · refine ⟨_, _, he, ?_⟩
    simp only [isContinuation, toNat_ofNat_of_lt (show r < 256 by omega), Bool.and_eq_false_iff,
      decide_eq_false_iff_not]
    omega
  · exact ⟨_, _, he, isContinuation_lead (by omega) (by omega)⟩
  · exact ⟨_, _, he, isContinuation_lead (by omega) (by omega)⟩
  · exact ⟨_, _, he, isContinuation_lead (by omega) (by omega)⟩

/-- What starts with a byte that does not continue a rune decodes alone, whatever bytes precede it. -/
theorem runes_append_lead {c : UInt8} (hc : isContinuation c = false) (s t : Text) :
    runes (s ++ c :: t) = runes s ++ runes (c :: t) := by
  induction s using rune_induction with
  | nil => rfl
  | rune head rest r hne hd ih =>
    have hd' : decodeRune (head ++ (rest ++ c :: t)) = (r, head.length) := by
      rw [← List.append_assoc, decodeRune_append_lead (by simp [hne]) hc, hd]
    rw [List.append_assoc, runes_rune hne hd', runes_rune hne hd, ih, List.cons_append]

/-- A rune appended to a text is one more rune. -/
theorem runes_append_encodeRune {r : ℕ} (hr : IsScalar r) (s : Text) :
    runes (s ++ encodeRune r) = runes s ++ [r] := by
  have hrune := runes_encodeRune hr []
  obtain ⟨c, cont, he, hc⟩ := exists_lead hr
  rw [List.append_nil, he] at hrune
  rw [he, runes_append_lead hc, hrune, runes_nil]

/-- The last rune of a text, unless it is the replacement character, is encoded at its end. -/
theorem exists_of_runes_concat {s : Text} {rs : List ℕ} {r : ℕ} (h : runes s = rs ++ [r])
    (hr : r ≠ runeError) : ∃ t, s = t ++ encodeRune r := by
  induction s using rune_induction generalizing rs with
  | nil => simp [runes, runesFrom] at h
  | rune head rest r' hne hd ih =>
    rw [runes_rune hne hd] at h
    cases rs with
    | nil =>
      obtain ⟨rfl, hrest⟩ := List.cons_eq_cons.mp h
      obtain rfl | ⟨-, rfl⟩ := eq_runeError_or_encodeRune hne hd
      · exact absurd rfl hr
      · have : rest = [] := (eq_iff_runes (List.forall_mem_nil _) rest).mpr hrest
        exact ⟨[], by simp [this]⟩
    | cons x rs =>
      obtain ⟨t, rfl⟩ := ih (List.cons_eq_cons.mp h).2
      exact ⟨head ++ t, by simp⟩

/-- A space read from the end is encoded there. -/
theorem exists_of_decodeLastRune {s : Text} (h : isSpace (decodeLastRune s.reverse).1 = true) :
    ∃ t r, s = t ++ encodeRune r ∧ isSpace r = true := by
  have herr : isSpace runeError ≠ true := by decide
  induction s using List.reverseRecOn with
  | nil => exact absurd h herr
  | append_singleton s b =>
    rw [List.reverse_append, List.reverse_singleton, List.singleton_append, decodeLastRune] at h
    dsimp only at h
    split_ifs at h with hascii hspan
    · exact ⟨s, b.toNat, by rw [encodeRune, if_pos hascii, UInt8.ofNat_toNat], h⟩
    · generalize lastRuneSpan s.reverse = span at h hspan
      obtain ⟨hwidth, hpos⟩ := hspan
      have hcut := List.take_append_drop span (b :: s.reverse)
      have hle := List.length_take_le span (b :: s.reverse)
      generalize (b :: s.reverse).take span = last at h hwidth hcut hle
      have hne : last.reverse ≠ [] := by
        intro hnil
        rw [hnil] at hwidth
        exact hpos hwidth.symm
      obtain ⟨head, rest, r, hhead, heq, hd⟩ := exists_rune hne
      rw [hd] at h hwidth
      -- the rune takes all the bytes of the span
      obtain rfl : rest = [] := by
        have hlen := congrArg List.length heq
        rw [List.length_reverse, List.length_append] at hlen
        dsimp only at hwidth
        exact List.length_eq_zero_iff.mp (by omega)
      rw [heq] at hd
      obtain rfl | ⟨-, rfl⟩ := eq_runeError_or_encodeRune hhead hd
      · exact absurd h herr
      · refine ⟨((b :: s.reverse).drop span).reverse, r, ?_, h⟩
        have hrev := congrArg List.reverse hcut
        rw [List.reverse_append, heq, List.append_nil, List.reverse_cons, List.reverse_reverse] at hrev
        exact hrev.symm
    · exact absurd h herr

/-- Trimming on the right keeps a text that does not end with a space. -/
theorem trimRightFunc_of_last {s : Text} (h : isSpace (decodeLastRune s.reverse).1 = false) :
    trimRightFunc isSpace s = s := by
  rw [trimRightFunc]
  cases hs : s.reverse with
  | nil => rw [dropRunes, List.reverse_nil, List.reverse_eq_nil_iff.mp hs]
  | cons b t =>
    rw [hs] at h
    rw [dropRunes, if_neg (by simp [h]), ← hs, List.reverse_reverse]

/-- A space at the end is trimmed. -/
theorem trimRightFunc_append_encodeRune {r : ℕ} (hr : isSpace r = true) (s : Text) :
    trimRightFunc isSpace (s ++ encodeRune r) = trimRightFunc isSpace s := by
  have hne : (encodeRune r).reverse ≠ [] := by simpa using encodeRune_ne_nil r
  have hd : decodeLastRune ((encodeRune r).reverse ++ s.reverse) =
      (r, (encodeRune r).reverse.length) := by
    rw [decodeLastRune_encodeRune (isScalar_of_isSpace hr), List.length_reverse]
  rw [trimRightFunc, List.reverse_append, dropRunes_of_decode hne hd hr, trimRightFunc]

/-- Trimming on the right drops the trailing runes. -/
theorem runes_trimRightFunc (s : Text) :
    runes (trimRightFunc isSpace s) = (runes s).rdropWhile isSpace := by
  induction hn : s.length using Nat.strong_induction_on generalizing s with
  | _ n ih =>
    by_cases hlast : isSpace (decodeLastRune s.reverse).1 = true
    · obtain ⟨t, r, rfl, hr⟩ := exists_of_decodeLastRune hlast
      have hscalar := isScalar_of_isSpace hr
      have hpos := List.length_pos_of_ne_nil (encodeRune_ne_nil r)
      rw [List.length_append] at hn
      rw [trimRightFunc_append_encodeRune hr, ih t.length (by omega) t rfl, runes_append_encodeRune hscalar,
        List.rdropWhile_concat_pos _ _ _ hr]
    · rw [trimRightFunc_of_last (by rwa [Bool.not_eq_true] at hlast), eq_comm,
        List.rdropWhile_eq_self_iff]
      intro hne hspace
      apply hlast
      have hr : (runes s).getLast hne ≠ runeError := by
        intro h
        rw [h] at hspace
        exact absurd hspace (by decide)
      obtain ⟨t, ht⟩ := exists_of_runes_concat (List.dropLast_append_getLast hne).symm hr
      rw [ht, List.reverse_append, decodeLastRune_encodeRune (isScalar_of_isSpace hspace)]
      exact hspace

/-- Trimming drops the runes of white space at both ends. -/
theorem runes_trimSpace (s : Text) :
    runes (trimSpace s) = ((runes s).dropWhile isSpace).rdropWhile isSpace := by
  rw [trimSpace, runes_trimRightFunc, runes_trimLeftFunc]

/-- An ASCII byte of a text is one of its runes. -/
theorem toNat_mem_runes {s : Text} {b : UInt8} (hb : b.toNat < 0x80) (h : b ∈ s) :
    b.toNat ∈ runes s := by
  induction s using rune_induction with
  | nil => simp at h
  | rune head rest r hne hd ih =>
    rw [runes_rune hne hd]
    obtain hhead | hrest := List.mem_append.mp h
    · obtain ⟨c, rfl, -, rfl⟩ | ⟨c, rfl, hhigh, -⟩ | ⟨c, cont, rfl, hhigh, hcont, -⟩ :=
        rune_cases hne hd
      · rw [List.mem_singleton.mp hhead]
        exact List.mem_cons_self
      · rw [List.mem_singleton.mp hhead] at hb
        omega
      · obtain rfl | hmem := List.mem_cons.mp hhead
        · omega
        · have hbounds : 0x80 ≤ b.toNat ∧ b.toNat ≤ 0xBF := by
            simpa [isContinuation] using hcont b hmem
          omega
    · exact List.mem_cons_of_mem r (ih hrest)

/-- An ASCII byte stands at the start of a text's first rune, or behind it. -/
theorem length_le_of_drop {head rest t : Text} {r c : ℕ} {b : UInt8} (hne : head ≠ [])
    (hd : decodeRune (head ++ rest) = (r, head.length)) (hb : b.toNat < 0x80)
    (h : (head ++ rest).drop c = b :: t) (hc : c ≠ 0) : head.length ≤ c := by
  obtain ⟨x, rfl, -⟩ | ⟨x, rfl, -⟩ | ⟨x, cont, rfl, -, hcont, -⟩ := rune_cases hne hd
  · exact Nat.one_le_iff_ne_zero.mpr hc
  · exact Nat.one_le_iff_ne_zero.mpr hc
  · by_contra hlt
    rw [List.length_cons] at hlt
    obtain ⟨c, rfl⟩ := Nat.exists_eq_succ_of_ne_zero hc
    have hmem : b ∈ cont.drop c := by
      rw [List.cons_append, List.drop_succ_cons, List.drop_append_of_le_length (by omega)] at h
      cases hdrop : cont.drop c with
      | nil =>
        have hlen := congrArg List.length hdrop
        rw [List.length_drop, List.length_nil] at hlen
        omega
      | cons y ys =>
        rw [hdrop, List.cons_append] at h
        rw [(List.cons_eq_cons.mp h).1]
        exact List.mem_cons_self
    have hbounds : 0x80 ≤ b.toNat ∧ b.toNat ≤ 0xBF := by
      simpa [isContinuation] using hcont b (List.mem_of_mem_drop hmem)
    omega

end GoText
