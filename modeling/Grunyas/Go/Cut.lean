import Grunyas.Go.Runes

/-!
# Texts cut short

What the first bytes of a text show of it. A prefix or a substring that ends before the cut is
found in the same place; a rune that the cut divides turns into replacement characters, one for
each byte that is left of it.
-/

namespace GoText

/-- A cut text has the prefixes of the whole that end before the cut. -/
theorem hasPrefix_take {s p : Text} {m : ℕ} :
    hasPrefix (s.take m) p = true ↔ hasPrefix s p = true ∧ p.length ≤ m := by
  simp only [hasPrefix, List.isPrefixOf_iff_prefix, List.prefix_take_iff]

/-- Where a substring is found, the text has it behind so many bytes. -/
theorem exists_of_index {sub s : Text} {i : ℕ} (h : index sub s = some i) :
    ∃ front rest, s = front ++ (sub ++ rest) ∧ i = front.length := by
  induction s generalizing i with
  | nil =>
    rw [index] at h
    split_ifs at h with hsub
    exact ⟨[], [], by rw [hsub]; rfl, (Option.some.inj h).symm⟩
  | cons b s ih =>
    rw [index] at h
    split_ifs at h with hfirst
    · rw [hasPrefix, List.isPrefixOf_iff_prefix] at hfirst
      obtain ⟨rest, hrest⟩ := hfirst
      exact ⟨[], rest, hrest.symm, (Option.some.inj h).symm⟩
    · obtain ⟨j, hj, rfl⟩ := Option.map_eq_some_iff.mp h
      obtain ⟨front, rest, rfl, rfl⟩ := ih hj
      exact ⟨b :: front, rest, rfl, rfl⟩

/-- A substring is found in a cut text where it is found in the whole, if it ends before the cut. -/
theorem index_take {sub : Text} (hsub : sub ≠ []) {s : Text} {m i : ℕ} :
    index sub (s.take m) = some i ↔ index sub s = some i ∧ i + sub.length ≤ m := by
  have hpos := List.length_pos_of_ne_nil hsub
  induction s generalizing m i with
  | nil => simp [index, hsub]
  | cons b s ih =>
    cases m with
    | zero =>
      rw [List.take_zero, index, if_neg hsub]
      exact iff_of_false (Option.some_ne_none i).symm fun h => by omega
    | succ m =>
      have hcut : hasPrefix (b :: s.take m) sub = true ↔
          hasPrefix (b :: s) sub = true ∧ sub.length ≤ m + 1 := by
        rw [← List.take_succ_cons, hasPrefix_take]
      rw [List.take_succ_cons, index, index]
      by_cases hstarts : hasPrefix (b :: s) sub = true
      · rw [if_pos hstarts]
        by_cases hle : sub.length ≤ m + 1
        · rw [if_pos (hcut.mpr ⟨hstarts, hle⟩), Option.some.injEq]
          exact ⟨fun h => ⟨h, by omega⟩, fun h => h.1⟩
        · rw [if_neg fun h => hle (hcut.mp h).2]
          apply iff_of_false
          · intro h
            obtain ⟨j, hj, -⟩ := Option.map_eq_some_iff.mp h
            have := (ih.mp hj).2
            omega
          · rintro ⟨-, h⟩
            omega
      · rw [if_neg hstarts, if_neg fun h => hstarts (hcut.mp h).1]
        cases i with
        | zero => simp
        | succ i =>
          have hsucc : ∀ found : Option ℕ, found.map (· + 1) = some (i + 1) ↔ found = some i := by
            intro found
            cases found <;> simp
          rw [hsucc, hsucc, Nat.add_right_comm, Nat.add_le_add_iff_right]
          exact ih

/-- A substring that ends before the cut ends there in the cut text too. -/
theorem bytesThrough_take {sub : Text} (hsub : sub ≠ []) {s : Text} {m : ℕ}
    (h : bytesThrough sub s ≤ m) : bytesThrough sub (s.take m) = bytesThrough sub s := by
  rw [bytesThrough] at h
  cases hindex : index sub s with
  | none =>
    rw [hindex, Option.map_none, Option.getD_none] at h
    rw [List.take_of_length_le h]
  | some i =>
    rw [hindex, Option.map_some, Option.getD_some] at h
    rw [bytesThrough, bytesThrough, (index_take hsub).mpr ⟨hindex, h⟩, hindex]
    rfl

/-- A substring that ends behind the cut is not in the cut text. -/
theorem bytesThrough_take_of_lt {sub : Text} (hsub : sub ≠ []) {s : Text} {m : ℕ}
    (h : m < bytesThrough sub s) : bytesThrough sub (s.take m) = (s.take m).length := by
  have hnone : index sub (s.take m) = none := by
    rw [Option.eq_none_iff_forall_ne_some]
    intro i hi
    obtain ⟨hindex, hle⟩ := (index_take hsub).mp hi
    rw [bytesThrough, hindex, Option.map_some, Option.getD_some] at h
    omega
  rw [bytesThrough, hnone]
  rfl

/-- A text cut within its first rune does not decode. -/
theorem decodeRune_take_of_lt {head rest : Text} {r m : ℕ}
    (hd : decodeRune (head ++ rest) = (r, head.length)) (hm : m < head.length) (hpos : m ≠ 0) :
    decodeRune (head.take m) = (runeError, 1) := by
  obtain ⟨m, rfl⟩ := Nat.exists_eq_succ_of_ne_zero hpos
  cases head with
  | nil => exact absurd hm (Nat.not_lt_zero _)
  | cons b head =>
    rw [List.take_succ_cons]
    obtain ⟨hascii, -⟩ | ⟨-, h⟩ | ⟨r', cont, tail, htail, -, -, hscalar, -, he⟩ :=
      decodeRune_cons b (head.take m)
    · -- an ASCII rune has one byte
      have hone : decodeRune (b :: (head ++ rest)) = (b.toNat, 1) := by simp [decodeRune, hascii]
      rw [List.cons_append, hone] at hd
      have hlen := congrArg Prod.snd hd
      rw [List.length_cons] at hm hlen
      omega
    · exact h
    · -- the rune found before the cut would be the first rune of the whole
      have hwhole : b :: head ++ rest = encodeRune r' ++ (tail ++ (head.drop m ++ rest)) := by
        rw [he, List.cons_append, List.cons_append, ← List.append_assoc cont, ← htail,
          ← List.append_assoc (head.take m), List.take_append_drop]
      rw [hwhole, decodeRune_encodeRune hscalar, he] at hd
      have hlen := congrArg Prod.snd hd
      have hcont := congrArg List.length htail
      rw [List.length_append, List.length_take] at hcont
      rw [List.length_cons] at hm hlen
      dsimp only at hlen
      rw [List.length_cons] at hlen
      omega

/-- Bytes that only continue runes do not decode. -/
theorem eq_runeError_of_mem_runes {s : Text} (hs : ∀ b ∈ s, isContinuation b = true) :
    ∀ r ∈ runes s, r = runeError := by
  induction s with
  | nil => exact List.forall_mem_nil _
  | cons b s ih =>
    have hb : 0x80 ≤ b.toNat ∧ b.toNat ≤ 0xBF := by
      simpa [isContinuation] using hs b List.mem_cons_self
    have hd : decodeRune ([b] ++ s) = (runeError, [b].length) := by
      have hlow : ¬ b.toNat < 0x80 := by omega
      have hlead : b.toNat < 0xC2 := by omega
      simp [decodeRune, hlow, hlead]
    rw [← List.singleton_append, runes_rune (by simp) hd, List.forall_mem_cons]
    exact ⟨rfl, ih fun x hx => hs x (List.mem_cons_of_mem b hx)⟩

/-- What a cut leaves of a rune does not decode. -/
theorem eq_runeError_of_mem_take {head rest : Text} {r m : ℕ}
    (hd : decodeRune (head ++ rest) = (r, head.length)) (hm : m < head.length) :
    ∀ x ∈ runes (head.take m), x = runeError := by
  cases m with
  | zero => exact List.forall_mem_nil _
  | succ m =>
    have hcut := decodeRune_take_of_lt hd hm (Nat.succ_ne_zero m)
    cases head with
    | nil => exact absurd hm (Nat.not_lt_zero _)
    | cons b head =>
      rw [List.take_succ_cons] at hcut ⊢
      have hcont : ∀ c ∈ head, isContinuation c = true := by
        obtain ⟨c, hc, -⟩ | ⟨c, hc, -⟩ | ⟨c, cont, hc, -, hcont, -⟩ :=
          rune_cases (List.cons_ne_nil b head) hd
        · obtain ⟨-, rfl⟩ := List.cons_eq_cons.mp hc
          exact List.forall_mem_nil _
        · obtain ⟨-, rfl⟩ := List.cons_eq_cons.mp hc
          exact List.forall_mem_nil _
        · obtain ⟨-, rfl⟩ := List.cons_eq_cons.mp hc
          exact hcont
      rw [← List.singleton_append, runes_rune (by simp) hcut, List.forall_mem_cons]
      exact ⟨rfl, eq_runeError_of_mem_runes fun c hc => hcont c (List.mem_of_mem_take hc)⟩

/-- The bytes before a rune in a cut text: those of the whole if the rune ends before the cut, and
otherwise all that are left. -/
theorem bytesBefore_take {p : ℕ → Bool} (hp : p runeError = false) (s : Text) (m : ℕ) :
    bytesBefore p (s.take m) =
      if bytesBefore p s + (decodeRune (s.drop (bytesBefore p s))).2 ≤ m then bytesBefore p s
      else (s.take m).length := by
  induction s using rune_induction generalizing m with
  | nil => simp
  | rune head rest r hne hd ih =>
    have hpos := List.length_pos_of_ne_nil hne
    by_cases hm : m < head.length
    · -- the cut divides the first rune
      have htake : (head ++ rest).take m = head.take m := List.take_append_of_le_length (by omega)
      have hnone : ∀ x ∈ runes (head.take m), p x = false := by
        intro x hx
        rw [eq_runeError_of_mem_take hd hm x hx, hp]
      have hlong : m < bytesBefore p (head ++ rest) +
          (decodeRune ((head ++ rest).drop (bytesBefore p (head ++ rest)))).2 := by
        rw [bytesBefore_rune p hne hd]
        split_ifs
        · rw [List.drop_zero, hd]
          omega
        · omega
      rw [htake, bytesBefore_eq_length hnone, if_neg (by omega)]
    · have htake : (head ++ rest).take m = head ++ rest.take (m - head.length) := by
        rw [List.take_append, List.take_of_length_le (by omega)]
      have hfront := List.take_prefix (m - head.length) rest
      have hd' := decodeRune_of_prefix hne hd hfront
      rw [htake, bytesBefore_rune p hne hd', bytesBefore_rune p hne hd]
      cases hr : p r with
      | true =>
        rw [if_pos rfl, if_pos rfl, List.drop_zero, hd, if_pos (by omega)]
      | false =>
        rw [if_neg Bool.false_ne_true, if_neg Bool.false_ne_true, ih, List.drop_length_add_append,
          List.length_append]
        split_ifs <;> omega

end GoText
