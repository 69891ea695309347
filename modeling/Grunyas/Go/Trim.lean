import Grunyas.Go.Cut

/-!
# What trimming leaves of a text

The bytes that `strings.TrimRightFunc` drops are encoded white space, so a text is what is left of it
and such an end; the first rune of what is left is that of the text. Trimming a trimmed text changes
nothing.
-/

namespace GoText

/-- Trimming on the left keeps a text that does not start with a space. -/
theorem trimLeftFunc_of_first {s : Text} (h : isSpace (decodeRune s).1 = false) :
    trimLeftFunc isSpace s = s := by
  cases s with
  | nil => rfl
  | cons b s => rw [trimLeftFunc, dropRunes, if_neg (by simp [h])]

/-- A rune at the end leaves the first rune of the text before it alone. -/
theorem decodeRune_append_encodeRune {s : Text} (hs : s ≠ []) {r : ℕ} (hr : IsScalar r) (t : Text) :
    decodeRune (s ++ (encodeRune r ++ t)) = decodeRune s := by
  obtain ⟨c, cont, he, hc⟩ := exists_lead hr
  rw [he, List.cons_append, decodeRune_append_lead hs hc]

/-- What is trimmed on the right is encoded white space. -/
theorem exists_trimRightFunc (s : Text) : ∃ spaces : List ℕ, (∀ r ∈ spaces, isSpace r = true) ∧
    s = trimRightFunc isSpace s ++ encodeRunes spaces := by
  induction hn : s.length using Nat.strong_induction_on generalizing s with
  | _ n ih =>
    by_cases hlast : isSpace (decodeLastRune s.reverse).1 = true
    · obtain ⟨t, r, rfl, hr⟩ := exists_of_decodeLastRune hlast
      have hpos := List.length_pos_of_ne_nil (encodeRune_ne_nil r)
      rw [List.length_append] at hn
      obtain ⟨spaces, hspaces, ht⟩ := ih t.length (by omega) t rfl
      refine ⟨spaces ++ [r], ?_, ?_⟩
      · intro x hx
        obtain hx | hx := List.mem_append.mp hx
        · exact hspaces x hx
        · rwa [List.mem_singleton.mp hx]
      · rw [trimRightFunc_append_encodeRune hr, encodeRunes_append, ← List.append_assoc, ← ht]
        simp [encodeRunes]
    · refine ⟨[], List.forall_mem_nil _, ?_⟩
      rw [trimRightFunc_of_last (by rwa [Bool.not_eq_true] at hlast)]
      exact (List.append_nil s).symm

/-- A trimmed text does not start with a space. -/
theorem isSpace_trimSpace (s : Text) : isSpace (decodeRune (trimSpace s)).1 = false := by
  have hfirst := isSpace_trimLeftFunc s
  obtain ⟨spaces, hspaces, hsplit⟩ := exists_trimRightFunc (trimLeftFunc isSpace s)
  rw [← trimSpace] at hsplit
  by_cases hnil : trimSpace s = []
  · rw [hnil]
    rfl
  cases spaces with
  | nil => rwa [hsplit, encodeRunes, List.flatMap_nil, List.append_nil] at hfirst
  | cons r spaces =>
    have hr := isScalar_of_isSpace (hspaces r List.mem_cons_self)
    rwa [hsplit, encodeRunes, List.flatMap_cons, decodeRune_append_encodeRune hnil hr] at hfirst

/-- Where a text behind another completes a search, its last symbol stands in that text. -/
theorem mem_of_index_append {sub front s t : Text} {b : UInt8} {i : ℕ} (hsub : sub = front ++ [b])
    (hnone : index sub s = none) (h : index sub (s ++ t) = some i) :
    b ∈ t ∧ s.length < i + sub.length ∧ i + sub.length ≤ (s ++ t).length := by
  have hne : sub ≠ [] := by simp [hsub]
  have hlate : s.length < i + sub.length := by
    apply Nat.lt_of_not_le
    intro hle
    have hfound := (index_take hne).mpr ⟨h, hle⟩
    rw [List.take_left, hnone] at hfound
    cases hfound
  obtain ⟨left, rest, heq, rfl⟩ := exists_of_index h
  have hget : (s ++ t)[left.length + front.length]? = some b := by
    rw [heq, hsub]
    simp
  have hlength : sub.length = front.length + 1 := by simp [hsub]
  rw [List.getElem?_append_right (by omega)] at hget
  refine ⟨List.mem_of_getElem? hget, hlate, ?_⟩
  rw [heq, List.length_append, List.length_append]
  omega

/-- A text of white space is trimmed away, and no other. -/
theorem trimSpace_eq_nil_iff {s : Text} : trimSpace s = [] ↔ ∀ r ∈ runes s, isSpace r = true := by
  rw [← runes_eq_nil_iff, runes_trimSpace, List.rdropWhile_eq_nil_iff]
  constructor
  · intro h
    by_contra hsome
    push Not at hsome
    have hne : (runes s).dropWhile isSpace ≠ [] := by
      rw [Ne, List.dropWhile_eq_nil_iff]
      intro hall
      obtain ⟨r, hr, hnot⟩ := hsome
      exact hnot (hall r hr)
    have hfirst := List.head_dropWhile_not isSpace hne
    rw [h _ (List.head_mem hne)] at hfirst
    cases hfirst
  · intro h r hr
    exact h r ((List.dropWhile_suffix isSpace).subset hr)

/-- The text does not end with white space. -/
def Trimmed (s : Text) : Prop := ∀ r ∈ (runes s).getLast?, isSpace r = false

/-- A text that ends as a trimmed text does is trimmed. -/
theorem Trimmed.of_suffix {s t : Text} (h : Trimmed s) (hsuffix : runes t <:+ runes s) : Trimmed t := by
  obtain ⟨front, hfront⟩ := hsuffix
  intro r hr
  apply h
  rw [← hfront, List.getLast?_append, hr]
  rfl

/-- Trimming trims. -/
theorem trimmed_trimSpace (s : Text) : Trimmed (trimSpace s) := by
  intro r hr
  rw [runes_trimSpace] at hr
  obtain ⟨hne, rfl⟩ := List.mem_getLast?_eq_getLast hr
  have hlast := List.rdropWhile_last_not isSpace _ hne
  rwa [Bool.not_eq_true] at hlast

/-- Nothing is trimmed on the right of a trimmed text. -/
theorem Trimmed.trimRightFunc_eq {s : Text} (h : Trimmed s) : trimRightFunc isSpace s = s := by
  apply trimRightFunc_of_last
  rw [← Bool.not_eq_true]
  intro hlast
  obtain ⟨t, r, rfl, hr⟩ := exists_of_decodeLastRune hlast
  have hfalse := h r (by rw [runes_append_encodeRune (isScalar_of_isSpace hr)]; simp)
  rw [hr] at hfalse
  cases hfalse

theorem Trimmed.trimLeft {s : Text} (h : Trimmed s) : Trimmed (trimLeftFunc isSpace s) := by
  apply h.of_suffix
  rw [runes_trimLeftFunc]
  exact List.dropWhile_suffix isSpace

/-- Trimming a trimmed text trims on the left only. -/
theorem Trimmed.trimSpace_eq {s : Text} (h : Trimmed s) : trimSpace s = trimLeftFunc isSpace s := by
  rw [trimSpace, h.trimLeft.trimRightFunc_eq]

/-- The end of a trimmed text is trimmed, wherever it starts. -/
theorem Trimmed.suffix {s t : Text} (h : Trimmed s) (hsuffix : t <:+ s) : Trimmed t := by
  intro r hr
  rw [← Bool.not_eq_true]
  intro hspace
  obtain ⟨rs, hrs⟩ := List.getLast?_eq_some_iff.mp hr
  have hne : r ≠ runeError := by
    rintro rfl
    cases hspace
  obtain ⟨u, rfl⟩ := exists_of_runes_concat hrs hne
  obtain ⟨front, rfl⟩ := hsuffix
  have hlast : r ∈ (runes (front ++ (u ++ encodeRune r))).getLast? := by
    rw [← List.append_assoc, runes_append_encodeRune (isScalar_of_isSpace hspace)]
    simp
  rw [h r hlast] at hspace
  cases hspace

/-- Trimming twice is trimming once. -/
theorem trimSpace_trimSpace (s : Text) : trimSpace (trimSpace s) = trimSpace s := by
  rw [(trimmed_trimSpace s).trimSpace_eq, trimLeftFunc_of_first (isSpace_trimSpace s)]

/-- Encoded runes behind a text are its last runes. -/
theorem runes_append_encodeRunes {rs : List ℕ} (h : ∀ r ∈ rs, IsScalar r) (s : Text) :
    runes (s ++ encodeRunes rs) = runes s ++ rs := by
  induction rs generalizing s with
  | nil => rw [encodeRunes, List.flatMap_nil, List.append_nil, List.append_nil]
  | cons r rs ih =>
    rw [List.forall_mem_cons] at h
    have hrest := ih h.2 (s ++ encodeRune r)
    rw [runes_append_encodeRune h.1, List.append_assoc, List.append_assoc] at hrest
    exact hrest

/-- What is trimmed on the left is white space. -/
theorem exists_trimLeftFunc (s : Text) :
    ∃ front, (∀ r ∈ runes front, isSpace r = true) ∧ s = front ++ trimLeftFunc isSpace s := by
  induction s using rune_induction with
  | nil => exact ⟨[], List.forall_mem_nil _, rfl⟩
  | rune head rest r hne hd ih =>
    cases hr : isSpace r with
    | false =>
      refine ⟨[], List.forall_mem_nil _, ?_⟩
      rw [trimLeftFunc, dropRunes_of_not hne hd hr, List.nil_append]
    | true =>
      obtain ⟨front, hfront, hrest⟩ := ih
      have hd' := decodeRune_of_prefix hne hd ⟨_, hrest.symm⟩
      refine ⟨head ++ front, ?_, ?_⟩
      · rw [runes_rune hne hd', List.forall_mem_cons]
        exact ⟨hr, hfront⟩
      · rw [trimLeftFunc, dropRunes_of_decode hne hd hr, ← trimLeftFunc, List.append_assoc, ← hrest]

/-- A prefix of two texts in a row lies in the first, or ends in the second. -/
theorem prefix_append_cases {w s e : Text} {b : UInt8} (h : w ++ [b] <+: s ++ e) :
    w ++ [b] <+: s ∨ ∃ y, w = s ++ y ∧ y ++ [b] <+: e := by
  by_cases hlen : (w ++ [b]).length ≤ s.length
  · exact .inl (List.prefix_of_prefix_length_le h (List.prefix_append s e) hlen)
  · rw [List.length_append, List.length_singleton] at hlen
    have hw : w <+: s ++ e := (List.prefix_append w [b]).trans h
    obtain ⟨y, rfl⟩ := List.prefix_of_prefix_length_le (List.prefix_append s e) hw (by omega)
    rw [List.append_assoc, List.prefix_append_right_inj] at h
    exact .inr ⟨y, rfl, h⟩

/-- An ASCII byte continues no rune. -/
theorem isContinuation_of_ascii {b : UInt8} (hb : b.toNat < 0x80) : isContinuation b = false := by
  rw [isContinuation, decide_eq_false (by omega)]
  rfl

/-- Which texts are in front of a trimmed text, if they end with an ASCII byte: those in front of the text
itself, behind which more than white space follows unless they do not end with white space. -/
theorem prefix_trimSpace_iff {s w : Text} {b : UInt8} (hfirst : isSpace (decodeRune s).1 = false)
    (hb : b.toNat < 0x80) : w ++ [b] <+: trimSpace s ↔
      ∃ rest, s = w ++ b :: rest ∧ (isSpace b.toNat = true → trimSpace rest ≠ []) := by
  have hlead := isContinuation_of_ascii hb
  obtain ⟨spaces, hspaces, hsplit⟩ := exists_trimRightFunc s
  have hscalar : ∀ r ∈ spaces, IsScalar r := fun r hr => isScalar_of_isSpace (hspaces r hr)
  have htrimmed := trimmed_trimSpace s
  rw [trimSpace, trimLeftFunc_of_first hfirst] at htrimmed ⊢
  generalize trimRightFunc isSpace s = t at hsplit htrimmed
  constructor
  · rintro ⟨rest, rfl⟩
    refine ⟨rest ++ encodeRunes spaces, by simp [hsplit], fun hspace hnil => ?_⟩
    rw [trimSpace_eq_nil_iff, runes_append_encodeRunes hscalar] at hnil
    have hrunes : runes (w ++ [b] ++ rest) = runes w ++ (b.toNat :: runes rest) := by
      rw [List.append_assoc, List.singleton_append, runes_append_lead hlead, runes_cons_ascii hb]
    have hr := List.getLast?_eq_some_getLast (List.cons_ne_nil b.toNat (runes rest))
    generalize (b.toNat :: runes rest).getLast _ = r at hr
    have hlast := htrimmed r (by rw [hrunes, List.getLast?_append, hr]; rfl)
    obtain rfl | hmem := List.mem_cons.mp (List.mem_of_getLast? hr)
    · rw [hspace] at hlast
      cases hlast
    · rw [hnil r (List.mem_append_left _ hmem)] at hlast
      cases hlast
  · rintro ⟨rest, hs, hspace⟩
    have hwhole : w ++ [b] <+: t ++ encodeRunes spaces := ⟨rest, by simp [← hsplit, hs]⟩
    obtain hfront | ⟨y, rfl, hy⟩ := prefix_append_cases hwhole
    · exact hfront
    · -- the byte would be among the white space that is trimmed
      have hrest : encodeRunes spaces = y ++ b :: rest := by
        rw [hs, List.append_assoc] at hsplit
        exact (List.append_cancel_left hsplit).symm
      have hrunes := runes_encodeRunes hscalar
      rw [hrest, runes_append_lead hlead, runes_cons_ascii hb] at hrunes
      have hall : ∀ r ∈ b.toNat :: runes rest, isSpace r = true := by
        intro r hr
        apply hspaces
        rw [← hrunes]
        exact List.mem_append_right _ hr
      rw [List.forall_mem_cons, ← trimSpace_eq_nil_iff] at hall
      exact absurd hall.2 (hspace hall.1)

end GoText
