import Grunyas.Classifier.Scanner
import Grunyas.Go.Trim
import Grunyas.Messaging.Process

/-!
# The two strippers of leading comments

The pinning detector trims both ends of a text before every comment it skips, the classifier only the
left end. A line feed that ends a line comment may be the last white space of the text: the classifier
sees it and the detector has trimmed it away. Then nothing follows the comment, so the two still leave
the same statement, up to the white space at its end.
-/

namespace Grunyas.Messaging

open GoText Grunyas.Classifier

/-- On a trimmed text the loop over leading comments is that of the classifier. -/
theorem stripLeadingLoop_eq_stripLoop {s : Text} (h : Trimmed s) (bound : ℕ) :
    stripLeadingLoop bound s = stripLoop bound s := by
  induction bound generalizing s with
  | zero => rfl
  | succ bound ih =>
    rw [stripLeadingLoop, stripLoop, h.trimSpace_eq]
    have htrimmed := h.trimLeft
    generalize trimLeftFunc isSpace s = t at htrimmed
    split_ifs
    · cases hindex : index (text "\n") t with
      | none => rfl
      | some i => exact ih (htrimmed.suffix (List.drop_suffix _ _))
    · cases hindex : index (text "*/") t with
      | none => rfl
      | some i => exact ih (htrimmed.suffix (List.drop_suffix _ _))
    · rfl

/-- The code skips the comments in front of a part as the classifier does. -/
theorem stripLeadingComments_eq (part : Text) :
    stripLeadingComments (trimSpace part) = keywords.skip (trimSpace part) := by
  rw [stripLeadingComments, stripLeadingLoop_eq_stripLoop (trimmed_trimSpace part),
    ← stripCommentsAndWhitespace_eq]
  rfl

/-- The detector skips comments in the trimmed text as the classifier does. -/
theorem stripLeadingComments_eq_skip (s : Text) :
    stripLeadingComments s = keywords.skip (trimSpace s) := by
  have htrim : stripLeadingComments s = stripLeadingLoop (s.length + 1) (trimSpace s) := by
    rw [stripLeadingComments, stripLeadingLoop, stripLeadingLoop, trimSpace_trimSpace]
  have hle := length_trimSpace_le s
  rw [htrim, stripLeadingLoop_eq (by omega), stripLeadingComments_eq]

/-- Where nothing is skipped, neither white space nor a comment is in front. -/
theorem of_gap_eq_zero {s : Text} (h : keywords.gap s = 0) : isSpace (decodeRune s).1 = false ∧
    hasPrefix s (text "--") = false ∧ hasPrefix s (text "/*") = false := by
  obtain ⟨head, rest, r, hne, rfl, hd, hr⟩ | ⟨t, rfl⟩ | ⟨t, rfl⟩ | hnone := gap_cases s
  · rw [gap_space hd hr] at h
    exact absurd (List.length_eq_zero_iff.mp h) hne
  · rw [gap_line] at h
    exact absurd h (bytesThrough_ne_zero (by decide) (List.cons_ne_nil _ _))
  · rw [gap_block] at h
    exact absurd h (bytesThrough_ne_zero (by decide) (List.cons_ne_nil _ _))
  · exact hnone

/-- A comment and what follows it, with a rune of white space behind the text. The rune may be the
line feed that ends the comment. -/
theorem trimSpace_skip_append_comment {s e sub front : Text} {b : UInt8} (hs : s ≠ [])
    (hsub : sub = front ++ [b]) (hgap : keywords.gap s = bytesThrough sub s)
    (hgap' : keywords.gap (s ++ e) = bytesThrough sub (s ++ e)) (hend : b ∈ e → e = [b])
    (hrest : trimSpace (keywords.skip (s.drop (keywords.gap s) ++ e)) =
      trimSpace (keywords.skip (s.drop (keywords.gap s)))) :
    trimSpace (keywords.skip (s ++ e)) = trimSpace (keywords.skip s) := by
  have hne : sub ≠ [] := by simp [hsub]
  rw [skip_of_found hs hne hgap, skip_of_found (by simp [hs]) hne hgap']
  cases hindex : index sub s with
  | some i =>
    have hfound : index sub (s ++ e) = some i ∧ i + sub.length ≤ s.length := by
      rw [← index_take hne, List.take_left, hindex]
    have hpiece : keywords.gap s = i + sub.length := by
      rw [hgap, bytesThrough, hindex]
      rfl
    rw [hpiece] at hrest
    rw [hfound.1, Option.elim_some, Option.elim_some, List.drop_append_of_le_length hfound.2, hrest]
  | none =>
    cases hlate : index sub (s ++ e) with
    | none => rfl
    | some i =>
      obtain ⟨hmem, hlt, hle⟩ := mem_of_index_append hsub hindex hlate
      rw [hend hmem, List.length_append, List.length_singleton] at hle
      have hall : (s ++ e).drop (i + sub.length) = [] := by
        rw [hend hmem]
        apply List.drop_eq_nil_of_le
        rw [List.length_append, List.length_singleton]
        omega
      rw [Option.elim_some, hall]
      rfl

/-- White space in front of nothing is skipped. -/
theorem skip_encodeRune {r : ℕ} (hr : isSpace r = true) : keywords.skip (encodeRune r) = [] := by
  have hd : decodeRune (encodeRune r ++ []) = (r, (encodeRune r).length) :=
    decodeRune_encodeRune (isScalar_of_isSpace hr) []
  have hgap := gap_space hd hr
  have hne := List.length_pos_of_ne_nil (encodeRune_ne_nil r)
  rw [List.append_nil] at hgap
  rw [Sql.Reading.skip_of_gap (by omega), hgap, List.drop_length]
  rfl

/-- A byte of white space is white space. -/
theorem eq_of_mem_space {r : ℕ} (hr : isSpace r = true) {b : UInt8} (hb : b ∈ encodeRune r)
    (hlt : b.toNat < 0x80) : isSpace b.toNat = true ∧ encodeRune r = [b] := by
  have heq := eq_of_mem_encodeRune (isScalar_of_isSpace hr) hb hlt
  rw [heq] at hr ⊢
  refine ⟨hr, ?_⟩
  rw [encodeRune, if_pos hlt, UInt8.ofNat_toNat]

/-- White space behind a text is no part of a statement that starts in front of it. -/
theorem gap_append_eq_zero {s : Text} (hs : s ≠ []) {r : ℕ} (hr : isSpace r = true)
    (hspace : isSpace (decodeRune s).1 = false) (hline : hasPrefix s (text "--") = false)
    (hblock : hasPrefix s (text "/*") = false) : keywords.gap (s ++ encodeRune r) = 0 := by
  have hopener : ∀ (b c : UInt8), c.toNat < 0x80 → isSpace c.toNat = false →
      hasPrefix s [b, c] = false → hasPrefix (s ++ encodeRune r) [b, c] = false := by
    intro b c hc hcspace hnot
    rw [← Bool.not_eq_true, hasPrefix, List.isPrefixOf_iff_prefix] at hnot ⊢
    rintro ⟨rest, hrest⟩
    cases s with
    | nil => exact hs rfl
    | cons x s =>
      cases s with
      | nil =>
        -- the second byte of the opener would be white space
        have hmem : c ∈ encodeRune r := by
          have htail : c :: rest = encodeRune r := (List.cons_eq_cons.mp hrest).2
          rw [← htail]
          exact List.mem_cons_self
        rw [(eq_of_mem_space hr hmem hc).1] at hcspace
        cases hcspace
      | cons y s =>
        obtain ⟨rfl, htail⟩ := List.cons_eq_cons.mp hrest
        obtain ⟨rfl, -⟩ := List.cons_eq_cons.mp htail
        exact hnot ⟨s, rfl⟩
  have hfirst := decodeRune_append_encodeRune hs (isScalar_of_isSpace hr) []
  rw [List.append_nil] at hfirst
  apply gap_eq_zero
  · rw [hfirst, hspace]
  · exact hopener 0x2D 0x2D (by decide) (by decide) hline
  · exact hopener 0x2F 0x2A (by decide) (by decide) hblock

/-- One more rune of white space behind a text changes nothing but the end of the statement. -/
theorem trimSpace_skip_append {r : ℕ} (hr : isSpace r = true) (s : Text) :
    trimSpace (keywords.skip (s ++ encodeRune r)) = trimSpace (keywords.skip s) := by
  induction s using Sql.Reading.gap_induction keywords with
  | stop s hgap =>
    by_cases hs : s = []
    · rw [hs, List.nil_append, skip_encodeRune hr]
      rfl
    obtain ⟨hspace, hline, hblock⟩ := of_gap_eq_zero hgap
    have hgap' := gap_append_eq_zero hs hr hspace hline hblock
    have hfirst := (of_gap_eq_zero hgap').1
    rw [Sql.Reading.skip_of_gap_eq_zero hgap, Sql.Reading.skip_of_gap_eq_zero hgap', trimSpace,
      trimSpace, trimLeftFunc_of_first hspace, trimLeftFunc_of_first hfirst,
      trimRightFunc_append_encodeRune hr]
  | piece s hgap ih =>
    obtain ⟨head, rest, x, hne, rfl, hd, hx⟩ | ⟨t, rfl⟩ | ⟨t, rfl⟩ | ⟨hspace, hline, hblock⟩ :=
      gap_cases s
    · have hlength := gap_space hd hx
      have hd' : decodeRune (head ++ (rest ++ encodeRune r)) = (x, head.length) := by
        have hne : x ≠ runeError := by
          rintro rfl
          cases hx
        rw [← List.append_assoc]
        exact decodeRune_append_of_ne hd hne _
      have hlength' := gap_space hd' hx
      rw [hlength, List.drop_left] at ih
      rw [Sql.Reading.skip_of_gap hgap, hlength, List.drop_left, List.append_assoc,
        Sql.Reading.skip_of_gap (by rwa [hlength', ← hlength]), hlength', List.drop_left, ih]
    · apply trimSpace_skip_append_comment (List.cons_ne_nil _ _)
        (show text "\n" = [] ++ [0x0A] by decide) (gap_line t) (gap_line (t ++ encodeRune r)) _ ih
      intro hmem
      exact (eq_of_mem_space hr hmem (by decide)).2
    · apply trimSpace_skip_append_comment (List.cons_ne_nil _ _)
        (show text "*/" = [0x2A] ++ [0x2F] by decide) (gap_block t) (gap_block (t ++ encodeRune r)) _ ih
      intro hmem
      exact (eq_of_mem_space hr hmem (by decide)).2
    · exact absurd (gap_eq_zero hspace hline hblock) hgap

/-- White space behind a text changes nothing but the end of the statement. -/
theorem trimSpace_skip_append_spaces {spaces : List ℕ} (hspaces : ∀ r ∈ spaces, isSpace r = true)
    (s : Text) :
    trimSpace (keywords.skip (s ++ encodeRunes spaces)) = trimSpace (keywords.skip s) := by
  induction spaces generalizing s with
  | nil => rw [encodeRunes, List.flatMap_nil, List.append_nil]
  | cons r spaces ih =>
    rw [List.forall_mem_cons] at hspaces
    rw [encodeRunes, List.flatMap_cons, ← List.append_assoc]
    exact (ih hspaces.2 _).trans (trimSpace_skip_append hspaces.1 s)

/-- What is left of a trimmed text is trimmed. -/
theorem trimSpace_skip_trimSpace (s : Text) :
    trimSpace (keywords.skip (trimSpace s)) = keywords.skip (trimSpace s) := by
  have htrimmed := (trimmed_trimSpace s).suffix (keywords.skip_suffix (trimSpace s))
  have hfirst := (of_gap_eq_zero (keywords.gap_skip (trimSpace s))).1
  rw [htrimmed.trimSpace_eq, trimLeftFunc_of_first hfirst]

/-- Trimming commutes with skipping comments. -/
theorem skip_trimSpace (s : Text) : keywords.skip (trimSpace s) = trimSpace (keywords.skip s) := by
  obtain ⟨spaces, hspaces, hsplit⟩ := exists_trimRightFunc (trimLeftFunc isSpace s)
  rw [← trimSpace] at hsplit
  calc keywords.skip (trimSpace s)
      = trimSpace (keywords.skip (trimSpace s)) := (trimSpace_skip_trimSpace s).symm
    _ = trimSpace (keywords.skip (trimLeftFunc isSpace s)) := by
        rw [hsplit, trimSpace_skip_append_spaces hspaces]
    _ = trimSpace (keywords.skip s) := by rw [skip_trimLeftFunc]

/-- The two strippers of comments agree on every text, up to the white space at its end, which the
classifier leaves. -/
theorem stripLeadingComments_eq_trimSpace (s : Text) :
    stripLeadingComments s = trimSpace (stripCommentsAndWhitespace s) := by
  rw [stripLeadingComments_eq_skip, skip_trimSpace, stripCommentsAndWhitespace_eq]

end Grunyas.Messaging
