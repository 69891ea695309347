import Grunyas.Classifier.Classify
import Grunyas.Go.Fields

/-!
# The text of a statement in decision events

White space is collapsed rune by rune and the result is cut at a number of bytes. What is left is
always short, without line feeds and without two spaces in a row; it is valid UTF-8, and the text that
cutting it again would leave, where the cut falls between two characters and not right behind a space.
-/

namespace Grunyas.Classifier

open GoText

/-- What the text in an event should be: at most so many bytes of valid UTF-8, without line feeds and
without adjacent spaces, the beginning of the whole text, and not changed by another cut. -/
structure CleanCut (maxLen : ℕ) (whole cut : Text) : Prop where
  length_le : cut.length ≤ maxLen
  valid : Valid cut
  no_feed : 0x0A ∉ cut
  no_double : ¬ [0x20, 0x20] <:+: cut
  front : cut <+: whole
  again : truncateSQL cut maxLen = cut

/-- The cut falls between two characters and not right behind a space. -/
def CutsWell (whole : Text) (maxLen : ℕ) : Prop :=
  (∀ b ∈ whole[maxLen]?, isContinuation b = false) ∧ ∀ b ∈ (whole.take maxLen).getLast?, b ≠ 0x20

/-- A line feed as a space. -/
def feedToSpace (r : ℕ) : ℕ := if r = 0x0A then 0x20 else r

theorem isSpace_feedToSpace (r : ℕ) : isSpace (feedToSpace r) = isSpace r := by
  rw [feedToSpace]
  split_ifs with h
  · rw [h]
    decide
  · rfl

theorem feedToSpace_of_not {r : ℕ} (h : isSpace r = false) : feedToSpace r = r := by
  apply if_neg
  rintro rfl
  cases h

/-- Replacing line feeds leaves no white space at the ends where there is none. -/
theorem framed_map_feedToSpace {rs : List ℕ} (h : Framed rs) : Framed (rs.map feedToSpace) := by
  constructor
  · intro r hr
    rw [List.head?_map] at hr
    obtain ⟨x, hx, rfl⟩ := Option.map_eq_some_iff.mp hr
    rw [isSpace_feedToSpace, h.1 x hx]
  · intro r hr
    rw [List.getLast?_map] at hr
    obtain ⟨x, hx, rfl⟩ := Option.map_eq_some_iff.mp hr
    rw [isSpace_feedToSpace, h.2 x hx]

/-- The text in an event is a cut of the trimmed statement with white space collapsed. -/
theorem truncateSQL_encodeRunes {rs : List ℕ} (hrs : ∀ r ∈ rs, IsScalar r) (maxLen : ℕ) :
    truncateSQL (encodeRunes rs) maxLen =
      (encodeRunes (collapseFrom false (trimRunes rs))).take maxLen := by
  have htrim : ∀ r ∈ trimRunes rs, IsScalar r := fun r hr => hrs r (mem_of_mem_trimRunes hr)
  have hscalar : ∀ r ∈ (trimRunes rs).map feedToSpace, IsScalar r := by
    intro r hr
    obtain ⟨x, hx, rfl⟩ := List.mem_map.mp hr
    rw [feedToSpace]
    split_ifs
    · exact Or.inl (by decide)
    · exact htrim x hx
  have hreplace : replaceByte 0x0A 0x20 (encodeRunes (trimRunes rs)) =
      encodeRunes ((trimRunes rs).map feedToSpace) :=
    replaceByte_encodeRunes (by decide) (by decide) htrim
  rw [truncateSQL, trimSpace_encodeRunes hrs, hreplace,
    intercalate_fields hscalar (framed_map_feedToSpace (framed_trimRunes rs)),
    collapseFrom_map isSpace_feedToSpace fun r => feedToSpace_of_not]

/-- Collapsing keeps scalar values. -/
theorem isScalar_collapseFrom {inRun : Bool} {rs : List ℕ} (hrs : ∀ r ∈ rs, IsScalar r) :
    ∀ r ∈ collapseFrom inRun rs, IsScalar r := by
  induction rs generalizing inRun with
  | nil => exact List.forall_mem_nil _
  | cons r rs ih =>
    rw [List.forall_mem_cons] at hrs
    rw [collapseFrom]
    split_ifs
    · exact ih hrs.2
    · exact List.forall_mem_cons.mpr ⟨Or.inl (by decide), ih hrs.2⟩
    · exact List.forall_mem_cons.mpr ⟨hrs.1, ih hrs.2⟩

/-- A collapsed text does not start with white space where the text does not. -/
theorem head?_collapseFrom {rs : List ℕ} (h : ∀ r ∈ rs.head?, isSpace r = false) :
    (collapseFrom false rs).head? = rs.head? := by
  cases rs with
  | nil => rfl
  | cons r rs =>
    rw [collapseFrom, if_neg (by simp [h r rfl])]
    rfl

/-- A collapsed text has no two spaces in a row. -/
theorem not_infix_of_collapsed {rs : List ℕ} (hrs : ∀ r ∈ rs, IsScalar r) (h : Collapsed rs) :
    ¬ [0x20, 0x20] <:+: encodeRunes rs := by
  rintro ⟨left, right, heq⟩
  rw [List.append_assoc] at heq
  have hdecode := congrArg runes heq
  rw [runes_encodeRunes hrs] at hdecode
  have hsplit : rs = runes left ++ 0x20 :: 0x20 :: runes right := by
    rw [← hdecode, List.cons_append, runes_append_lead (by decide), runes_cons_ascii (by decide),
      List.singleton_append, runes_cons_ascii (by decide)]
    rfl
  have hchain := (List.isChain_append.mp (hsplit ▸ h.2)).2.1
  exact (List.isChain_cons_cons.mp hchain).1 ⟨rfl, rfl⟩

/-- The last byte of a collapsed text is a space exactly if its last character is white space. -/
theorem getLast?_encodeRunes_iff {rs : List ℕ} (hrs : ∀ r ∈ rs, IsScalar r) (h : Collapsed rs) :
    (∀ b ∈ (encodeRunes rs).getLast?, b ≠ 0x20) ↔ ∀ r ∈ rs.getLast?, isSpace r = false := by
  induction rs using List.reverseRecOn with
  | nil => simp
  | append_singleton rs r _ =>
    have hr := hrs r (List.mem_append_right _ List.mem_cons_self)
    have hlast : (encodeRunes (rs ++ [r])).getLast? = (encodeRune r).getLast? := by
      rw [encodeRunes_append, encodeRunes_cons, encodeRunes_nil, List.append_nil,
        List.getLast?_append_of_ne_nil _ (encodeRune_ne_nil r)]
    rw [hlast, List.getLast?_append_of_ne_nil _ (List.cons_ne_nil r []), List.getLast?_singleton]
    constructor
    · intro hbyte x hx
      cases hx
      rw [← Bool.not_eq_true]
      intro hspace
      have heq := h.1 r (List.mem_append_right _ List.mem_cons_self) hspace
      rw [heq] at hbyte
      exact hbyte 0x20 rfl rfl
    · rintro hspace b hb rfl
      have heq := eq_of_mem_encodeRune hr (List.mem_of_mem_getLast? hb) (by decide)
      have hfalse := hspace r rfl
      rw [heq] at hfalse
      cases hfalse

/-- Cutting a collapsed text again, that was cut short enough, changes it exactly if it ends with
white space. -/
theorem truncateSQL_eq_self_iff {rs : List ℕ} (hrs : ∀ r ∈ rs, IsScalar r) (h : Collapsed rs)
    (hfirst : ∀ r ∈ rs.head?, isSpace r = false) {maxLen : ℕ}
    (hlength : (encodeRunes rs).length ≤ maxLen) :
    truncateSQL (encodeRunes rs) maxLen = encodeRunes rs ↔ ∀ r ∈ rs.getLast?, isSpace r = false := by
  obtain ⟨more, hmore⟩ := List.rdropWhile_prefix isSpace rs
  have htrim : trimRunes rs = rs.rdropWhile isSpace := by rw [trimRunes, dropWhile_of_head? hfirst]
  have hcollapse : collapseFrom false (trimRunes rs) = trimRunes rs := by
    apply Collapsed.collapseFrom_eq
    · rw [htrim]
      exact Collapsed.of_append (hmore ▸ h)
    · exact fun hfalse => absurd hfalse Bool.false_ne_true
  rw [truncateSQL_encodeRunes hrs, hcollapse]
  constructor
  · intro hsame
    have hshort : (encodeRunes (trimRunes rs)).length ≤ (encodeRunes rs).length := by
      rw [htrim]
      conv_rhs => rw [← hmore, encodeRunes_append, List.length_append]
      exact Nat.le_add_right _ _
    rw [List.take_of_length_le (hshort.trans hlength)] at hsame
    have hruns := congrArg runes hsame
    rw [runes_encodeRunes hrs, runes_encodeRunes fun r hr => hrs r (mem_of_mem_trimRunes hr)] at hruns
    have hframed := framed_trimRunes rs
    rw [hruns] at hframed
    exact hframed.2
  · intro hlast
    rw [Framed.trimRunes_eq ⟨hfirst, hlast⟩, List.take_of_length_le hlength]

section Cut

variable {rs : List ℕ} (hrs : ∀ r ∈ rs, IsScalar r) (maxLen : ℕ)

include hrs

/-- The trimmed text with white space collapsed. -/
theorem collapse_trimSpace :
    collapse (trimSpace (encodeRunes rs)) = encodeRunes (collapseFrom false (trimRunes rs)) := by
  rw [collapse, trimSpace_encodeRunes hrs, runes_encodeRunes]
  exact fun r hr => hrs r (mem_of_mem_trimRunes hr)

/-- The text in an event is clean exactly if the cut is good and the text is the beginning of the
whole. -/
theorem cleanCut_iff (whole : Text) :
    CleanCut maxLen whole (truncateSQL (encodeRunes rs) maxLen) ↔
      CutsWell (collapse (trimSpace (encodeRunes rs))) maxLen ∧
        truncateSQL (encodeRunes rs) maxLen <+: whole := by
  have hcollapsed := (collapsed_collapseFrom false (trimRunes rs)).1
  have hscalar : ∀ r ∈ collapseFrom false (trimRunes rs), IsScalar r :=
    isScalar_collapseFrom fun r hr => hrs r (mem_of_mem_trimRunes hr)
  rw [collapse_trimSpace hrs, truncateSQL_encodeRunes hrs]
  have hhead : ∀ r ∈ (collapseFrom false (trimRunes rs)).head?, isSpace r = false := by
    rw [head?_collapseFrom (framed_trimRunes rs).1]
    exact (framed_trimRunes rs).1
  generalize collapseFrom false (trimRunes rs) = collapsed at hcollapsed hscalar hhead
  obtain ⟨left, right, hsplit, htake, hbound⟩ | ⟨hinvalid, b, hb, hcont⟩ :=
    take_encodeRunes hscalar maxLen
  · rw [hsplit] at hcollapsed hscalar hhead
    have hleft : ∀ r ∈ left, IsScalar r := fun r hr => hscalar r (List.mem_append_left _ hr)
    have hkept : ∀ r ∈ left.head?, isSpace r = false := by
      intro r hr
      exact hhead r (List.mem_head?_append_of_mem_head? hr)
    have hlength : (encodeRunes left).length ≤ maxLen := by
      rw [← htake]
      exact List.length_take_le _ _
    have hagain := truncateSQL_eq_self_iff hleft hcollapsed.of_append hkept hlength
    have hlast := getLast?_encodeRunes_iff hleft hcollapsed.of_append
    rw [CutsWell, htake]
    constructor
    · intro hclean
      exact ⟨⟨hbound, hlast.mpr (hagain.mp hclean.again)⟩, hclean.front⟩
    · rintro ⟨⟨-, hend⟩, hwhole⟩
      refine ⟨hlength, ⟨left, hleft, rfl⟩, ?_, not_infix_of_collapsed hleft hcollapsed.of_append,
        hwhole, hagain.mpr (hlast.mp hend)⟩
      apply not_mem_encodeRunes hleft (by decide)
      intro hfeed
      exact absurd (hcollapsed.of_append.1 _ hfeed (by decide)) (by decide)
  · apply iff_of_false
    · exact fun hclean => hinvalid hclean.valid
    · rintro ⟨⟨hbound, -⟩, -⟩
      rw [hbound b hb] at hcont
      cases hcont

omit hrs in
/-- Where nothing is trimmed in front, the collapsed text starts with that of the trimmed text. -/
theorem collapseFrom_trimRunes_front (hfirst : ∀ r ∈ rs.head?, isSpace r = false) :
    encodeRunes (collapseFrom false (trimRunes rs)) <+: encodeRunes (collapseFrom false rs) := by
  obtain ⟨more, hmore⟩ := List.rdropWhile_prefix isSpace rs
  have htrim : trimRunes rs = rs.rdropWhile isSpace := by rw [trimRunes, dropWhile_of_head? hfirst]
  obtain ⟨behind, hbehind⟩ := collapseFrom_append_front false (trimRunes rs) more
  rw [htrim, hmore] at hbehind
  rw [← hbehind, encodeRunes_append, htrim]
  exact List.prefix_append _ _

/-- A text with white space in front collapses to one that starts with a space; what is left of the
trimmed text does not. -/
theorem eq_zero_of_front {r : ℕ} (hr : isSpace r = true) (hne : trimRunes rs ≠ [])
    (hfront : (encodeRunes (collapseFrom false (trimRunes rs))).take maxLen <+:
      encodeRunes (collapseFrom false (r :: rs))) : maxLen = 0 := by
  by_contra hlen
  obtain ⟨first, rest, hfirst⟩ := List.exists_cons_of_ne_nil hne
  have hspace := (framed_trimRunes rs).1 first (by rw [hfirst]; rfl)
  have hscalar := hrs first (mem_of_mem_trimRunes (hfirst ▸ List.mem_cons_self))
  obtain ⟨b, bytes, he⟩ := List.exists_cons_of_ne_nil (encodeRune_ne_nil first)
  obtain ⟨n, rfl⟩ := Nat.exists_eq_succ_of_ne_zero hlen
  rw [hfirst, collapseFrom, if_neg (by simp [hspace]), encodeRunes_cons, he, List.cons_append,
    List.take_succ_cons, collapseFrom, if_pos hr] at hfront
  have hb : b = 0x20 := (List.cons_prefix_cons.mp hfront).1
  have heq := eq_of_mem_encodeRune hscalar (he ▸ List.mem_cons_self) (show b.toNat < 0x80 by
    rw [hb]; decide)
  rw [heq, hb] at hspace
  cases hspace

/-- The text in an event is the beginning of the collapsed text unless white space in front was
trimmed. -/
theorem truncateSQL_front_iff :
    truncateSQL (encodeRunes rs) maxLen <+: collapse (encodeRunes rs) ↔
      maxLen = 0 ∨ trimSpace (encodeRunes rs) = [] ∨
        isSpace (decodeRune (encodeRunes rs)).1 = false := by
  have hbegin := List.take_prefix maxLen (encodeRunes (collapseFrom false (trimRunes rs)))
  rw [truncateSQL_encodeRunes hrs, trimSpace_encodeRunes hrs, encodeRunes_eq_nil_iff, collapse,
    runes_encodeRunes hrs]
  cases rs with
  | nil => exact iff_of_true hbegin (Or.inr (Or.inl rfl))
  | cons r rs =>
    rw [encodeRunes_cons, decodeRune_encodeRune (hrs r List.mem_cons_self)]
    cases hr : isSpace r with
    | false =>
      apply iff_of_true _ (Or.inr (Or.inr rfl))
      apply hbegin.trans
      apply collapseFrom_trimRunes_front
      rintro x ⟨⟩
      exact hr
    | true =>
      have htrim : trimRunes (r :: rs) = trimRunes rs := by
        rw [trimRunes, List.dropWhile_cons, if_pos hr, trimRunes]
      rw [htrim]
      constructor
      · intro hfront
        by_cases hne : trimRunes rs = []
        · exact Or.inr (Or.inl hne)
        · exact Or.inl (eq_zero_of_front (List.forall_mem_cons.mp hrs).2 maxLen hr hne hfront)
      · rintro (rfl | hnil | hfalse)
        · exact List.nil_prefix
        · rw [hnil, collapseFrom, encodeRunes_nil, List.take_nil]
          exact List.nil_prefix
        · cases hfalse

end Cut

/-- The text in an event is clean exactly if the cut falls between two characters and not right
behind a space. As the beginning of the statement itself, and not of the trimmed statement, it also
needs a statement without white space in front, or nothing left of it. -/
theorem truncateSQL_clean_iff (sql : Text) (maxLen : ℕ) (hvalid : Valid sql) :
    (CleanCut maxLen (collapse (trimSpace sql)) (truncateSQL sql maxLen) ↔
      CutsWell (collapse (trimSpace sql)) maxLen) ∧
    (CleanCut maxLen (collapse sql) (truncateSQL sql maxLen) ↔
      CutsWell (collapse (trimSpace sql)) maxLen ∧
        (maxLen = 0 ∨ trimSpace sql = [] ∨ isSpace (decodeRune sql).1 = false)) := by
  obtain ⟨rs, hrs, rfl⟩ := hvalid
  have hbegin := List.take_prefix maxLen (encodeRunes (collapseFrom false (trimRunes rs)))
  rw [← truncateSQL_encodeRunes hrs, ← collapse_trimSpace hrs] at hbegin
  rw [cleanCut_iff hrs, cleanCut_iff hrs, truncateSQL_front_iff hrs, and_iff_left hbegin]
  exact ⟨Iff.rfl, Iff.rfl⟩

/-- A statement over two lines, with room for all of it. -/
theorem truncateSQL_clean_select :
    CleanCut 256 (collapse (trimSpace (text "SELECT\n 1"))) (truncateSQL (text "SELECT\n 1") 256) := by
  have hvalid : Valid (text "SELECT\n 1") :=
    ⟨runes (text "SELECT\n 1"), by unfold IsScalar; decide, by decide⟩
  apply (truncateSQL_clean_iff _ 256 hvalid).1.mpr
  unfold CutsWell
  decide +kernel

/-- A statement cut within its last character, and one cut right behind a space: the first is no valid
text any more, the second loses its last byte when it is cut again. -/
theorem truncateSQL_not_clean :
    (Valid (text "SELECT é") ∧ ¬ Valid (truncateSQL (text "SELECT é") 8)) ∧
      Valid (text "SELECT 1") ∧
      truncateSQL (truncateSQL (text "SELECT 1") 7) 7 ≠ truncateSQL (text "SELECT 1") 7 := by
  have hcut : encodeRunes (runes (truncateSQL (text "SELECT é") 8)) ≠ truncateSQL (text "SELECT é") 8 := by
    decide
  refine ⟨⟨⟨runes (text "SELECT é"), by unfold IsScalar; decide, by decide⟩, ?_⟩,
    ⟨runes (text "SELECT 1"), by unfold IsScalar; decide, by decide⟩,
    by decide⟩
  intro hvalid
  exact hcut hvalid.encodeRunes_runes

end Grunyas.Classifier
