import Grunyas.Session.State

/-!
# The ways to write `ROLLBACK`

A client may write the command in any letter case, with white space around it and a semicolon
after it. The session recognises a text by comparing its trimmed lower case, so a semicolon hides
the command unless a blank follows the word.
-/

namespace Grunyas.Server

open GoText Grunyas.Messaging

/-- The runes of `rollback`. -/
def rollbackRunes : List ℕ := [0x72, 0x6F, 0x6C, 0x6C, 0x62, 0x61, 0x63, 0x6B]

/-- One way to write `ROLLBACK`: white space, the word, perhaps more white space and a semicolon,
and white space. -/
structure RollbackText where
  left : List ℕ
  word : List ℕ
  semicolon : Option (List ℕ)
  right : List ℕ
  left_space : ∀ r ∈ left, isSpace r = true
  word_ascii : ∀ r ∈ word, r < 0x80
  word_lower : word.map lowerRune = rollbackRunes
  gap_space : ∀ gap ∈ semicolon, ∀ r ∈ gap, isSpace r = true
  right_space : ∀ r ∈ right, isSpace r = true

/-- What follows the word, up to the semicolon. -/
def RollbackText.tail (t : RollbackText) : List ℕ :=
  match t.semicolon with
  | none => []
  | some gap => gap ++ [0x3B]

/-- The text the client sends. -/
def RollbackText.sql (t : RollbackText) : Text :=
  encodeRunes (t.left ++ (t.word ++ t.tail) ++ t.right)

/-- Whether the session recognises the text: there is no semicolon, or a blank after the word. -/
def RollbackText.plain (t : RollbackText) : Bool :=
  match t.semicolon with
  | none => true
  | some gap => gap.head? == some 0x20

/-- The command in upper case, alone. -/
def RollbackText.bare : RollbackText where
  left := []
  word := [0x52, 0x4F, 0x4C, 0x4C, 0x42, 0x41, 0x43, 0x4B]
  semicolon := none
  right := []
  left_space := by simp
  word_ascii := by decide
  word_lower := by decide
  gap_space := by simp
  right_space := by simp

/-- The command in upper case with a semicolon. -/
def RollbackText.terminated : RollbackText :=
  { RollbackText.bare with semicolon := some [], gap_space := by simp }

/-- An ASCII letter of the word is not white space, a hyphen, a slash or a semicolon. -/
theorem letter_of_lower {r : ℕ} (hr : r < 0x80) (hl : lowerRune r ∈ rollbackRunes) :
    isSpace r = false ∧ r ≠ 0x2D ∧ r ≠ 0x2F ∧ r ≠ 0x3B := by
  have hall : ∀ r < 0x80, lowerRune r ∈ rollbackRunes →
      isSpace r = false ∧ r ≠ 0x2D ∧ r ≠ 0x2F ∧ r ≠ 0x3B := by decide
  exact hall r hr hl

/-- The letters of the word. -/
theorem RollbackText.letter (t : RollbackText) {r : ℕ} (hr : r ∈ t.word) :
    isSpace r = false ∧ r ≠ 0x2D ∧ r ≠ 0x2F ∧ r ≠ 0x3B :=
  letter_of_lower (t.word_ascii r hr) (t.word_lower ▸ List.mem_map_of_mem hr)

/-- The word has a first and a last letter. -/
theorem RollbackText.word_eq (t : RollbackText) :
    ∃ first middle last, t.word = first :: middle ++ [last] := by
  have hlen : t.word.length = 8 := by
    have h := congrArg List.length t.word_lower
    simpa [rollbackRunes] using h
  cases hw : t.word with
  | nil => simp [hw] at hlen
  | cons first rest =>
    have hne : rest ≠ [] := by
      rintro rfl
      simp [hw] at hlen
    exact ⟨first, rest.dropLast, rest.getLast hne, by simp [List.dropLast_append_getLast hne]⟩

/-- Beyond the word there is white space and perhaps a semicolon. -/
theorem RollbackText.tail_cases (t : RollbackText) {r : ℕ} (hr : r ∈ t.tail) :
    isSpace r = true ∨ r = 0x3B := by
  unfold RollbackText.tail at hr
  cases hs : t.semicolon with
  | none => simp [hs] at hr
  | some gap =>
    simp only [hs, List.mem_append, List.mem_singleton] at hr
    exact hr.imp_left fun h => t.gap_space gap hs r h

/-- Every rune of the text is a scalar value. -/
theorem RollbackText.scalar (t : RollbackText) :
    ∀ r ∈ t.left ++ (t.word ++ t.tail) ++ t.right, IsScalar r := by
  intro r hr
  have hspace : isSpace r = true → IsScalar r := isScalar_of_isSpace
  have hascii : r < 0x80 → IsScalar r := fun h => .inl (by omega)
  simp only [List.mem_append] at hr
  obtain (hr | hr | hr) | hr := hr
  · exact hspace (t.left_space r hr)
  · exact hascii (t.word_ascii r hr)
  · obtain h | rfl := t.tail_cases hr
    · exact hspace h
    · exact hascii (by omega)
  · exact hspace (t.right_space r hr)

/-- Lower-casing keeps white space and semicolons. -/
theorem map_lowerRune_of_space {rs : List ℕ} (hrs : ∀ r ∈ rs, isSpace r = true ∨ r = 0x3B) :
    rs.map lowerRune = rs := by
  have h : ∀ r ∈ rs, lowerRune r = id r := by
    intro r hr
    obtain h | rfl := hrs r hr
    · exact lowerRune_of_isSpace h
    · decide
  rw [List.map_congr_left h, List.map_id]

/-- Lower-casing touches the word only. -/
theorem RollbackText.map_lower (t : RollbackText) :
    (t.left ++ (t.word ++ t.tail) ++ t.right).map lowerRune =
      t.left ++ (rollbackRunes ++ t.tail) ++ t.right := by
  have hleft := map_lowerRune_of_space fun r hr => .inl (t.left_space r hr)
  have htail := map_lowerRune_of_space fun r hr => t.tail_cases hr
  have hright := map_lowerRune_of_space fun r hr => .inl (t.right_space r hr)
  simp only [List.map_append, hleft, htail, hright, t.word_lower]

/-- Trimming white space around the command. -/
theorem trimSpace_rollback {left right tail : List ℕ} (hleft : ∀ r ∈ left, isSpace r = true)
    (hright : ∀ r ∈ right, isSpace r = true) (htail : tail = [] ∨ ∃ gap, tail = gap ++ [0x3B]) :
    trimSpace (encodeRunes (left ++ (rollbackRunes ++ tail) ++ right)) =
      text "rollback" ++ encodeRunes tail := by
  have hword : text "rollback" = encodeRunes rollbackRunes := by decide
  have hends : ∃ middle last, rollbackRunes ++ tail = 0x72 :: middle ++ [last] ∧
      last < 0x80 ∧ isSpace last = false := by
    obtain rfl | ⟨gap, rfl⟩ := htail
    · exact ⟨[0x6F, 0x6C, 0x6C, 0x62, 0x61, 0x63], 0x6B, rfl, by decide, by decide⟩
    · exact ⟨[0x6F, 0x6C, 0x6C, 0x62, 0x61, 0x63, 0x6B] ++ gap, 0x3B, by simp [rollbackRunes],
        by decide, by decide⟩
  obtain ⟨middle, last, heq, hlt, hlast⟩ := hends
  rw [hword, ← encodeRunes_append, heq]
  exact trimSpace_padded 0x72 middle last hleft hright (.inl (by omega)) (by decide)
    (.inl (by omega)) hlast

/-- The trimmed lower case of the text. -/
theorem RollbackText.trim_lower (t : RollbackText) :
    trimSpace (toLower t.sql) = text "rollback" ++ encodeRunes t.tail := by
  rw [RollbackText.sql, toLower_encodeRunes t.scalar, t.map_lower]
  apply trimSpace_rollback t.left_space t.right_space
  unfold RollbackText.tail
  cases t.semicolon with
  | none => exact .inl rfl
  | some gap => exact .inr ⟨gap, rfl⟩

/-- A blank follows the word only where the white space after it starts with one. -/
theorem blank_prefix_iff {g : ℕ} (hg : isSpace g = true) (rest : Text) :
    text " " <+: encodeRune g ++ rest ↔ g = 0x20 := by
  have hfirst : ∀ g ∈ spaceRunes, (encodeRune g).head? = some 0x20 ↔ g = 0x20 := by decide
  obtain ⟨b, bs, he⟩ := List.exists_cons_of_ne_nil (encodeRune_ne_nil g)
  have hhead := hfirst g (of_decide_eq_true hg)
  have hblank : text " " = [0x20] := by decide
  rw [he] at hhead ⊢
  rw [hblank, List.cons_append, List.cons_prefix_cons, ← hhead]
  simp [eq_comm]

/-- The session recognises the text exactly if no semicolon hides the word. -/
theorem RollbackText.isRollback_sql (t : RollbackText) : isRollback t.sql = t.plain := by
  have hprefix : text "rollback " = text "rollback" ++ text " " := by decide
  rw [Bool.eq_iff_iff]
  simp only [isRollback, t.trim_lower, Bool.or_eq_true, beq_iff_eq, hasPrefix,
    List.isPrefixOf_iff_prefix, hprefix, List.prefix_append_right_inj, RollbackText.plain,
    RollbackText.tail]
  cases hs : t.semicolon with
  | none => simp [encodeRunes]
  | some gap =>
    cases gap with
    | nil => decide
    | cons g gap =>
      have hg : isSpace g = true := t.gap_space _ hs g List.mem_cons_self
      have hne : encodeRune g ≠ [] := encodeRune_ne_nil g
      have heq : encodeRunes (g :: gap ++ [0x3B]) = encodeRune g ++ encodeRunes (gap ++ [0x3B]) := rfl
      rw [heq, blank_prefix_iff hg]
      simp [hne]

/-- The text is no `BEGIN`. -/
theorem RollbackText.not_transactionStart (t : RollbackText) : isTransactionStart t.sql = false := by
  have hr : text "rollback" = 0x72 :: text "ollback" := by decide
  have hb : text "begin" = 0x62 :: text "egin" := by decide
  have hb' : text "begin " = 0x62 :: text "egin " := by decide
  have hs : text "start transaction" = 0x73 :: text "tart transaction" := by decide
  have hs' : text "start transaction " = 0x73 :: text "tart transaction " := by decide
  simp [isTransactionStart, t.trim_lower, hasPrefix, List.isPrefixOf, hr, hb, hb', hs, hs']

/-- White space sets no session state. -/
theorem statementUsesSessionState_spaces {spaces : List ℕ} (hs : ∀ r ∈ spaces, isSpace r = true) :
    statementUsesSessionState (encodeRunes spaces) = false := by
  simp [statementUsesSessionState, trimSpace_spaces hs]

/-- The word trims to itself, with white space around it or without. -/
theorem RollbackText.trim_word (t : RollbackText) {left right : List ℕ}
    (hleft : ∀ r ∈ left, isSpace r = true) (hright : ∀ r ∈ right, isSpace r = true) :
    trimSpace (encodeRunes (left ++ t.word ++ right)) = encodeRunes t.word := by
  obtain ⟨first, middle, last, hw⟩ := t.word_eq
  have hmem : first ∈ t.word ∧ last ∈ t.word := by simp [hw]
  have hf := t.word_ascii first hmem.1
  have hl := t.word_ascii last hmem.2
  rw [hw]
  exact trimSpace_padded first middle last hleft hright (.inl (by omega)) (t.letter hmem.1).1
    (.inl (by omega)) (t.letter hmem.2).1

/-- The word does not start a comment. -/
theorem RollbackText.stripLeadingComments_word (t : RollbackText) :
    stripLeadingComments (encodeRunes t.word) = encodeRunes t.word := by
  have htrim : trimSpace (encodeRunes t.word) = encodeRunes t.word := by
    have h := t.trim_word (List.forall_mem_nil _) (List.forall_mem_nil _)
    simpa using h
  obtain ⟨first, middle, last, hw⟩ := t.word_eq
  have hmem : first ∈ t.word := by simp [hw]
  have hf := t.word_ascii first hmem
  have hbytes : encodeRunes t.word = .ofNat first :: encodeRunes (middle ++ [last]) := by
    simp [hw, encodeRunes, encodeRune, hf]
  have hbyte : ∀ n < 0x80, first ≠ n → UInt8.ofNat n ≠ UInt8.ofNat first := by
    intro n hn hne heq
    have h := congrArg UInt8.toNat heq
    rw [toNat_ofNat_of_lt (by omega), toNat_ofNat_of_lt (by omega)] at h
    exact hne h.symm
  have hdash := hbyte 0x2D (by omega) (t.letter hmem).2.1
  have hslash := hbyte 0x2F (by omega) (t.letter hmem).2.2.1
  have hline : hasPrefix (encodeRunes t.word) (text "--") = false := by
    have h : text "--" = .ofNat 0x2D :: [.ofNat 0x2D] := by decide
    rw [hbytes, h, hasPrefix, List.isPrefixOf, beq_false_of_ne hdash, Bool.false_and]
  have hblock : hasPrefix (encodeRunes t.word) (text "/*") = false := by
    have h : text "/*" = .ofNat 0x2F :: [.ofNat 0x2A] := by decide
    rw [hbytes, h, hasPrefix, List.isPrefixOf, beq_false_of_ne hslash, Bool.false_and]
  simp [stripLeadingComments, stripLeadingLoop, htrim, hline, hblock]

/-- The command sets no session state. -/
theorem RollbackText.statement_not_pins (t : RollbackText) {gap : List ℕ}
    (hgap : ∀ r ∈ gap, isSpace r = true) :
    statementUsesSessionState (encodeRunes (t.left ++ t.word ++ gap)) = false := by
  have hscalar : ∀ r ∈ t.word, IsScalar r := fun r hr => .inl (by have := t.word_ascii r hr; omega)
  have hlower : toLower (encodeRunes t.word) = text "rollback" := by
    rw [toLower_encodeRunes hscalar, t.word_lower]
    decide
  have hset : hasPrefix (text "rollback") (text "set ") = false := by decide
  have hprepare : hasPrefix (text "rollback") (text "prepare ") = false := by decide
  simp only [statementUsesSessionState, t.trim_word t.left_space hgap, t.stripLeadingComments_word,
    hlower, hset, hprepare, Bool.false_eq_true, if_false, ite_self]

/-- There is no semicolon before the one that ends the command. -/
theorem RollbackText.semicolon_not_mem (t : RollbackText) {gap : List ℕ}
    (hgap : ∀ r ∈ gap, isSpace r = true) :
    (0x3B : UInt8) ∉ encodeRunes (t.left ++ t.word ++ gap) := by
  have hcases : ∀ r ∈ t.left ++ t.word ++ gap, isSpace r = true ∨ r ∈ t.word := by
    intro r hr
    simp only [List.mem_append] at hr
    obtain (hr | hr) | hr := hr
    · exact .inl (t.left_space r hr)
    · exact .inr hr
    · exact .inl (hgap r hr)
  apply not_mem_encodeRunes
  · intro r hr
    obtain h | h := hcases r hr
    · exact isScalar_of_isSpace h
    · exact .inl (by have := t.word_ascii r h; omega)
  · decide
  · intro hr
    obtain h | h := hcases _ hr
    · exact absurd h (by decide)
    · exact absurd rfl (t.letter h).2.2.2

/-- Neither the command nor what surrounds it sets session state. -/
theorem RollbackText.not_pins (t : RollbackText) : queryUsesSessionState t.sql = false := by
  unfold queryUsesSessionState RollbackText.sql RollbackText.tail
  cases hs : t.semicolon with
  | none =>
    have hsql : t.left ++ (t.word ++ []) ++ t.right = t.left ++ t.word ++ t.right := by simp
    rw [hsql, splitByte_of_not_mem (t.semicolon_not_mem t.right_space), List.any_cons, List.any_nil,
      t.statement_not_pins t.right_space, Bool.or_false]
  | some gap =>
    have hgap := t.gap_space gap hs
    have hsql : encodeRunes (t.left ++ (t.word ++ (gap ++ [0x3B])) ++ t.right) =
        encodeRunes (t.left ++ t.word ++ gap) ++ 0x3B :: encodeRunes t.right := by
      simp [encodeRunes, encodeRune]
    have hright : (0x3B : UInt8) ∉ encodeRunes t.right := by
      have h := t.semicolon_not_mem t.right_space
      rw [encodeRunes_append] at h
      exact fun hr => h (List.mem_append_right _ hr)
    rw [hsql, splitByte_append (t.semicolon_not_mem hgap), splitByte_of_not_mem hright,
      List.any_cons, List.any_cons, List.any_nil, t.statement_not_pins hgap,
      statementUsesSessionState_spaces t.right_space, Bool.or_false, Bool.or_false]

end Grunyas.Server
