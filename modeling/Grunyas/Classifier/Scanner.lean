import Grunyas.Classifier.Classify
import Grunyas.Go.Runes
import Grunyas.Sql.Reading

/-!
# How the scanner reads a statement

The classifier's loops read a text in one way throughout: white space is what Unicode calls so, a
line comment ends behind the next line feed, a block comment behind the next `*/` wherever it
stands, and a keyword ends at white space, an opening parenthesis or a semicolon only. Within a
parenthesised list an option ends at white space, a comma or a parenthesis, and the next one is
looked for behind the next comma. These are two `Reading`s, `keywords` and `options`; the loops
are their `skip` and `spans`, and what classifies as a read is said in their terms.
-/

namespace Grunyas.Classifier

open GoText Grunyas.Server

/-- The length of the white space or comment in front of a text. -/
def flatGap (s : Text) : ℕ :=
  if isSpace (decodeRune s).1 then (decodeRune s).2
  else if hasPrefix s (text "--") then bytesThrough (text "\n") s
  else if hasPrefix s (text "/*") then bytesThrough (text "*/") s
  else 0

/-- Keywords, and bare flags after `EXPLAIN`, one behind the other. -/
def keywords : Sql.Reading UInt8 where
  gap := flatGap
  word := bytesBefore endsKeyword
  next := bytesBefore endsKeyword
  gap_nil := rfl
  word_nil := rfl
  next_ne_zero h := h

/-- The options of a list, one behind each comma. -/
def options : Sql.Reading UInt8 where
  gap s := if hasPrefix s (text ",") then 1 else flatGap s
  word := bytesBefore endsOption
  next := bytesThrough (text ",")
  gap_nil := rfl
  word_nil := rfl
  next_ne_zero {s} h := by
    rw [bytesThrough]
    cases index (text ",") s with
    | some comma => exact Nat.succ_ne_zero comma
    | none =>
      intro hnil
      obtain rfl : s = [] := List.length_eq_zero_iff.mp hnil
      exact h rfl

/-- The end of the first word of a text. -/
def wordEnd (s : Text) : ℕ := keywords.lead s + keywords.word (keywords.skip s)

/-- The text behind the first word. -/
def afterWord (s : Text) : Text := (keywords.skip s).drop (keywords.word (keywords.skip s))

/-- The end of `ANALYZE` in a text whose words are bare flags up to it. -/
def bareAnalyze (s : Text) : Option ℕ :=
  match (keywords.spans s).dropWhile fun span => bareFlags.contains (toLower span.1) with
  | span :: _ => if toLower span.1 = text "analyze" then some span.2 else none
  | [] => none

/-- The end of `ANALYZE` behind bare flags, and that of the rune behind it, which ends the word. -/
def bareSpan (s : Text) : Option (ℕ × ℕ) :=
  (bareAnalyze s).map fun stop => (stop, stop + (decodeRune (s.drop stop)).2)

/-- Where `ANALYZE` is found from behind an opening parenthesis on: at the end of the list that
names it, or behind bare flags that follow the list. -/
def listSpan (s : Text) : Option (ℕ × ℕ) :=
  (closingParen 1 s).bind fun close =>
    if (options.words (s.take (close - 1))).any (toLower · == text "analyze") then some (close, close)
    else (bareSpan (s.drop close)).map fun span => (close + span.1, close + span.2)

/-- Where `ANALYZE` is found after `EXPLAIN`. -/
def analyzeSpan (afterExplain : Text) : Option (ℕ × ℕ) :=
  let s := keywords.skip afterExplain
  if hasPrefix s (text "(") then
    (listSpan (s.drop 1)).map fun span =>
      (keywords.lead afterExplain + 1 + span.1, keywords.lead afterExplain + 1 + span.2)
  else bareSpan afterExplain

/-- A text that starts with a one-byte text starts with its byte. -/
theorem hasPrefix_singleton {b : UInt8} {s : Text} : hasPrefix s [b] = true ↔ ∃ t, s = b :: t := by
  rw [hasPrefix, List.isPrefixOf_iff_prefix]
  exact exists_congr fun t => eq_comm

/-- A text that starts with two bytes. -/
theorem hasPrefix_pair {a b : UInt8} {s : Text} :
    hasPrefix s [a, b] = true ↔ ∃ t, s = a :: b :: t := by
  rw [hasPrefix, List.isPrefixOf_iff_prefix]
  exact exists_congr fun t => eq_comm

theorem hasPrefix_line {s : Text} : hasPrefix s (text "--") = true ↔ ∃ t, s = 0x2D :: 0x2D :: t := by
  rw [show text "--" = [0x2D, 0x2D] by decide, hasPrefix_pair]

theorem hasPrefix_block {s : Text} : hasPrefix s (text "/*") = true ↔ ∃ t, s = 0x2F :: 0x2A :: t := by
  rw [show text "/*" = [0x2F, 0x2A] by decide, hasPrefix_pair]

theorem gap_keywords (s : Text) : keywords.gap s = flatGap s := rfl

theorem word_keywords (s : Text) : keywords.word s = bytesBefore endsKeyword s := rfl

/-- A rune of white space is a piece. -/
theorem gap_space {head rest : Text} {r : ℕ} (hd : decodeRune (head ++ rest) = (r, head.length))
    (hr : isSpace r = true) : keywords.gap (head ++ rest) = head.length := by
  simp [keywords, flatGap, hd, hr]

/-- A line comment is taken up to the next line feed. -/
theorem gap_line (t : Text) :
    keywords.gap (0x2D :: 0x2D :: t) = bytesThrough (text "\n") (0x2D :: 0x2D :: t) := by
  have hspace : ¬ isSpace (decodeRune (0x2D :: 0x2D :: t)).1 = true := Bool.false_ne_true
  rw [gap_keywords, flatGap, if_neg hspace, if_pos (hasPrefix_line.mpr ⟨t, rfl⟩)]

/-- A block comment is taken up to the next `*/`, which may share a byte with its opener. -/
theorem gap_block (t : Text) :
    keywords.gap (0x2F :: 0x2A :: t) = bytesThrough (text "*/") (0x2F :: 0x2A :: t) := by
  have hspace : ¬ isSpace (decodeRune (0x2F :: 0x2A :: t)).1 = true := Bool.false_ne_true
  have hline : ¬ hasPrefix (0x2F :: 0x2A :: t) (text "--") = true := by
    intro h
    obtain ⟨t', ht'⟩ := hasPrefix_line.mp h
    exact absurd (List.cons_eq_cons.mp ht').1 (by decide)
  rw [gap_keywords, flatGap, if_neg hspace, if_neg hline, if_pos (hasPrefix_block.mpr ⟨t, rfl⟩)]

/-- Nothing else is a piece. -/
theorem gap_eq_zero {s : Text} (hspace : isSpace (decodeRune s).1 = false)
    (hline : hasPrefix s (text "--") = false) (hblock : hasPrefix s (text "/*") = false) :
    keywords.gap s = 0 := by
  simp [keywords, flatGap, hspace, hline, hblock]

/-- What is in front of a text: white space, a comment, or neither. -/
theorem gap_cases (s : Text) :
    (∃ head rest r, head ≠ [] ∧ s = head ++ rest ∧ decodeRune s = (r, head.length) ∧
      isSpace r = true) ∨
    (∃ t, s = 0x2D :: 0x2D :: t) ∨ (∃ t, s = 0x2F :: 0x2A :: t) ∨
    (isSpace (decodeRune s).1 = false ∧ hasPrefix s (text "--") = false ∧
      hasPrefix s (text "/*") = false) := by
  cases hspace : isSpace (decodeRune s).1 with
  | true =>
    have hs : s ≠ [] := by
      rintro rfl
      exact absurd hspace (by decide)
    obtain ⟨head, rest, r, hne, rfl, hd⟩ := exists_rune hs
    rw [hd] at hspace
    exact .inl ⟨head, rest, r, hne, rfl, hd, hspace⟩
  | false =>
    cases hline : hasPrefix s (text "--") with
    | true => exact .inr (.inl (hasPrefix_line.mp hline))
    | false =>
      cases hblock : hasPrefix s (text "/*") with
      | true => exact .inr (.inr (.inl (hasPrefix_block.mp hblock)))
      | false => exact .inr (.inr (.inr ⟨rfl, rfl, rfl⟩))

/-- Nothing is skipped in front of a byte that starts neither white space nor a comment. -/
theorem gap_cons_eq_zero {b : UInt8} {s : Text} (hspace : isSpace (decodeRune (b :: s)).1 = false)
    (hline : b = 0x2D → s.head? ≠ some 0x2D) (hblock : b = 0x2F → s.head? ≠ some 0x2A) :
    keywords.gap (b :: s) = 0 := by
  apply gap_eq_zero hspace
  · rw [← Bool.not_eq_true, hasPrefix_line]
    rintro ⟨t, ht⟩
    obtain ⟨rfl, rfl⟩ := List.cons_eq_cons.mp ht
    exact hline rfl rfl
  · rw [← Bool.not_eq_true, hasPrefix_block]
    rintro ⟨t, ht⟩
    obtain ⟨rfl, rfl⟩ := List.cons_eq_cons.mp ht
    exact hblock rfl rfl

/-- The ASCII bytes that start neither white space nor a comment. -/
def solid (b : UInt8) : Bool := b.toNat < 0x80 && !isSpace b.toNat && b != 0x2D && b != 0x2F

/-- Nothing is skipped in front of a solid byte. -/
theorem gap_of_solid {b : UInt8} (hb : solid b = true) (s : Text) : keywords.gap (b :: s) = 0 := by
  simp only [solid, Bool.and_eq_true, decide_eq_true_eq, Bool.not_eq_true', bne_iff_ne] at hb
  obtain ⟨⟨⟨hascii, hspace⟩, hdash⟩, hslash⟩ := hb
  refine gap_cons_eq_zero ?_ (fun h => absurd h hdash) (fun h => absurd h hslash)
  simpa [decodeRune, hascii] using hspace

/-- White space in front is skipped rune by rune. -/
theorem skip_trimLeftFunc (s : Text) : keywords.skip (trimLeftFunc isSpace s) = keywords.skip s := by
  induction s using rune_induction with
  | nil => rfl
  | rune head rest r hne hd ih =>
    cases hr : isSpace r with
    | false => rw [trimLeftFunc, dropRunes_of_not hne hd hr]
    | true =>
      have hgap := gap_space hd hr
      have hpos : keywords.gap (head ++ rest) ≠ 0 := by
        rw [hgap]
        exact Nat.ne_of_gt (List.length_pos_of_ne_nil hne)
      rw [trimLeftFunc, dropRunes_of_decode hne hd hr, Sql.Reading.skip_of_gap hpos, hgap,
        List.drop_left]
      exact ih

/-- A piece measured by a search is skipped up to what the search finds, or to the end. -/
theorem skip_of_found {s sub : Text} (hs : s ≠ []) (hsub : sub ≠ [])
    (hgap : keywords.gap s = bytesThrough sub s) :
    keywords.skip s =
      (index sub s).elim [] fun i => keywords.skip (s.drop (i + sub.length)) := by
  have hlen := List.length_pos_of_ne_nil hs
  have hpos := List.length_pos_of_ne_nil hsub
  rw [bytesThrough] at hgap
  cases hindex : index sub s with
  | some i =>
    rw [hindex, Option.map_some, Option.getD_some] at hgap
    rw [Sql.Reading.skip_of_gap (by omega), hgap]
    rfl
  | none =>
    rw [hindex, Option.map_none, Option.getD_none] at hgap
    rw [Sql.Reading.skip_of_gap (by omega), hgap, List.drop_length, Sql.Reading.skip_nil,
      Option.elim_none]

/-- Removing comments and white space is skipping what the scanner takes for them. -/
theorem stripCommentsAndWhitespace_eq (s : Text) :
    stripCommentsAndWhitespace s = keywords.skip s := by
  suffices h : ∀ bound, ∀ s : Text, s.length < bound → stripLoop bound s = keywords.skip s from
    h _ s (Nat.lt_succ_self _)
  intro bound
  induction bound with
  | zero => exact fun _ h => absurd h (Nat.not_lt_zero _)
  | succ bound ih =>
    intro s hs
    have hle := length_trimLeftFunc_le isSpace s
    have hspace := isSpace_trimLeftFunc s
    rw [← skip_trimLeftFunc s, stripLoop]
    generalize trimLeftFunc isSpace s = t at hle hspace ⊢
    have hrest (ht : t ≠ []) (n : ℕ) :
        stripLoop bound (t.drop (n + 1)) = keywords.skip (t.drop (n + 1)) :=
      ih _ (Nat.lt_of_lt_of_le (length_drop_lt ht hle (Nat.succ_ne_zero n)) (Nat.le_of_lt_succ hs))
    split_ifs with hline hblock
    · have ht := ne_nil_of_hasPrefix (by decide) hline
      have hgap : keywords.gap t = bytesThrough (text "\n") t := by
        obtain ⟨rest, rfl⟩ := hasPrefix_line.mp hline
        exact gap_line rest
      rw [skip_of_found ht (by decide) hgap]
      cases index (text "\n") t with
      | some i => exact hrest ht i
      | none => rfl
    · have ht := ne_nil_of_hasPrefix (by decide) hblock
      have hgap : keywords.gap t = bytesThrough (text "*/") t := by
        obtain ⟨rest, rfl⟩ := hasPrefix_block.mp hblock
        exact gap_block rest
      rw [skip_of_found ht (by decide) hgap]
      cases index (text "*/") t with
      | some i => exact hrest ht (i + 1)
      | none => rfl
    · rw [Bool.not_eq_true] at hline hblock
      have hgap := gap_eq_zero hspace hline hblock
      exact (Sql.Reading.skip_of_gap_eq_zero hgap).symm

/-- The words of a text, one loop turn at a time. -/
theorem bareAnalyze_eq (s : Text) : bareAnalyze s =
    if keywords.word (keywords.skip s) = 0 then none
    else if toLower (keywords.firstWord s) = text "analyze" then some (wordEnd s)
    else if bareFlags.contains (toLower (keywords.firstWord s)) then
      (bareAnalyze (afterWord s)).map (wordEnd s + ·)
    else none := by
  have hflag : bareFlags.contains (text "analyze") = false := by decide
  have hnext : keywords.next (keywords.skip s) = keywords.word (keywords.skip s) := rfl
  rw [bareAnalyze, Sql.Reading.spans_eq, hnext, wordEnd, afterWord]
  split_ifs with hword hanalyze hbare
  · rfl
  · have hnot : ¬ bareFlags.contains (toLower (keywords.firstWord s)) = true := by
      rw [hanalyze, hflag]
      exact Bool.false_ne_true
    rw [List.dropWhile_cons, if_neg hnot]
    exact if_pos hanalyze
  · -- the flags behind the first are the flags of the rest, with their ends moved
    rw [List.dropWhile_cons, if_pos hbare, bareAnalyze, List.dropWhile_map, Function.comp_def]
    cases (keywords.spans ((keywords.skip s).drop (keywords.word (keywords.skip s)))).dropWhile
      fun span => bareFlags.contains (toLower span.1) with
    | nil => rfl
    | cons first rest =>
      rw [List.map_cons]
      dsimp only
      split_ifs <;> rfl
  · rw [List.dropWhile_cons, if_neg hbare]
    exact if_neg hanalyze

/-- What is behind the first word is shorter than the text. -/
theorem length_afterWord_lt {s : Text} (h : keywords.word (keywords.skip s) ≠ 0) :
    (afterWord s).length < s.length :=
  Nat.lt_of_lt_of_le (Sql.Reading.length_drop_next_lt h) (keywords.length_skip_le s)

/-- The bare flags lead to `ANALYZE` where the first word is `ANALYZE`, or a flag with `ANALYZE` in
the rest. -/
theorem isSome_bareAnalyze_iff (s : Text) : (bareAnalyze s).isSome = true ↔
    toLower (keywords.firstWord s) = text "analyze" ∨
      (toLower (keywords.firstWord s) ∈ bareFlags ∧ (bareAnalyze (afterWord s)).isSome = true) := by
  rw [bareAnalyze_eq]
  split_ifs with hword hanalyze hflag
  · have hnil : toLower (keywords.firstWord s) = [] := by
      rw [Sql.Reading.firstWord, hword, List.take_zero]
      decide
    have hempty : [] ≠ text "analyze" ∧ [] ∉ bareFlags := by decide
    rw [hnil]
    exact iff_of_false (by simp) fun h => h.elim hempty.1 fun hflag => hempty.2 hflag.1
  · exact iff_of_true rfl (.inl hanalyze)
  · rw [Option.isSome_map, or_iff_right hanalyze, and_iff_right (List.contains_iff_mem.mp hflag)]
  · rw [List.contains_iff_mem] at hflag
    exact iff_of_false (by simp) (by simp [hanalyze, hflag])

/-- The loop over bare flags finds `ANALYZE` where the words are flags up to it. -/
theorem bareFlagLoop_eq_isSome {bound : ℕ} {s : Text} (h : s.length < bound) :
    bareFlagLoop bound s = (bareAnalyze s).isSome := by
  induction bound generalizing s with
  | zero => exact absurd h (Nat.not_lt_zero _)
  | succ bound ih =>
    rw [bareFlagLoop, stripCommentsAndWhitespace_eq, bareAnalyze_eq]
    by_cases hnil : keywords.skip s = []
    · rw [if_pos hnil, hnil, if_pos keywords.word_nil, Option.isSome_none]
    rw [if_neg hnil]
    change (if keywords.word (keywords.skip s) = 0 then false
      else if toLower (keywords.firstWord s) = text "analyze" then true
      else if toLower (keywords.firstWord s) ∈ bareFlags then
        bareFlagLoop bound (afterWord s)
      else false) = _
    split_ifs with hword hanalyze hbare hcontains hcontains
    · rfl
    · rfl
    · have hlt := length_afterWord_lt hword
      rw [Option.isSome_map]
      exact ih (by omega)
    · exact absurd (List.contains_iff_mem.mpr hbare) hcontains
    · exact absurd (List.contains_iff_mem.mp hcontains) hbare
    · rfl

/-- Skipping between options also passes over commas. -/
theorem skip_options_eq (s : Text) : options.skip s =
    if hasPrefix (keywords.skip s) (text ",") then options.skip ((keywords.skip s).drop 1)
    else keywords.skip s := by
  induction s using Sql.Reading.gap_induction keywords with
  | stop s h =>
    rw [Sql.Reading.skip_of_gap_eq_zero h]
    split_ifs with hcomma
    · have hgap : options.gap s = 1 := if_pos hcomma
      rw [Sql.Reading.skip_of_gap (hgap ▸ Nat.one_ne_zero), hgap]
    · have hgap : options.gap s = 0 := (if_neg hcomma).trans h
      rw [Sql.Reading.skip_of_gap_eq_zero hgap]
  | piece s h ih =>
    have hcomma : ¬ hasPrefix s (text ",") = true := by
      intro hcomma
      rw [show text "," = [0x2C] by decide] at hcomma
      obtain ⟨t, rfl⟩ := hasPrefix_singleton.mp hcomma
      exact h (gap_of_solid (by decide) t)
    have hgap : options.gap s = keywords.gap s := if_neg hcomma
    rw [Sql.Reading.skip_of_gap h, Sql.Reading.skip_of_gap (hgap ▸ h), hgap, ih]

/-- The loop over an option list, from behind the comments in front, looks for the target among
the options. -/
theorem tokenListLoop_eq_any {target : Text} {bound : ℕ} {s : Text}
    (h : (keywords.skip s).length < bound) :
    tokenListLoop target bound (keywords.skip s) =
      (options.words s).any (toLower · == target) := by
  induction bound generalizing s with
  | zero => exact absurd h (Nat.not_lt_zero _)
  | succ bound ih =>
    have hskip := skip_options_eq s
    -- a later turn starts behind at least one byte more
    have hrest (hnil : keywords.skip s ≠ []) {n : ℕ} (hn : n ≠ 0) :
        (keywords.skip ((keywords.skip s).drop n)).length < bound := by
      have hlt := length_drop_lt hnil (Nat.le_refl _) hn
      have hle := keywords.length_skip_le ((keywords.skip s).drop n)
      omega
    rw [tokenListLoop]
    by_cases hnil : keywords.skip s = []
    · rw [hnil] at hskip
      rw [if_pos hnil, Sql.Reading.words_eq, hskip]
      rfl
    rw [if_neg hnil]
    by_cases hcomma : hasPrefix (keywords.skip s) (text ",") = true
    · rw [if_pos hcomma] at hskip ⊢
      rw [stripCommentsAndWhitespace_eq, ih (hrest hnil Nat.one_ne_zero), Sql.Reading.words_eq,
        Sql.Reading.words_eq s, Sql.Reading.firstWord, Sql.Reading.firstWord, hskip]
    rw [if_neg hcomma] at hskip ⊢
    rw [Sql.Reading.words_eq, Sql.Reading.firstWord, hskip]
    by_cases hword : options.word (keywords.skip s) = 0
    · rw [if_pos hword]
      exact if_pos hword
    rw [if_neg hword, List.any_cons]
    refine (if_neg hword).trans ?_
    change (if toLower ((keywords.skip s).take (options.word (keywords.skip s))) = target then true
      else _) = _
    by_cases htarget : toLower ((keywords.skip s).take (options.word (keywords.skip s))) = target
    · rw [if_pos htarget, beq_iff_eq.mpr htarget, Bool.true_or]
    rw [if_neg htarget, beq_false_of_ne htarget, Bool.false_or]
    cases hindex : index (text ",") (keywords.skip s) with
    | none =>
      have hnext : options.next (keywords.skip s) = (keywords.skip s).length := by
        simp [options, bytesThrough, hindex]
      rw [hnext, List.drop_length]
      rfl
    | some comma =>
      have hnext : options.next (keywords.skip s) = comma + 1 := by
        simp only [options, bytesThrough, hindex]
        rfl
      rw [hnext, ← ih (hrest hnil (Nat.succ_ne_zero comma))]
      dsimp only
      rw [stripCommentsAndWhitespace_eq]

/-- The list names the target where one of its options is the target. -/
theorem tokenListContains_eq (list target : Text) :
    tokenListContains list target = (options.words list).any (toLower · == target) := by
  have hle := keywords.length_skip_le list
  rw [tokenListContains, stripCommentsAndWhitespace_eq, tokenListLoop_eq_any (by omega)]

/-- Comments and white space in front do not matter to the bare flags. -/
theorem isSome_bareAnalyze_skip (s : Text) :
    (bareAnalyze (keywords.skip s)).isSome = (bareAnalyze s).isSome := by
  rw [Bool.eq_iff_iff, isSome_bareAnalyze_iff, isSome_bareAnalyze_iff s, afterWord, afterWord,
    Sql.Reading.firstWord, Sql.Reading.firstWord, Sql.Reading.skip_skip]

/-- The scanner finds `ANALYZE` after `EXPLAIN` where there is an end of it. -/
theorem explainHasAnalyze_eq (afterExplain : Text) :
    explainHasAnalyze afterExplain = (analyzeSpan afterExplain).isSome := by
  have hparen : text "(" = [0x28] := by decide
  rw [explainHasAnalyze, analyzeSpan, stripCommentsAndWhitespace_eq]
  dsimp only
  split_ifs with hlist
  · rw [Option.isSome_map, listSpan]
    cases hclose : closingParen 1 ((keywords.skip afterExplain).drop 1) with
    | none =>
      -- an open list hides whatever follows
      have hword : keywords.word (keywords.skip afterExplain) = 0 := by
        rw [hparen] at hlist
        obtain ⟨t, ht⟩ := hasPrefix_singleton.mp hlist
        rw [ht]
        rfl
      dsimp only
      rw [bareFlagLoop_eq_isSome (Nat.lt_succ_self _), isSome_bareAnalyze_skip, bareAnalyze_eq,
        if_pos hword]
      rfl
    | some k =>
      rw [Option.bind_some]
      dsimp only
      rw [tokenListContains_eq, stripCommentsAndWhitespace_eq,
        bareFlagLoop_eq_isSome (Nat.lt_succ_self _), isSome_bareAnalyze_skip, ← List.drop_drop]
      split_ifs
      · rfl
      · rw [Option.isSome_map, bareSpan, Option.isSome_map]
  · rw [bareFlagLoop_eq_isSome (Nat.lt_succ_self _), isSome_bareAnalyze_skip, bareSpan,
      Option.isSome_map]

/-- The first keyword as `firstKeyword` finds it, in all of a text. -/
def scanKeyword (sql : Text) : Text × Bool :=
  let s := stripCommentsAndWhitespace sql
  let i := (indexFunc endsKeyword s).getD s.length
  if i = 0 then ([], false)
  else
    let first := toLower (s.take i)
    if first = text "explain" then (text "explain", explainHasAnalyze (s.drop i)) else (first, false)

/-- The class of a keyword, as `classifyByKeyword` gives it. -/
def classOf (keyword : Text × Bool) : Class :=
  if keyword.1 = [] then ⟨.write, .default⟩
  else if keyword.2 then ⟨.write, .keyword⟩
  else if readKeywords.contains keyword.1 then ⟨.read, .keyword⟩
  else ⟨.write, .keyword⟩

/-- The classifier looks at the first 64 bytes. -/
theorem classifyByKeyword_eq (sql : Text) :
    classifyByKeyword sql = classOf (scanKeyword (sql.take 64)) := by
  rw [classOf]
  simp only [List.contains_iff_mem]
  rfl

/-- Whether a text reads as a read: its first word is a read keyword, and if that is `EXPLAIN`, no
`ANALYZE` is found behind it. -/
def Reads (s : Text) : Prop :=
  toLower (keywords.firstWord s) ∈ readKeywords ∧
    (toLower (keywords.firstWord s) = text "explain" → explainHasAnalyze (afterWord s) = false)

/-- The scanner classifies as a read what reads as one. -/
theorem classOf_scanKeyword_iff (s : Text) : (classOf (scanKeyword s)).kind = .read ↔ Reads s := by
  have hscan : scanKeyword s = if keywords.word (keywords.skip s) = 0 then ([], false)
      else if toLower (keywords.firstWord s) = text "explain" then
        (text "explain", explainHasAnalyze (afterWord s))
      else (toLower (keywords.firstWord s), false) := by
    rw [scanKeyword, stripCommentsAndWhitespace_eq]
    rfl
  rw [hscan, Reads]
  split_ifs with hword hexplain
  · have hnil : toLower (keywords.firstWord s) ∉ readKeywords := by
      rw [Sql.Reading.firstWord, hword, List.take_zero]
      decide
    exact iff_of_false (by decide) fun h => hnil h.1
  · rw [hexplain]
    cases explainHasAnalyze (afterWord s) with
    | true => decide
    | false => decide
  · have hne : toLower (keywords.firstWord s) ∈ readKeywords → toLower (keywords.firstWord s) ≠ [] := by
      intro hmem hnil
      rw [hnil] at hmem
      exact absurd hmem (by decide)
    simp only [classOf, List.contains_iff_mem, Bool.false_eq_true, if_false, hexplain, false_implies,
      and_true]
    split_ifs with hnil hread
    · exact iff_of_false (by decide) fun hmem => hne hmem hnil
    · exact iff_of_true rfl hread
    · exact iff_of_false (by decide) hread

end Grunyas.Classifier
