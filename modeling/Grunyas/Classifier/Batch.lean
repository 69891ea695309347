import Grunyas.Classifier.Lead

/-!
# Batches of statements

The scanner looks at the first keyword of a text, and at the options of an `EXPLAIN` behind it. A
semicolon ends a keyword, so a text cut in front of one reads as the whole does up to there: where
the scanner and PostgreSQL skip the same comments and white space, a batch that classifies as a read
starts with a statement that does. The statements behind the first are not looked at.
-/

namespace Grunyas.Classifier

open GoText Grunyas.Server
open Sql.Postgres (reading token statements firstStatement textOf significant)

/-- A cut in front of a semicolon spares the word before it. -/
theorem spares_of_semicolon {s : Text} {c : ℕ} {t : Text} (h : s.drop c = 0x3B :: t) :
    Spares c (keywords.word s) (wordBeyond s) := by
  induction s using rune_induction generalizing c with
  | nil => simp at h
  | rune head rest r hne hd ih =>
    have hword : keywords.word (head ++ rest) =
        if endsKeyword r then 0 else head.length + keywords.word rest :=
      bytesBefore_rune endsKeyword hne hd
    by_cases hzero : c = 0
    · rw [hzero, List.drop_zero] at h
      have hr : r = 0x3B := by
        rw [h] at hd
        exact (congrArg Prod.fst hd).symm
      rw [hr, if_pos (by decide)] at hword
      exact .inl (hzero.trans hword.symm)
    · have hle := length_le_of_drop hne hd (by decide) h hzero
      obtain ⟨k, rfl⟩ := Nat.exists_eq_add_of_le hle
      rw [List.drop_length_add_append] at h
      cases hends : endsKeyword r with
      | true =>
        rw [hends, if_pos rfl] at hword
        right
        rw [wordBeyond, hword, List.drop_zero, hd, Nat.zero_add]
        exact hle
      | false =>
        rw [hends, if_neg Bool.false_ne_true] at hword
        rw [wordBeyond, hword, List.drop_length_add_append, Nat.add_assoc, spares_add]
        exact ih h

/-- Where a cut in front of a semicolon leaves `ANALYZE` behind bare flags, the whole text has it. -/
theorem isSome_bareAnalyze_of_take {s t : Text} {m : ℕ} (hcut : s.drop m = 0x3B :: t)
    (h : (bareAnalyze (s.take m)).isSome = true) : (bareAnalyze s).isSome = true := by
  induction hn : s.length using Nat.strong_induction_on generalizing s m with
  | _ n ih =>
    obtain ⟨-, hfrag⟩ | ⟨hle, hskip⟩ := skip_take_cases s m
    · rw [bareAnalyze_of_fragment hfrag] at h
      cases h
    obtain ⟨c, rfl⟩ := Nat.exists_eq_add_of_le hle
    rw [Nat.add_sub_cancel_left] at hskip
    rw [← List.drop_drop, Sql.Reading.drop_lead] at hcut
    obtain ⟨k, rfl, hfirst, hafter⟩ := cut_of_spares (spares_of_semicolon hcut)
    rw [isSome_bareAnalyze_iff, hfirst, hafter] at h
    rw [isSome_bareAnalyze_iff]
    obtain hanalyze | ⟨hflag, hrest⟩ := h
    · exact .inl hanalyze
    · have hword : keywords.word (keywords.skip s) ≠ 0 := by
        intro hzero
        rw [Sql.Reading.firstWord, hzero, List.take_zero] at hflag
        exact absurd hflag (by decide)
      rw [← List.drop_drop] at hcut
      exact .inr ⟨hflag, ih _ (hn ▸ length_afterWord_lt hword) hcut hrest rfl⟩

/-- Where a cut in front of a semicolon leaves `ANALYZE` behind `EXPLAIN`, the whole text has it. -/
theorem explainHasAnalyze_of_take {s t : Text} {m : ℕ} (hcut : s.drop m = 0x3B :: t)
    (h : explainHasAnalyze (s.take m) = true) : explainHasAnalyze s = true := by
  rw [explainHasAnalyze_eq, analyzeSpan] at h ⊢
  by_cases hopen : hasPrefix (keywords.skip (s.take m)) (text "(") = true
  · obtain ⟨hwhole, hlt⟩ := (hasPrefix_skip_take s m).mp hopen
    rw [if_pos hopen, Option.isSome_map, Sql.Reading.skip_take keywords_gap_take (Nat.le_of_lt hlt),
      List.drop_take, listSpan] at h
    rw [if_pos hwhole, Option.isSome_map, listSpan]
    obtain ⟨span, hspan⟩ := Option.isSome_iff_exists.mp h
    obtain ⟨close, hclose, hfound⟩ := Option.bind_eq_some_iff.mp hspan
    obtain ⟨hclose, hle⟩ := closingParen_take.mp hclose
    rw [List.take_take, Nat.min_eq_left (by omega)] at hfound
    rw [hclose, Option.bind_some]
    split_ifs at hfound ⊢
    · rfl
    · -- the list names other options, and the flags behind it lead to `ANALYZE`
      rw [List.drop_take] at hfound
      have hrest : (((keywords.skip s).drop 1).drop close).drop (m - keywords.lead s - 1 - close) =
          0x3B :: t := by
        rw [← hcut, ← Sql.Reading.drop_lead, List.drop_drop, List.drop_drop, List.drop_drop]
        congr 1
        omega
      have hbare := isSome_bareAnalyze_of_take hrest
      rw [Option.isSome_map, bareSpan, Option.isSome_map]
      apply hbare
      rw [← Option.isSome_map, ← bareSpan, ← Option.isSome_map, hfound]
      rfl
  · rw [if_neg hopen, bareSpan, Option.isSome_map] at h
    have hwhole : ¬ hasPrefix (keywords.skip s) (text "(") = true := by
      intro hwhole
      have hle : m ≤ keywords.lead s :=
        Nat.le_of_not_lt fun hlt => hopen ((hasPrefix_skip_take s m).mpr ⟨hwhole, hlt⟩)
      rw [bareAnalyze_of_fragment (fragment_skip_take hle)] at h
      cases h
    rw [if_neg hwhole, bareSpan, Option.isSome_map]
    exact isSome_bareAnalyze_of_take hcut h

/-- A text that reads as a read does so up to a semicolon behind its leading comments. -/
theorem reads_take_of_semicolon {s t : Text} {n : ℕ} (hlead : keywords.lead s ≤ n)
    (hcut : s.drop n = 0x3B :: t) (h : Reads s) : Reads (s.take n) := by
  obtain ⟨c, rfl⟩ := Nat.exists_eq_add_of_le hlead
  rw [← List.drop_drop, Sql.Reading.drop_lead] at hcut
  obtain ⟨k, rfl, hfirst, hafter⟩ := cut_of_spares (spares_of_semicolon hcut)
  rw [Reads, hfirst, hafter]
  refine ⟨h.1, fun hexplain => ?_⟩
  have hnone := h.2 hexplain
  rw [← Bool.not_eq_true] at hnone ⊢
  rw [← List.drop_drop] at hcut
  exact fun hfound => hnone (explainHasAnalyze_of_take hcut hfound)

/-- Where a read is left of a text, the text has something but a semicolon behind its leading
comments. -/
theorem token_skip_of_reads {s : Text} {m : ℕ} (h : Reads (s.take m)) :
    keywords.lead s < m ∧ keywords.skip s ≠ [] ∧ (token (keywords.skip s)).1 ≠ .semicolon := by
  have hempty : toLower [] ∉ readKeywords := by decide
  have hlead : keywords.lead s < m := by
    by_contra hover
    have hfrag := fragment_skip_take (Nat.le_of_not_lt hover)
    exact hfrag.word_not_mem endsKeyword (readKeywords_subset h.1)
  have hfirst := h.1
  rw [Sql.Reading.firstWord, Sql.Reading.skip_take keywords_gap_take (Nat.le_of_lt hlead)] at hfirst
  refine ⟨hlead, ?_, ?_⟩
  · intro hnil
    rw [hnil, List.take_nil] at hfirst
    exact hempty hfirst
  · intro hkind
    obtain ⟨t, ht, -⟩ := Sql.Postgres.token_semicolon hkind
    obtain ⟨k, hk⟩ := Nat.exists_eq_add_of_lt hlead
    rw [ht, hk, Nat.add_assoc, Nat.add_sub_cancel_left, List.take_succ_cons] at hfirst
    exact hempty hfirst

/-- The first statement of a text that the scanner reads as a read, if it skips the same comments as
PostgreSQL, is not empty and reads as a read within the same number of bytes. -/
theorem firstStatement_reads {s : Text} {m : ℕ} (halike : keywords.skip s = reading.skip s)
    (h : Reads (s.take m)) :
    significant (firstStatement s) ≠ [] ∧ Reads ((textOf (firstStatement s)).take m) := by
  obtain ⟨hlead, hne, hkind⟩ := token_skip_of_reads h
  have hsame : keywords.lead s = reading.lead s := by rw [Sql.Reading.lead, Sql.Reading.lead, halike]
  rw [halike] at hne hkind
  obtain ⟨hlt, hsignificant⟩ := Sql.Postgres.lead_lt_firstStatement hne hkind
  refine ⟨hsignificant, ?_⟩
  obtain ⟨rest, heq, hrest⟩ := Sql.Postgres.exists_firstStatement s
  generalize textOf (firstStatement s) = first at heq hlt ⊢
  subst heq
  rcases Nat.le_total m first.length with hm | hm
  · rwa [List.take_append_of_le_length hm] at h
  · rw [List.take_of_length_le hm]
    obtain ⟨k, rfl⟩ := Nat.exists_eq_add_of_le hm
    obtain rfl | ⟨t, rfl⟩ := hrest
    · rwa [List.append_nil, List.take_of_length_le hm] at h
    cases k with
    | zero => rwa [Nat.add_zero, List.take_left] at h
    | succ k =>
      have htake : (first ++ 0x3B :: t).take (first.length + (k + 1)) = first ++ 0x3B :: t.take k := by
        rw [List.take_length_add_append, List.take_succ_cons]
      have hle := Sql.Reading.lead_take keywords_gap_take (Nat.le_of_lt hlead)
      rw [htake] at h hle
      have hcut := reads_take_of_semicolon (by omega) List.drop_left h
      rwa [List.take_left] at hcut

/-- A batch that classifies as a read on an idle read or compat session, and whose leading comments
the scanner skips as PostgreSQL does, starts with a statement that is not empty and classifies as a
read alone. -/
theorem first_statement_read (stmt : Statement) (sess : SessionState) (hidle : IdleRead stmt sess)
    (halike : stripCommentsAndWhitespace stmt.sql = reading.skip stmt.sql)
    (hread : (classify stmt sess).1.kind = .read) :
    ∃ first, (statements stmt.sql).head? = some first ∧ significant first ≠ [] ∧
      (classify { stmt with sql := textOf first } sess).1.kind = .read := by
  have hfirst : IdleRead { stmt with sql := textOf (firstStatement stmt.sql) } sess :=
    ⟨hidle.port, hidle.idle, hidle.uncached⟩
  rw [hidle.classify_eq, classifyByKeyword_eq, classOf_scanKeyword_iff] at hread
  rw [stripCommentsAndWhitespace_eq] at halike
  obtain ⟨hne, hreads⟩ := firstStatement_reads halike hread
  refine ⟨_, Sql.Postgres.head_statements stmt.sql, hne, ?_⟩
  rw [hfirst.classify_eq, classifyByKeyword_eq, classOf_scanKeyword_iff]
  exact hreads

/-- A text with one statement that is not empty, whose leading comments the scanner skips as PostgreSQL
does, classifies as a read only if this statement does alone. -/
theorem single_statement_read (stmt : Statement) (sess : SessionState) (hidle : IdleRead stmt sess)
    (halike : stripCommentsAndWhitespace stmt.sql = reading.skip stmt.sql)
    (hsingle : ((statements stmt.sql).filter fun part => !(significant part).isEmpty).length ≤ 1)
    (hread : (classify stmt sess).1.kind = .read) :
    ∀ part ∈ statements stmt.sql, significant part ≠ [] →
      (classify { stmt with sql := textOf part } sess).1.kind = .read := by
  obtain ⟨first, hhead, hfirst, hkind⟩ := first_statement_read stmt sess hidle halike hread
  intro part hpart hne
  have hmem {part : List Sql.Postgres.Token} (hpart : part ∈ statements stmt.sql)
      (hne : significant part ≠ []) :
      part ∈ (statements stmt.sql).filter fun part => !(significant part).isEmpty :=
    List.mem_filter.mpr ⟨hpart, by simpa using hne⟩
  have hsame : part = first := by
    have hone := hmem hpart hne
    have hother := hmem (List.mem_of_head? hhead) hfirst
    obtain ⟨only, honly⟩ := List.length_eq_one_iff.mp
      (Nat.le_antisymm hsingle (List.length_pos_of_mem hone))
    rw [honly, List.mem_singleton] at hone hother
    exact hone.trans hother.symm
  rw [hsame]
  exact hkind

/-- A read with a semicolon and a comment behind it. -/
def readThenComment : Text := text "SELECT 1; -- t"

/-- The theorem at this text, which has two statements, the second of them empty. -/
theorem single_statement_read_select :
    (classify ⟨[], readThenComment⟩ ⟨.read, .idle, none⟩).1.kind = .read ∧
      (statements readThenComment).length = 2 ∧
      ∀ part ∈ statements readThenComment, significant part ≠ [] →
        (classify ⟨[], textOf part⟩ ⟨.read, .idle, none⟩).1.kind = .read := by
  have hread : (classify ⟨[], readThenComment⟩ ⟨.read, .idle, none⟩).1.kind = .read := by
    decide
  exact ⟨hread, by decide, single_statement_read ⟨[], readThenComment⟩ ⟨.read, .idle, none⟩
    ⟨.inl rfl, rfl, by simp⟩ (by decide) (by decide) hread⟩

/-- A read with a write behind it. -/
def readThenDelete : Text := text "SELECT 1; DELETE FROM t"

/-- The batch classifies as a read on an idle read session, and its second statement does not. -/
theorem read_then_delete : IdleRead ⟨[], readThenDelete⟩ ⟨.read, .idle, none⟩ ∧
    (classify ⟨[], readThenDelete⟩ ⟨.read, .idle, none⟩).1.kind = .read ∧
    ∃ second ∈ statements readThenDelete, significant second ≠ [] ∧
      (classify ⟨[], textOf second⟩ ⟨.read, .idle, none⟩).1.kind = .write :=
  ⟨⟨.inl rfl, rfl, by simp⟩, by decide, by decide⟩

end Grunyas.Classifier
