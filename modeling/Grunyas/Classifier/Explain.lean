import Grunyas.Classifier.Batch

/-!
# The `ANALYZE` of an `EXPLAIN`

`EXPLAIN` asks for `ANALYZE` behind bare flags, or in a list of options in parentheses. Whether a
text has that form depends on how it is read: PostgreSQL ends a word at any byte that cannot
continue it, so a comment may stand right behind a word, and a comment or a quoted text may hold
parentheses and commas. The scanner ends a keyword at white space, an opening parenthesis or a
semicolon, and counts parentheses and commas wherever they stand. A text that has the form in both
readings classifies as a write; one that has it for PostgreSQL alone does not, unless the word
`EXPLAIN` itself is lost on the scanner.
-/

namespace Grunyas.Classifier

open GoText Grunyas.Server
open Sql.Postgres (Token reading token lex lower keyword significant startsWord)

/-- The words of a text are bare flags up to `ANALYZE`, in a reading and its lower case. -/
def Bare (words : Sql.Reading UInt8) (lowerCase : Text → Text) (s : Text) : Prop :=
  ∃ flags rest, (words.words s).map lowerCase = flags ++ text "analyze" :: rest ∧
    ∀ flag ∈ flags, flag ∈ bareFlags

def openParen : Token := (.other, [0x28])

def closeParen : Token := (.other, [0x29])

def comma : Token := (.other, [0x2C])

/-- The tokens start with a list in parentheses, of which an option has the name `ANALYZE`. -/
def NamesAnalyze (ts : List Token) : Prop :=
  ∃ inner rest, significant ts = openParen :: inner ++ closeParen :: rest ∧
    openParen ∉ inner ∧ closeParen ∉ inner ∧
    ∃ option ∈ inner.splitOnP (· == comma), keyword option = some (text "analyze")

/-- The text starts with the word `EXPLAIN`, by the lexical rules of PostgreSQL. -/
structure Explains (sql : Text) : Prop where
  token : token sql = (.word, 7)
  explain : lower (sql.take 7) = text "explain"

/-- An `EXPLAIN` that asks for `ANALYZE`, by the same rules. -/
structure ExplainAnalyze (sql : Text) : Prop extends Explains sql where
  analyze : Bare reading lower (sql.drop 7) ∨ NamesAnalyze (lex (sql.drop 7))

/-- The word `EXPLAIN` is followed by something that ends no keyword of the scanner. -/
def Glued (sql : Text) : Prop := ∃ b t, sql.drop 7 = b :: t ∧ endsKeyword b.toNat = false

/-- The parentheses of a text match. -/
def Balanced (s : Text) : Prop :=
  s.count 0x28 = s.count 0x29 ∧ ∀ front, front <+: s → front.count 0x29 ≤ front.count 0x28

/-- A list in parentheses is in front of a text, as the scanner counts them. -/
def Encloses (s inner rest : Text) : Prop :=
  keywords.skip s = 0x28 :: inner ++ 0x29 :: rest ∧ Balanced inner

/-- What follows `EXPLAIN` asks for `ANALYZE` in the scanner's reading: behind bare flags, in a
list, or behind bare flags that follow a list. -/
def Spelled (s : Text) : Prop :=
  Bare keywords toLower s ∨
    ∃ inner rest, Encloses s inner rest ∧
      (text "analyze" ∈ (options.words inner).map toLower ∨ Bare keywords toLower rest)

/-- The bare flags, one word at a time. -/
theorem bare_iff {words : Sql.Reading UInt8} {lowerCase : Text → Text} (s : Text) :
    Bare words lowerCase s ↔ words.word (words.skip s) ≠ 0 ∧
      (lowerCase (words.firstWord s) = text "analyze" ∨
        (lowerCase (words.firstWord s) ∈ bareFlags ∧
          Bare words lowerCase ((words.skip s).drop (words.next (words.skip s))))) := by
  rw [Bare, Sql.Reading.words_eq]
  split_ifs with hword
  · refine iff_of_false ?_ fun h => h.1 hword
    rintro ⟨flags, rest, heq, -⟩
    cases flags <;> cases heq
  rw [and_iff_right hword, List.map_cons]
  constructor
  · rintro ⟨_ | ⟨flag, flags⟩, rest, heq, hflags⟩
    · exact .inl (List.cons_eq_cons.mp heq).1
    · obtain ⟨hfirst, hmore⟩ := List.cons_eq_cons.mp heq
      rw [List.forall_mem_cons] at hflags
      exact .inr ⟨hfirst ▸ hflags.1, flags, rest, hmore, hflags.2⟩
  · rintro (hanalyze | ⟨hflag, flags, rest, hmore, hflags⟩)
    · exact ⟨[], _, congrArg (· :: _) hanalyze, List.forall_mem_nil _⟩
    · exact ⟨_ :: flags, rest, congrArg (_ :: ·) hmore, List.forall_mem_cons.mpr ⟨hflag, hflags⟩⟩

/-- The scanner finds `ANALYZE` behind bare flags where the words are such. -/
theorem isSome_bareAnalyze (s : Text) : (bareAnalyze s).isSome = true ↔ Bare keywords toLower s := by
  induction hn : s.length using Nat.strong_induction_on generalizing s with
  | _ n ih =>
    rw [isSome_bareAnalyze_iff, bare_iff]
    by_cases hword : keywords.word (keywords.skip s) = 0
    · have hempty : [] ≠ text "analyze" ∧ [] ∉ bareFlags := by decide
      have hnil : toLower (keywords.firstWord s) = [] := by
        rw [Sql.Reading.firstWord, hword, List.take_zero]
        decide
      rw [hnil]
      exact iff_of_false (fun h => h.elim hempty.1 fun hflag => hempty.2 hflag.1) fun h => h.1 hword
    · rw [and_iff_right hword, ih _ (hn ▸ length_afterWord_lt hword) _ rfl]
      rfl

/-- A text closes so many lists and what it opens, and never more. -/
def Closes (depth : ℕ) (s : Text) : Prop :=
  s.count 0x28 + depth = s.count 0x29 ∧
    ∀ front, front <+: s → front.count 0x29 ≤ front.count 0x28 + depth

/-- One more byte in front opens a list, closes one, or neither. -/
theorem closes_cons {b : UInt8} {depth inside : ℕ} (s : Text)
    (h : (if b == 0x28 then 1 else 0) + depth = (if b == 0x29 then 1 else 0) + inside) :
    Closes depth (b :: s) ↔ Closes inside s := by
  unfold Closes
  simp only [List.prefix_cons_iff, List.count_cons]
  apply and_congr
  · omega
  · constructor
    · intro hfront front hle
      have hcons := hfront (b :: front) (.inr ⟨front, rfl, hle⟩)
      rw [List.count_cons, List.count_cons] at hcons
      omega
    · rintro hfront front (rfl | ⟨front, rfl, hle⟩)
      · exact Nat.zero_le _
      · have hrest := hfront front hle
        rw [List.count_cons, List.count_cons]
        omega

/-- A byte leaves a list open, unless it closes the last. -/
theorem exists_inside {b : UInt8} {depth : ℕ} (h : ¬ (b = 0x29 ∧ depth = 0)) : ∃ inside,
    (if b = 0x28 then depth + 1 + 1 else if b = 0x29 then depth + 1 - 1 else depth + 1) = inside + 1 ∧
    (if b == 0x28 then 1 else 0) + depth = (if b == 0x29 then 1 else 0) + inside := by
  by_cases hopen : b = 0x28
  · subst hopen
    exact ⟨depth + 1, rfl, Nat.add_comm 1 depth |>.trans (Nat.zero_add _).symm⟩
  by_cases hclose : b = 0x29
  · subst hclose
    have hopened : depth ≠ 0 := fun hzero => h ⟨rfl, hzero⟩
    refine ⟨depth - 1, ?_, ?_⟩
    · change depth + 1 - 1 = _
      omega
    · change 0 + depth = 1 + _
      omega
  · exact ⟨depth, by rw [if_neg hopen, if_neg hclose], by simp [hopen, hclose]⟩

/-- The parenthesis that closes the outermost of so many lists. -/
theorem closingParen_eq_some_iff {depth : ℕ} {s : Text} {close : ℕ} :
    closingParen (depth + 1) s = some close ↔
      ∃ inner rest, s = inner ++ 0x29 :: rest ∧ close = inner.length + 1 ∧ Closes depth inner := by
  induction s generalizing depth close with
  | nil => simp [closingParen]
  | cons b s ih =>
    rw [closingParen]
    by_cases hlast : b = 0x29 ∧ depth = 0
    · obtain ⟨rfl, rfl⟩ := hlast
      refine ⟨fun h => ⟨[], s, rfl, (Option.some.inj h).symm, by simp [Closes]⟩, ?_⟩
      rintro ⟨_ | ⟨c, inner⟩, rest, heq, rfl, -, hfront⟩
      · rfl
      · obtain ⟨rfl, -⟩ := List.cons_eq_cons.mp heq
        exact absurd (hfront [0x29] ⟨inner, rfl⟩) (by decide)
    -- what is enclosed goes on behind the byte
    obtain ⟨inside, hinside, hdepth⟩ := exists_inside hlast
    rw [hinside, if_neg (Nat.succ_ne_zero inside), Option.map_eq_some_iff]
    constructor
    · rintro ⟨more, hmore, rfl⟩
      obtain ⟨inner, rest, rfl, rfl, hcloses⟩ := ih.mp hmore
      exact ⟨b :: inner, rest, rfl, rfl, (closes_cons inner hdepth).mpr hcloses⟩
    · rintro ⟨_ | ⟨c, inner⟩, rest, heq, rfl, hcloses⟩
      · obtain ⟨rfl, -⟩ := List.cons_eq_cons.mp heq
        exact absurd ⟨rfl, by simpa using hcloses.1⟩ hlast
      · obtain ⟨rfl, rfl⟩ := List.cons_eq_cons.mp heq
        exact ⟨_, ih.mpr ⟨inner, rest, rfl, rfl, (closes_cons inner hdepth).mp hcloses⟩, rfl⟩

/-- The list in front of a text, as the scanner counts its parentheses. -/
theorem closingParen_one {s : Text} {close : ℕ} : closingParen 1 s = some close ↔
    ∃ inner rest, s = inner ++ 0x29 :: rest ∧ close = inner.length + 1 ∧ Balanced inner :=
  closingParen_eq_some_iff

/-- What the scanner finds in a list, and behind it. -/
theorem isSome_listSpan_of_balanced {inner : Text} (h : Balanced inner) (rest : Text) :
    (listSpan (inner ++ 0x29 :: rest)).isSome = true ↔
      text "analyze" ∈ (options.words inner).map toLower ∨ Bare keywords toLower rest := by
  have hclose : closingParen 1 (inner ++ 0x29 :: rest) = some (inner.length + 1) :=
    closingParen_one.mpr ⟨inner, rest, rfl, rfl, h⟩
  have hnames : (options.words inner).any (toLower · == text "analyze") = true ↔
      text "analyze" ∈ (options.words inner).map toLower := by
    simp only [List.any_eq_true, beq_iff_eq, List.mem_map]
  rw [listSpan, hclose, Option.bind_some, Nat.add_sub_cancel, List.take_left, List.drop_length_add_append,
    ← isSome_bareAnalyze, ← hnames]
  split_ifs with hnamed
  · exact iff_of_true rfl (.inl hnamed)
  · rw [or_iff_right hnamed, Option.isSome_map, bareSpan, Option.isSome_map]
    rfl

/-- The scanner finds the `ANALYZE` of an `EXPLAIN` where it is spelled out in its reading. -/
theorem explainHasAnalyze_iff (s : Text) : explainHasAnalyze s = true ↔ Spelled s := by
  rw [explainHasAnalyze_eq, analyzeSpan, Spelled]
  split_ifs with hlist
  · -- a parenthesis is no word, so there are no bare flags in front of the list
    rw [show text "(" = [0x28] by decide, hasPrefix_singleton] at hlist
    obtain ⟨t, ht⟩ := hlist
    have hbare : ¬ Bare keywords toLower s := fun h => by
      have hword := ((bare_iff s).mp h).1
      rw [ht] at hword
      exact hword rfl
    rw [or_iff_right hbare, ht, Option.isSome_map, List.drop_succ_cons, List.drop_zero]
    constructor
    · intro hsome
      obtain ⟨span, hspan⟩ := Option.isSome_iff_exists.mp hsome
      obtain ⟨close, hclose, -⟩ := Option.bind_eq_some_iff.mp hspan
      obtain ⟨inner, rest, rfl, -, hbalanced⟩ := closingParen_one.mp hclose
      exact ⟨inner, rest, ⟨ht, hbalanced⟩, (isSome_listSpan_of_balanced hbalanced rest).mp hsome⟩
    · rintro ⟨inner, rest, ⟨hinner, hbalanced⟩, hfound⟩
      rw [ht] at hinner
      obtain rfl : t = inner ++ 0x29 :: rest := (List.cons_eq_cons.mp hinner).2
      exact (isSome_listSpan_of_balanced hbalanced rest).mpr hfound
  · have hnone : ¬ ∃ inner rest, Encloses s inner rest ∧
        (text "analyze" ∈ (options.words inner).map toLower ∨ Bare keywords toLower rest) := by
      rintro ⟨inner, rest, ⟨hinner, -⟩, -⟩
      rw [hinner] at hlist
      exact hlist rfl
    rw [or_iff_left hnone, bareSpan, Option.isSome_map, isSome_bareAnalyze]

/-- What ends the word of a keyword in front of a text is an ASCII byte. -/
theorem ascii_of_word {s : Text} (h : (token s).1 = .word) {b : UInt8} {t : Text}
    (hrest : s.drop (token s).2 = b :: t) : b.toNat < 0x80 := by
  have hends := Sql.Postgres.continuesWord_of_word h hrest
  by_contra hhigh
  have hstarts : startsWord b = true := startsWord_of_lower fun hlow => absurd hlow hhigh
  rw [Sql.Postgres.continuesWord_of_startsWord hstarts] at hends
  cases hends

namespace Explains

variable {sql : Text} (h : Explains sql)

include h

theorem length_take : (sql.take 7).length = 7 := by
  have hlen := congrArg List.length h.explain
  rw [lower, List.length_map] at hlen
  exact hlen

theorem ascii_take : ∀ b ∈ sql.take 7, b.toNat < 0x80 := by
  apply ascii_of_lower
  rw [h.explain]
  decide +kernel

/-- The word `EXPLAIN` is one of the scanner's words. -/
theorem toLower_take : toLower (sql.take 7) = text "explain" := by
  rw [toLower_of_ascii h.ascii_take, h.explain]

theorem take_mem : toLower (sql.take 7) ∈ scannerWords := by
  rw [h.toLower_take]
  decide

/-- Nothing is skipped in front of it. -/
theorem skip_eq : keywords.skip sql = sql := by
  apply Sql.Reading.skip_of_gap_eq_zero
  have hlen := h.length_take
  cases hsql : sql with
  | nil => simp [hsql] at hlen
  | cons b s =>
    have hb : b ∈ sql.take 7 := by simp [hsql]
    exact gap_of_solid (solid_of_startsWord (startsWord_of_mem h.take_mem hb)
      (h.ascii_take b hb)) s

/-- The first word of the scanner goes on behind it. -/
theorem word_eq : keywords.word sql = 7 + keywords.word (sql.drop 7) := by
  have hword := word_append_of_mem h.take_mem (sql.drop 7)
  rwa [List.take_append_drop, h.length_take] at hword

/-- It does so exactly if something is stuck to `EXPLAIN`. -/
theorem glued_iff : Glued sql ↔ keywords.word (sql.drop 7) ≠ 0 := by
  have hkind : (Sql.Postgres.token sql).1 = .word := by rw [h.token]
  have hrest {b : UInt8} {t : Text} := ascii_of_word (b := b) (t := t) hkind
  rw [h.token] at hrest
  rw [Glued]
  cases hdrop : sql.drop 7 with
  | nil => exact iff_of_false (by simp) fun hword => hword rfl
  | cons b t =>
    have hd : decodeRune ([b] ++ t) = (b.toNat, [b].length) := by
      simp [decodeRune, hrest hdrop]
    have hword : keywords.word (b :: t) = if endsKeyword b.toNat then 0 else 1 + keywords.word t :=
      bytesBefore_rune endsKeyword (List.cons_ne_nil b []) hd
    rw [hword]
    cases hends : endsKeyword b.toNat with
    | true => exact iff_of_false (by simp [hends]) (by simp)
    | false => exact iff_of_true ⟨b, t, rfl, hends⟩ (by simp)

/-- The text reads as a write if something is stuck to `EXPLAIN`, or if `ANALYZE` is spelled out
behind it. -/
theorem not_reads_iff : ¬ Reads sql ↔ Glued sql ∨ Spelled (sql.drop 7) := by
  rw [Reads, Sql.Reading.firstWord, afterWord, h.skip_eq, h.word_eq]
  by_cases hglued : Glued sql
  · have hlong := h.glued_iff.mp hglued
    refine iff_of_true (fun hread => ?_) (.inl hglued)
    -- the longer word is no word of the scanner
    have heq := eq_of_prefix_of_word (List.take_prefix_take_left (Nat.le_add_right 7 _)) h.take_mem
      (readKeywords_subset hread.1)
    have hlen := congrArg List.length heq
    have hbeyond : keywords.word (sql.drop 7) ≤ (sql.drop 7).length := bytesBefore_le _ _
    rw [h.length_take, List.length_take] at hlen
    rw [List.length_drop] at hbeyond
    omega
  · have hzero : keywords.word (sql.drop 7) = 0 := not_not.mp fun hlong => hglued (h.glued_iff.mpr hlong)
    rw [hzero, Nat.add_zero, h.toLower_take, or_iff_right hglued, ← explainHasAnalyze_iff,
      and_iff_right (by decide), imp_iff_right rfl, Bool.not_eq_false]

end Explains

/-- An `EXPLAIN` is a write on an idle read or compat session exactly if something is stuck to the
word `EXPLAIN`, or if the text asks for `ANALYZE` in the reading of the scanner. So this is what an
`EXPLAIN` needs that asks for `ANALYZE` in the reading of PostgreSQL. -/
theorem explain_analyze_iff (stmt : Statement) (sess : SessionState) (hidle : IdleRead stmt sess)
    (hlen : stmt.sql.length ≤ 64) (hexplain : Explains stmt.sql) :
    (classify stmt sess).1.kind = .write ↔ Glued stmt.sql ∨ Spelled (stmt.sql.drop 7) := by
  have hread : (classifyByKeyword stmt.sql).kind = .read ↔ Reads stmt.sql := by
    rw [classifyByKeyword_eq, List.take_of_length_le hlen, classOf_scanKeyword_iff]
  rw [← hexplain.not_reads_iff, ← hread, hidle.classify_eq]
  obtain hkind | hkind := classifyByKeyword_kind stmt.sql
  · rw [hkind]
    decide
  · rw [hkind]
    decide

/-- `ANALYZE` at the end of an option list. -/
def listedAnalyze : Text := text "EXPLAIN (VERBOSE, ANALYZE) SELECT 1"

/-- The theorem at an `EXPLAIN` that asks for `ANALYZE`. -/
theorem explain_analyze_iff_list : ExplainAnalyze listedAnalyze ∧
    ((classify ⟨[], listedAnalyze⟩ ⟨.read, .idle, none⟩).1.kind = .write ↔
      Glued listedAnalyze ∨ Spelled (listedAnalyze.drop 7)) := by
  have hform : ExplainAnalyze listedAnalyze :=
    ⟨⟨by decide, by decide⟩, .inr
      ⟨[(.word, text "VERBOSE"), comma, (.word, text "ANALYZE")],
        [(.word, text "SELECT"), (.other, text "1")], by decide, by decide,
        by decide, [(.word, text "ANALYZE")], by decide, by decide⟩⟩
  exact ⟨hform, explain_analyze_iff ⟨[], listedAnalyze⟩ ⟨.read, .idle, none⟩ ⟨.inl rfl, rfl, by simp⟩
    (by decide) hform.toExplains⟩

/-- A comment right behind `ANALYZE`. -/
def stuckAnalyze : Text := text "EXPLAIN ANALYZE/**/DELETE FROM t"

/-- The statement deletes rows and classifies as a read on an idle read session. -/
theorem stuck_analyze_reads : stuckAnalyze.length ≤ 64 ∧ ExplainAnalyze stuckAnalyze ∧
    IdleRead ⟨[], stuckAnalyze⟩ ⟨.read, .idle, none⟩ ∧
    (classify ⟨[], stuckAnalyze⟩ ⟨.read, .idle, none⟩).1.kind = .read :=
  ⟨by decide,
    ⟨⟨by decide, by decide⟩, .inl
      ⟨[], [text "delete", text "from", text "t"], by decide, by simp⟩⟩,
    ⟨.inl rfl, rfl, by simp⟩, by decide⟩

end Grunyas.Classifier
