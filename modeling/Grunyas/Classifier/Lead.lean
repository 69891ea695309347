import Grunyas.Classifier.Cap
import Grunyas.Sql.Postgres

/-!
# What stands in front of the first keyword

The scanner and PostgreSQL skip the same pieces in front of a statement, up to the first one that
they measure differently: white space that is not ASCII, a line comment with a carriage return in
it, or a block comment that holds `/*` or has its first `*/` overlap the opener. From there on they
read different texts, and the scanner may find a read keyword where PostgreSQL finds a write. Where
no comment parts them, `leading_comments_keyword` says when the first keywords agree.
-/

namespace Grunyas.Classifier

open GoText Grunyas.Server
open Sql.Postgres (reading token lex keyword lower lowerByte continuesWord startsWord
  continuesWord_of_startsWord isSpace_iff_toNat startsWord_iff_toNat continuesWord_iff_toNat
  toNat_lowerByte startsWord_ne)

/-- A statement on an idle read or compat session that has not seen its name. -/
structure IdleRead (stmt : Statement) (sess : SessionState) : Prop where
  port : sess.port = .read ∨ sess.port = .compat
  idle : sess.txState = .idle
  uncached : ∀ cache ∈ sess.prepared, stmt.name ≠ [] → cache.lookup stmt.name = none

/-- Such a statement is classified by its first keyword. -/
theorem IdleRead.classify_eq {stmt : Statement} {sess : SessionState} (h : IdleRead stmt sess) :
    (classify stmt sess).1 = classifyByKeyword stmt.sql := by
  have hport : sess.port ≠ .write := by
    obtain hport | hport := h.port <;> rw [hport] <;> decide
  have hstate : sess.txState ≠ .inTransactionWrite := by
    rw [h.idle]
    decide
  rw [classify, if_neg hport, if_neg hstate]
  cases hprepared : sess.prepared with
  | none => rfl
  | some cache =>
    dsimp only
    split_ifs with hname
    · rfl
    · rw [h.uncached cache hprepared hname]

/-- Skip what the scanner and PostgreSQL skip alike. -/
def common : Sql.Reading UInt8 := keywords.meet reading

/-- The first byte, the first word as the scanner takes it or the byte behind it is not ASCII. -/
def Foreign (s : Text) : Prop := ∃ b ∈ s.take (keywords.word s + 1), 0x80 ≤ b.toNat

/-- Where the scanner takes another comment than PostgreSQL: a line comment with a carriage return
before its line feed, or a block comment in which `*/` stands before its end. -/
inductive Parts : Text → Prop where
  | line {comment rest : Text} (feed : 0x0A ∉ comment) (carriage : 0x0D ∉ comment)
      (more : rest ≠ []) : Parts (0x2D :: 0x2D :: (comment ++ 0x0D :: rest))
  | block {rest : Text}
      (early : bytesThrough (text "*/") (0x2F :: 0x2A :: rest) ≠ Sql.Postgres.blockLength 0 rest + 2) :
      Parts (0x2F :: 0x2A :: rest)

/-- One more byte in front of a line feed. -/
theorem bytesThrough_feed_cons {b : UInt8} (hb : b ≠ 0x0A) (s : Text) :
    bytesThrough (text "\n") (b :: s) = bytesThrough (text "\n") s + 1 := by
  have hfirst : ¬ hasPrefix (b :: s) (text "\n") = true := by
    rw [show text "\n" = [0x0A] by decide, hasPrefix_singleton]
    rintro ⟨t, ht⟩
    exact hb (List.cons_eq_cons.mp ht).1
  rw [bytesThrough, bytesThrough, index, if_neg hfirst]
  cases index (text "\n") s with
  | none => rfl
  | some i => exact Nat.add_right_comm i 1 _

/-- A carriage return stands in the line, with more text behind it. -/
def Returns (s : Text) : Prop :=
  ∃ comment rest, s = comment ++ 0x0D :: rest ∧ 0x0A ∉ comment ∧ 0x0D ∉ comment ∧ rest ≠ []

/-- One more byte in front is the carriage return, or the line goes on behind it. -/
theorem returns_cons {b : UInt8} {s : Text} : Returns (b :: s) ↔
    (b = 0x0D ∧ s ≠ []) ∨ (b ≠ 0x0A ∧ b ≠ 0x0D ∧ Returns s) := by
  constructor
  · rintro ⟨_ | ⟨c, comment⟩, rest, heq, hfeed, hreturn, hrest⟩
    · obtain ⟨rfl, rfl⟩ := List.cons_eq_cons.mp heq
      exact .inl ⟨rfl, hrest⟩
    · obtain ⟨rfl, rfl⟩ := List.cons_eq_cons.mp heq
      rw [List.mem_cons, not_or] at hfeed hreturn
      exact .inr ⟨Ne.symm hfeed.1, Ne.symm hreturn.1, comment, rest, rfl, hfeed.2, hreturn.2, hrest⟩
  · rintro (⟨rfl, hs⟩ | ⟨hb, hb', comment, rest, rfl, hfeed, hreturn, hrest⟩)
    · exact ⟨[], s, rfl, List.not_mem_nil, List.not_mem_nil, hs⟩
    · refine ⟨b :: comment, rest, rfl, ?_, ?_, hrest⟩
      · exact List.not_mem_cons_of_ne_of_not_mem hb.symm hfeed
      · exact List.not_mem_cons_of_ne_of_not_mem hb'.symm hreturn

/-- A line of PostgreSQL ends before a line of the scanner where a carriage return stands in it. -/
theorem lineLength_ne_iff (s : Text) :
    bytesThrough (text "\n") s ≠ Sql.Postgres.lineLength s ↔ Returns s := by
  induction s with
  | nil =>
    refine iff_of_false (by decide) ?_
    rintro ⟨comment, rest, heq, -⟩
    simp at heq
  | cons b s ih =>
    rw [returns_cons]
    by_cases hfeed : b = 0x0A
    · subst hfeed
      have hline : bytesThrough (text "\n") (0x0A :: s) = Sql.Postgres.lineLength (0x0A :: s) := rfl
      refine iff_of_false (fun hne => hne hline) ?_
      rintro (⟨hcarriage, -⟩ | ⟨hfeed, -⟩)
      · exact absurd hcarriage (by decide)
      · exact hfeed rfl
    rw [bytesThrough_feed_cons hfeed, Sql.Postgres.lineLength]
    by_cases hreturn : b = 0x0D
    · have hnil : bytesThrough (text "\n") [] = 0 := by decide
      rw [if_pos (.inr hreturn), Ne, Nat.add_eq_right, or_iff_left fun h => h.2.1 hreturn,
        and_iff_right hreturn]
      exact ⟨fun hne hs => hne (hs ▸ hnil), bytesThrough_ne_zero (by decide)⟩
    · rw [if_neg (by simp [hfeed, hreturn]), Ne, Nat.add_right_cancel_iff, ← Ne, ih,
        or_iff_right fun h => hreturn h.1, and_iff_right hfeed, and_iff_right hreturn]

/-- ASCII bytes lower like their runes. -/
theorem lowerRune_toNat {b : UInt8} (hb : b.toNat < 0x80) :
    lowerRune b.toNat = (lowerByte b).toNat ∧ (lowerByte b).toNat < 0x80 := by
  rw [lowerRune, if_pos hb, toNat_lowerByte]
  refine ⟨rfl, ?_⟩
  split_ifs
  · omega
  · omega

/-- An ASCII text lowers byte by byte. -/
theorem toLower_of_ascii {s : Text} (hs : ∀ b ∈ s, b.toNat < 0x80) : toLower s = lower s := by
  have hlower : ∀ b ∈ lower s, b.toNat < 0x80 := by
    intro b hb
    obtain ⟨c, hc, rfl⟩ := List.mem_map.mp hb
    exact (lowerRune_toNat (hs c hc)).2
  rw [toLower_eq_iff hlower, (eq_iff_runes hs s).mp rfl, lower, List.map_map, List.map_map]
  exact List.map_congr_left fun b hb => (lowerRune_toNat (hs b hb)).1

/-- The ASCII letters start a word of PostgreSQL, as do the bytes that are not ASCII. -/
theorem startsWord_of_lower {b : UInt8}
    (h : b.toNat < 0x80 → 0x61 ≤ lowerRune b.toNat ∧ lowerRune b.toNat ≤ 0x7A) :
    startsWord b = true := by
  rw [startsWord_iff_toNat]
  by_cases hb : b.toNat < 0x80
  · have hletter := h hb
    rw [lowerRune, if_pos hb] at hletter
    split_ifs at hletter with hupper
    · exact .inl hupper
    · exact .inr (.inl hletter)
  · omega

/-- White space to PostgreSQL is the ASCII white space of the scanner. -/
theorem isSpace_iff (b : UInt8) :
    Sql.Postgres.isSpace b = true ↔ b.toNat < 0x80 ∧ isSpace b.toNat = true := by
  rw [isSpace_iff_toNat]
  simp only [isSpace, spaceRunes, List.mem_cons, List.not_mem_nil, or_false, decide_eq_true_eq]
  omega

theorem reading_gap_line (t : Text) :
    reading.gap (0x2D :: 0x2D :: t) = Sql.Postgres.lineLength t + 2 := by
  rw [Sql.Postgres.gap_of_blank (by rw [Sql.Postgres.token_line]; rfl), Sql.Postgres.token_line]

theorem reading_gap_block (t : Text) :
    reading.gap (0x2F :: 0x2A :: t) = Sql.Postgres.blockLength 0 t + 2 := by
  rw [Sql.Postgres.gap_of_blank (by rw [Sql.Postgres.token_block]; rfl), Sql.Postgres.token_block]

/-- The pieces that are line comments. -/
theorem gap_line_ne_iff (t : Text) :
    keywords.gap (0x2D :: 0x2D :: t) ≠ reading.gap (0x2D :: 0x2D :: t) ↔ Returns t := by
  rw [gap_line, bytesThrough_feed_cons (by decide), bytesThrough_feed_cons (by decide),
    reading_gap_line, ← lineLength_ne_iff, Ne, Ne, Nat.add_assoc, Nat.add_right_cancel_iff]

/-- The pieces that are white space: ASCII spaces to PostgreSQL, which takes other bytes for words. -/
theorem gap_space_ne_iff {head rest : Text} {r : ℕ} (hne : head ≠ [])
    (hd : decodeRune (head ++ rest) = (r, head.length)) (hr : isSpace r = true) :
    keywords.gap (head ++ rest) ≠ reading.gap (head ++ rest) ↔ 0x80 ≤ r := by
  rw [gap_space hd hr]
  obtain ⟨b, rfl, hb, rfl⟩ | ⟨b, -, -, rfl⟩ | ⟨b, cont, rfl, hhigh, -, -, hr', -⟩ := rune_cases hne hd
  · have hspace := (isSpace_iff b).mpr ⟨hb, hr⟩
    have htoken := Sql.Postgres.token_space hspace rest
    have hgap : reading.gap ([b] ++ rest) = 1 := by
      rw [List.singleton_append, Sql.Postgres.gap_of_blank (by rw [htoken]; rfl), htoken]
    refine iff_of_false (fun h => h hgap.symm) (by omega)
  · exact absurd hr (by decide)
  · have hgap : reading.gap (b :: cont ++ rest) = 0 := by
      by_contra hpos
      obtain ⟨-, hblank, -⟩ := Sql.Postgres.blank_of_gap hpos
      obtain ⟨c, t, ht, hc⟩ | ⟨t, ht⟩ | ⟨t, ht⟩ := Sql.Postgres.blank_cases hblank
      · rw [(List.cons_eq_cons.mp ht).1] at hhigh
        have hstarts : startsWord c = true := startsWord_of_lower fun hascii => by omega
        rw [(Sql.Postgres.startsWord_ne hstarts).1] at hc
        cases hc
      · rw [(List.cons_eq_cons.mp ht).1] at hhigh
        exact absurd hhigh (by decide)
      · rw [(List.cons_eq_cons.mp ht).1] at hhigh
        exact absurd hhigh (by decide)
    exact iff_of_true (by rw [hgap]; simp) hr'

/-- Where no comment parts them, the readings take the same piece, unless the text starts with a byte
that is not ASCII. -/
theorem gap_eq_or_high {s : Text} (hparts : ¬ Parts s) :
    keywords.gap s = reading.gap s ∨ ∃ b t, s = b :: t ∧ 0x80 ≤ b.toNat := by
  refine or_iff_not_imp_left.mpr fun hne => ?_
  obtain ⟨head, rest, r, hhead, rfl, hd, hr⟩ | ⟨t, rfl⟩ | ⟨t, rfl⟩ | ⟨hspace, hline, hblock⟩ :=
    gap_cases s
  · have hhigh := (gap_space_ne_iff hhead hd hr).mp hne
    obtain ⟨b, rfl, hb, rfl⟩ | ⟨b, -, -, rfl⟩ | ⟨b, cont, rfl, hb, -⟩ := rune_cases hhead hd
    · omega
    · exact absurd hr (by decide)
    · exact ⟨b, cont ++ rest, rfl, hb⟩
  · obtain ⟨comment, rest, rfl, hfeed, hreturn, hrest⟩ := (gap_line_ne_iff t).mp hne
    exact absurd (.line hfeed hreturn hrest) hparts
  · rw [gap_block, reading_gap_block] at hne
    exact absurd (.block hne) hparts
  · -- where the scanner takes no piece, PostgreSQL takes none
    rw [gap_eq_zero hspace hline hblock] at hne
    obtain ⟨-, hblank, -⟩ := Sql.Postgres.blank_of_gap (Ne.symm hne)
    obtain ⟨b, t, rfl, hb⟩ | ⟨t, rfl⟩ | ⟨t, rfl⟩ := Sql.Postgres.blank_cases hblank
    · obtain ⟨hascii, hb⟩ := (isSpace_iff b).mp hb
      have hrune : (decodeRune (b :: t)).1 = b.toNat := by simp [decodeRune, hascii]
      rw [hrune, hb] at hspace
      cases hspace
    · exact absurd (hasPrefix_line.mpr ⟨t, rfl⟩) (by simp [hline])
    · exact absurd (hasPrefix_block.mpr ⟨t, rfl⟩) (by simp [hblock])

/-- Whether a text reads as a read depends on what the scanner leaves of it. -/
theorem reads_congr {s t : Text} (h : keywords.skip s = keywords.skip t) : Reads s ↔ Reads t := by
  rw [Reads, Reads, Sql.Reading.firstWord, Sql.Reading.firstWord, afterWord, afterWord, h]

/-- The first keyword depends on what PostgreSQL leaves of a text. -/
theorem keyword_congr {s t : Text} (h : reading.skip s = reading.skip t) :
    keyword (lex s) = keyword (lex t) := by
  rw [Sql.Postgres.keyword_lex, Sql.Postgres.keyword_lex, h]

/-- Every byte of a text that lowers to a word of the scanner starts a word of PostgreSQL. -/
theorem startsWord_of_mem {w : Text} (h : toLower w ∈ scannerWords) {b : UInt8} (hb : b ∈ w) :
    startsWord b = true := by
  apply startsWord_of_lower
  intro hascii
  have hlower := (toLower_eq_iff (scannerWords_ascii _ h).1 w).mp rfl
  have hmem : lowerRune b.toNat ∈ (toLower w).map UInt8.toNat :=
    hlower ▸ List.mem_map_of_mem (toNat_mem_runes hascii hb)
  obtain ⟨c, hc, heq⟩ := List.mem_map.mp hmem
  have hletter := scannerWords_letters _ h c hc
  omega

/-- The words of the scanner have more than one letter. -/
theorem two_le_length_of_mem {w : Text} (h : toLower w ∈ scannerWords) : 2 ≤ w.length := by
  have hlong : ∀ v ∈ scannerWords, 2 ≤ v.length := by decide
  have hlower := congrArg List.length ((toLower_eq_iff (scannerWords_ascii _ h).1 w).mp rfl)
  have hle := length_runes_le w
  have hword := hlong _ h
  rw [List.length_map, List.length_map] at hlower
  omega

/-- A text that the scanner takes to start with one of its words starts with a word of PostgreSQL,
which has all the bytes in front that continue a word. -/
theorem token_of_word {s : Text} (h : toLower (s.take (keywords.word s)) ∈ scannerWords) :
    (token s).1 = .word ∧ s.take (token s).2 = s.takeWhile continuesWord := by
  have hlen := two_le_length_of_mem h
  obtain ⟨b, c, t, rfl, hb, hc⟩ : ∃ b c t, s = b :: c :: t ∧ startsWord b = true ∧
      startsWord c = true := by
    have hsplit := List.take_append_drop (keywords.word s) s
    generalize s.take (keywords.word s) = w at h hlen hsplit
    obtain _ | ⟨b, _ | ⟨c, w⟩⟩ := w
    · simp at hlen
    · simp at hlen
    · exact ⟨b, c, _, hsplit.symm, startsWord_of_mem h (by simp), startsWord_of_mem h (by simp)⟩
  have hcontinues := continuesWord_of_startsWord hb
  have hquote : (c :: t).head? ≠ some 0x27 := by
    intro hhead
    exact (Sql.Postgres.startsWord_ne hc).2.2.2.1 (Option.some.inj hhead)
  rw [Sql.Postgres.token_word hb fun _ => hquote, List.takeWhile_cons_of_pos hcontinues]
  refine ⟨rfl, ?_⟩
  rw [List.take_succ_cons]
  congr 1
  have hfront := List.takeWhile_prefix continuesWord (l := c :: t)
  exact (List.prefix_iff_eq_take.mp hfront).symm

/-- An ASCII rune that ends a keyword does not continue a word. -/
theorem continuesWord_of_endsKeyword {b : UInt8} (hb : b.toNat < 0x80)
    (hends : endsKeyword b.toNat = true) : continuesWord b = false := by
  rw [← Bool.not_eq_true, continuesWord_iff_toNat, startsWord_iff_toNat]
  simp only [endsKeyword, Bool.or_eq_true, beq_iff_eq] at hends
  obtain (hspace | hparen) | hsemi := hends
  · have hascii := (isSpace_iff b).mpr ⟨hb, hspace⟩
    rw [isSpace_iff_toNat] at hascii
    omega
  · omega
  · omega

/-- Lower-casing keeps the bytes that are not ASCII. -/
theorem lowerByte_of_high {b : UInt8} (hb : 0x80 ≤ b.toNat) : lowerByte b = b := by
  rw [← UInt8.toNat_inj, toNat_lowerByte, if_neg (by omega)]

/-- The bytes that start a word are not skipped, if they are ASCII. -/
theorem solid_of_startsWord {b : UInt8} (hb : startsWord b = true) (hascii : b.toNat < 0x80) :
    solid b = true := by
  obtain ⟨hspace, hdash, hslash, -⟩ := startsWord_ne hb
  have hnot : isSpace b.toNat = false := by
    rw [← Bool.not_eq_true]
    intro h
    rw [(isSpace_iff b).mpr ⟨hascii, h⟩] at hspace
    cases hspace
  simp [solid, hascii, hnot, hdash, hslash]

/-- A text that lowers to ASCII byte by byte is ASCII. -/
theorem ascii_of_lower {w : Text} (h : ∀ b ∈ lower w, b.toNat < 0x80) : ∀ b ∈ w, b.toNat < 0x80 := by
  intro b hb
  by_contra hhigh
  have hlow := h _ (List.mem_map_of_mem hb)
  rw [lowerByte_of_high (Nat.le_of_not_lt hhigh)] at hlow
  exact hhigh hlow

section Agreed

variable {s : Text} (hscanner : keywords.gap s = 0) (hpostgres : reading.gap s = 0) (hreads : Reads s)

include hscanner hreads

/-- Where the scanner stops in front of a read, the first word is one of its words. -/
theorem word_mem_of_reads : toLower (s.take (keywords.word s)) ∈ scannerWords := by
  have h := readKeywords_subset hreads.1
  rwa [Sql.Reading.firstWord, Sql.Reading.skip_of_gap_eq_zero hscanner] at h

/-- Its bytes continue a word of PostgreSQL. -/
theorem takeWhile_of_reads : s.takeWhile continuesWord =
    s.take (keywords.word s) ++ (s.drop (keywords.word s)).takeWhile continuesWord := by
  have hcontinues : ∀ b ∈ s.take (keywords.word s), continuesWord b = true := by
    intro b hb
    exact continuesWord_of_startsWord (startsWord_of_mem (word_mem_of_reads hscanner hreads) hb)
  rw [← List.takeWhile_append_of_pos hcontinues, List.take_append_drop]

include hpostgres

/-- Where both readings stop in front of a read, the first keyword of PostgreSQL is made of all the
bytes that continue a word. -/
theorem keyword_of_reads : keyword (lex s) = some (lower (s.takeWhile continuesWord)) := by
  obtain ⟨hkind, htake⟩ := token_of_word (word_mem_of_reads hscanner hreads)
  rw [Sql.Postgres.keyword_lex, Sql.Reading.skip_of_gap_eq_zero hpostgres, if_pos hkind, htake]

/-- If the word and the byte behind it are ASCII, PostgreSQL's keyword is the scanner's. -/
theorem keyword_of_not_foreign (hplain : ¬ Foreign s) :
    keyword (lex s) = some (toLower (keywords.firstWord s)) := by
  have hascii : ∀ b ∈ s.take (keywords.word s + 1), b.toNat < 0x80 := by
    intro b hb
    by_contra hhigh
    exact hplain ⟨b, hb, Nat.le_of_not_lt hhigh⟩
  rw [List.take_add] at hascii
  have hstop : (s.drop (keywords.word s)).takeWhile continuesWord = [] := by
    cases hrest : s.drop (keywords.word s) with
    | nil => rfl
    | cons c rest =>
      have hc : c.toNat < 0x80 := hascii c (by simp [hrest])
      have hends := decodeRune_drop_bytesBefore (p := endsKeyword) (s := s)
        (by rw [← word_keywords, hrest]; exact List.cons_ne_nil c rest)
      rw [← word_keywords, hrest] at hends
      have hrune : (decodeRune (c :: rest)).1 = c.toNat := by simp [decodeRune, hc]
      rw [hrune] at hends
      rw [List.takeWhile_cons_of_neg (by simp [continuesWord_of_endsKeyword hc hends])]
  have hword : ∀ b ∈ s.take (keywords.word s), b.toNat < 0x80 :=
    fun b hb => hascii b (List.mem_append_left _ hb)
  rw [keyword_of_reads hscanner hpostgres hreads, takeWhile_of_reads hscanner hreads, hstop,
    List.append_nil, Sql.Reading.firstWord, Sql.Reading.skip_of_gap_eq_zero hscanner,
    toLower_of_ascii hword]

/-- Otherwise it is no read keyword. -/
theorem keyword_of_foreign (hforeign : Foreign s) : ∀ w ∈ readKeywords, keyword (lex s) ≠ some w := by
  obtain ⟨b, hb, hhigh⟩ := hforeign
  have hmem : b ∈ s.takeWhile continuesWord := by
    rw [takeWhile_of_reads hscanner hreads]
    rw [List.take_add, List.mem_append] at hb
    refine List.mem_append.mpr (hb.imp_right fun hnext => ?_)
    cases hrest : s.drop (keywords.word s) with
    | nil => simp [hrest] at hnext
    | cons c rest =>
      obtain rfl : b = c := by simpa [hrest] using hnext
      have hstarts : startsWord b = true := startsWord_of_lower fun hascii => by omega
      rw [List.takeWhile_cons_of_pos (continuesWord_of_startsWord hstarts)]
      exact List.mem_cons_self
  intro w hw heq
  rw [keyword_of_reads hscanner hpostgres hreads, Option.some.injEq] at heq
  have hlow := (scannerWords_ascii w (readKeywords_subset hw)).1 (lowerByte b)
    (heq ▸ List.mem_map_of_mem hmem)
  rw [lowerByte_of_high hhigh] at hlow
  omega

end Agreed

/-- A text that starts with a byte that is not ASCII has no read keyword. -/
theorem keyword_of_high {b : UInt8} (hb : 0x80 ≤ b.toNat) (t : Text) :
    ∀ w ∈ readKeywords, keyword (lex (b :: t)) ≠ some w := by
  have hstarts : startsWord b = true := startsWord_of_lower fun hascii => by omega
  have htoken := Sql.Postgres.token_word (s := t) hstarts (by
    rintro (rfl | rfl) <;> exact absurd hb (by decide))
  have hgap : reading.gap (b :: t) = 0 := Sql.Postgres.gap_of_not_blank (by rw [htoken]; rfl)
  intro w hw heq
  rw [Sql.Postgres.keyword_lex, Sql.Reading.skip_of_gap_eq_zero hgap, htoken, if_pos rfl,
    Option.some.injEq] at heq
  have hlow := (scannerWords_ascii w (readKeywords_subset hw)).1 (lowerByte b)
    (heq ▸ List.mem_map_of_mem (by simp))
  rw [lowerByte_of_high hb] at hlow
  omega

/-- For texts the scanner sees whole, up to the comments that it skips like PostgreSQL: a read has a
read keyword if what follows starts with an ASCII word, and none otherwise. -/
theorem keyword_of_reads_apart {sql : Text} (hparts : ¬ Parts (common.skip sql)) (hreads : Reads sql) :
    (¬ Foreign (common.skip sql) → ∃ w ∈ readKeywords, keyword (lex sql) = some w) ∧
      (Foreign (common.skip sql) → ∀ w ∈ readKeywords, keyword (lex sql) ≠ some w) := by
  obtain ⟨hscanner, hpostgres⟩ : keywords.skip (common.skip sql) = keywords.skip sql ∧
      reading.skip (common.skip sql) = reading.skip sql := Sql.Reading.skip_meet sql
  rw [← reads_congr hscanner] at hreads
  rw [← keyword_congr hpostgres]
  obtain hgap | ⟨b, t, hs, hhigh⟩ := gap_eq_or_high hparts
  · have hstop : keywords.gap (common.skip sql) = 0 := Sql.Reading.gap_meet_skip sql hgap
    have hstop' := hgap ▸ hstop
    exact ⟨fun hplain => ⟨_, hreads.1, keyword_of_not_foreign hstop hstop' hreads hplain⟩,
      keyword_of_foreign hstop hstop' hreads⟩
  · rw [hs]
    refine ⟨fun hplain => absurd ⟨b, ?_, hhigh⟩ hplain, fun _ => keyword_of_high hhigh t⟩
    rw [List.take_succ_cons]
    exact List.mem_cons_self

/-- Leading comments that the scanner and PostgreSQL skip alike hide no write from an idle read or compat
session: a text that classifies as a read has a read keyword if the word behind the comments, with the
byte behind it, is ASCII. Otherwise it has none. -/
theorem leading_comments_keyword (stmt : Statement) (sess : SessionState) (hidle : IdleRead stmt sess)
    (hlen : stmt.sql.length ≤ 64) (hparts : ¬ Parts (common.skip stmt.sql)) :
    (¬ Foreign (common.skip stmt.sql) → (classify stmt sess).1.kind = .read →
        ∃ w ∈ readKeywords, keyword (lex stmt.sql) = some w) ∧
      (Foreign (common.skip stmt.sql) → (classify stmt sess).1.kind = .read →
        ∀ w ∈ readKeywords, keyword (lex stmt.sql) ≠ some w) := by
  rw [hidle.classify_eq, classifyByKeyword_eq, List.take_of_length_le hlen, classOf_scanKeyword_iff]
  constructor
  · intro hplain hreads
    exact (keyword_of_reads_apart hparts hreads).1 hplain
  · intro hforeign hreads
    exact (keyword_of_reads_apart hparts hreads).2 hforeign

/-- The theorem at a read behind an ordinary comment. -/
theorem leading_comments_keyword_select :
    ∃ w ∈ readKeywords, keyword (lex (text "/* x */ SELECT 1")) = some w := by
  have hskip : common.skip (text "/* x */ SELECT 1") = text "SELECT 1" := by decide
  refine (leading_comments_keyword ⟨[], text "/* x */ SELECT 1"⟩ ⟨.read, .idle, none⟩
    ⟨.inl rfl, rfl, by simp⟩ (by decide) ?_).1 ?_ (by decide)
  · have hhead {s : Text} (hparts : Parts s) : s.head? = some 0x2D ∨ s.head? = some 0x2F := by
      cases hparts with
      | line => exact .inl rfl
      | block => exact .inr rfl
    rw [hskip]
    exact fun hparts => absurd (hhead hparts) (by decide)
  · rw [hskip, Foreign]
    decide

/-- A comment whose opener and first slash look like a whole comment to the scanner. -/
def hiddenDelete : Text := text "/*/ SELECT 1 */ DELETE FROM t"

/-- The text deletes rows and classifies as a read on an idle read session. -/
theorem hidden_delete_reads : hiddenDelete.length ≤ 64 ∧
    IdleRead ⟨[], hiddenDelete⟩ ⟨.read, .idle, none⟩ ∧
    (classify ⟨[], hiddenDelete⟩ ⟨.read, .idle, none⟩).1.kind = .read ∧
    keyword (lex hiddenDelete) = some (text "delete") :=
  ⟨by decide, ⟨.inl rfl, rfl, by simp⟩, by decide, by decide⟩

end Grunyas.Classifier
