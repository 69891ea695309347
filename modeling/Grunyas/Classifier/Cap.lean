import Grunyas.Classifier.Scanner
import Grunyas.Go.Cut

/-!
# The cap on what the scanner reads

The scanner looks at the first 64 bytes of a statement. What a cut does to each of its loops:
white space and comments that end before the cut are skipped as before, and a cut within them
leaves nothing, one byte of a comment's opener, or bytes that do not decode, none of which is a
keyword; a word that ends before the cut is read as before, if the rune that ends it is whole; a
parenthesised list counts only if its closing parenthesis is there.
-/

namespace Grunyas.Classifier

open GoText Grunyas.Server

/-- The words the scanner compares with. -/
def scannerWords : List Text := readKeywords ++ text "analyze" :: bareFlags

/-- They are ASCII texts that start with a letter. -/
theorem scannerWords_ascii : ∀ w ∈ scannerWords, (∀ b ∈ w, b.toNat < 0x80) ∧
    ∃ b, w.head? = some b ∧ 0x61 ≤ b.toNat := by
  decide +kernel

/-- None of them begins another. -/
theorem scannerWords_prefix : ∀ v ∈ scannerWords, ∀ w ∈ scannerWords, v <+: w → v = w := by
  decide

/-- The lower case of a text is an ASCII text exactly if its runes lower to it. -/
theorem toLower_eq_iff {w : Text} (hw : ∀ b ∈ w, b.toNat < 0x80) (s : Text) :
    toLower s = w ↔ (runes s).map lowerRune = w.map UInt8.toNat := by
  rw [eq_iff_runes hw, runes_toLower]

/-- A text that lowers to ASCII decodes. -/
theorem runeError_not_mem {w s : Text} (hw : ∀ b ∈ w, b.toNat < 0x80) (h : toLower s = w) :
    runeError ∉ runes s := by
  intro hmem
  rw [toLower_eq_iff hw] at h
  have herr : lowerRune runeError ∈ w.map UInt8.toNat := h ▸ List.mem_map_of_mem hmem
  obtain ⟨b, hb, hlower⟩ := List.mem_map.mp herr
  have hhigh : 0x80 ≤ lowerRune runeError := by decide
  have hlt := hw b hb
  omega

/-- Of two texts that lower to words of the scanner neither begins the other. -/
theorem eq_of_prefix_of_word {s t : Text} (hstarts : s <+: t) (hs : toLower s ∈ scannerWords)
    (ht : toLower t ∈ scannerWords) : s = t := by
  obtain ⟨more, rfl⟩ := hstarts
  have hascii := (scannerWords_ascii _ hs).1
  have hruns := runes_append_of_not_mem (runeError_not_mem hascii rfl) more
  have hlower : runes (toLower (s ++ more)) =
      (toLower s).map UInt8.toNat ++ (runes more).map lowerRune := by
    rw [runes_toLower, hruns, List.map_append, (toLower_eq_iff hascii s).mp rfl]
  have hle : toLower s <+: toLower (s ++ more) := by
    rw [← List.isPrefixOf_iff_prefix, ← hasPrefix, hasPrefix_iff_runes hascii, hlower]
    exact List.prefix_append _ _
  rw [← scannerWords_prefix _ hs _ ht hle, (eq_iff_runes hascii _).mp rfl] at hlower
  have hnil : (runes more).map lowerRune = [] := List.self_eq_append_right.mp hlower
  rw [runes_eq_nil_iff.mp (List.map_eq_nil_iff.mp hnil), List.append_nil]

/-- The opener of a line comment holds no line feed. -/
theorem two_le_gap_line (t : Text) : 2 ≤ keywords.gap (0x2D :: 0x2D :: t) := by
  have hindex : index (text "\n") (0x2D :: 0x2D :: t) =
      ((index (text "\n") t).map (· + 1)).map (· + 1) := by
    have hfirst (s : Text) : ¬ hasPrefix (0x2D :: s) (text "\n") = true := by
      rw [show text "\n" = [0x0A] by decide, hasPrefix_singleton]
      rintro ⟨s', hs'⟩
      exact absurd (List.cons_eq_cons.mp hs').1 (by decide)
    rw [index, if_neg (hfirst _), index, if_neg (hfirst _)]
  rw [gap_line, bytesThrough, hindex]
  cases index (text "\n") t with
  | none => exact Nat.le_add_left 2 t.length
  | some i => exact Nat.le_add_left 2 (i + 1)

theorem two_le_gap_block (t : Text) : 2 ≤ keywords.gap (0x2F :: 0x2A :: t) := by
  rw [gap_block, bytesThrough]
  cases index (text "*/") (0x2F :: 0x2A :: t) with
  | none => exact Nat.le_add_left 2 t.length
  | some i => exact Nat.le_add_left 2 i

theorem take_cons_cons (a b : UInt8) {m : ℕ} (h : 2 ≤ m) (t : Text) :
    (a :: b :: t).take m = a :: b :: t.take (m - 2) := by
  obtain ⟨m, rfl⟩ := Nat.exists_eq_add_of_le' h
  rfl

/-- A cut text starts with white space only if the whole does. -/
theorem isSpace_take {s : Text} {m : ℕ} (h : isSpace (decodeRune s).1 = false) :
    isSpace (decodeRune (s.take m)).1 = false := by
  have herr : isSpace runeError = false := by decide
  by_cases hs : s = []
  · rwa [hs, List.take_nil, ← hs]
  obtain ⟨head, rest, r, hne, rfl, hd⟩ := exists_rune hs
  rw [hd] at h
  by_cases hm : m < head.length
  · rw [List.take_append_of_le_length (Nat.le_of_lt hm)]
    by_cases hzero : m = 0
    · rw [hzero, List.take_zero]
      exact herr
    · rw [decodeRune_take_of_lt hd hm hzero]
      exact herr
  · have hfront := List.take_prefix (m - head.length) rest
    have hd' := decodeRune_of_prefix hne hd hfront
    rwa [List.take_append, List.take_of_length_le (Nat.le_of_not_lt hm), hd']

/-- A prefix that is not there does not appear by a cut. -/
theorem hasPrefix_take_eq_false {s p : Text} {m : ℕ} (h : hasPrefix s p = false) :
    hasPrefix (s.take m) p = false := by
  rw [← Bool.not_eq_true] at h ⊢
  exact fun hcut => h (hasPrefix_take.mp hcut).1

/-- The scanner takes a piece that ends before the cut as in the whole text. -/
theorem keywords_gap_take (s : Text) (m : ℕ) (h : keywords.gap s ≤ m) :
    keywords.gap (s.take m) = keywords.gap s := by
  obtain ⟨head, rest, r, hne, rfl, hd, hr⟩ | ⟨t, rfl⟩ | ⟨t, rfl⟩ | ⟨hspace, hline, hblock⟩ := gap_cases s
  · rw [gap_space hd hr] at h ⊢
    have hfront := List.take_prefix (m - head.length) rest
    have hd' := decodeRune_of_prefix hne hd hfront
    rw [List.take_append, List.take_of_length_le h, gap_space hd' hr]
  · have htake := take_cons_cons 0x2D 0x2D (Nat.le_trans (two_le_gap_line t) h) t
    rw [gap_line] at h ⊢
    rw [← bytesThrough_take (by decide) h, htake, gap_line]
  · have htake := take_cons_cons 0x2F 0x2A (Nat.le_trans (two_le_gap_block t) h) t
    rw [gap_block] at h ⊢
    rw [← bytesThrough_take (by decide) h, htake, gap_block]
  · rw [gap_eq_zero hspace hline hblock, gap_eq_zero (isSpace_take hspace)
      (hasPrefix_take_eq_false hline) (hasPrefix_take_eq_false hblock)]

/-- A text that starts like what a cut leaves of white space or a comment: nothing, a hyphen, a
slash or a byte that does not decode. -/
def Fragment (s : Text) : Prop := ∀ r ∈ (runes s).head?, r = 0x2D ∨ r = 0x2F ∨ r = runeError

theorem fragment_nil : Fragment [] := by
  intro r hr
  simp at hr

/-- One byte of an opener is a fragment. -/
theorem fragment_singleton {b : UInt8} (hb : b = 0x2D ∨ b = 0x2F) :
    Fragment (keywords.skip [b]) := by
  obtain rfl | rfl := hb
  · rw [Sql.Reading.skip_of_gap_eq_zero (by decide)]
    intro r hr
    exact .inl (Option.some.inj hr).symm
  · rw [Sql.Reading.skip_of_gap_eq_zero (by decide)]
    intro r hr
    exact .inr (.inl (Option.some.inj hr).symm)

/-- A text that the scanner takes for one piece is skipped. -/
theorem skip_of_gap_eq_length {s : Text} (h : keywords.gap s = s.length) : keywords.skip s = [] := by
  by_cases hs : s = []
  · rw [hs, Sql.Reading.skip_nil]
  · have hpos := List.length_pos_of_ne_nil hs
    rw [Sql.Reading.skip_of_gap (by omega), h, List.drop_length, Sql.Reading.skip_nil]

/-- A cut within a rune of white space leaves bytes that do not decode. -/
theorem fragment_take_of_space {head rest : Text} {r m : ℕ}
    (hd : decodeRune (head ++ rest) = (r, head.length)) (h : m < head.length) (hm : m ≠ 0) :
    Fragment (keywords.skip ((head ++ rest).take m)) := by
  have hcut := decodeRune_take_of_lt hd h hm
  have hgap : keywords.gap (head.take m) = 0 := by
    apply gap_eq_zero
    · rw [hcut]
      decide
    · rw [← Bool.not_eq_true, hasPrefix_line]
      rintro ⟨t, ht⟩
      rw [ht] at hcut
      exact absurd (congrArg Prod.fst hcut) (show (0x2D : ℕ) ≠ runeError by decide)
    · rw [← Bool.not_eq_true, hasPrefix_block]
      rintro ⟨t, ht⟩
      rw [ht] at hcut
      exact absurd (congrArg Prod.fst hcut) (show (0x2F : ℕ) ≠ runeError by decide)
  rw [List.take_append_of_le_length (Nat.le_of_lt h), Sql.Reading.skip_of_gap_eq_zero hgap]
  intro x hx
  exact .inr (.inr (eq_runeError_of_mem_take hd h x (List.mem_of_mem_head? hx)))

/-- A cut within a comment leaves the first byte of its opener, or a comment that is not closed. -/
theorem fragment_take_of_comment {a b : UInt8} {sub t : Text} {m : ℕ} (hsub : sub ≠ [])
    (hgap : ∀ t, keywords.gap (a :: b :: t) = bytesThrough sub (a :: b :: t))
    (hopener : Fragment (keywords.skip [a])) (h : m < keywords.gap (a :: b :: t)) (hm : m ≠ 0) :
    Fragment (keywords.skip ((a :: b :: t).take m)) := by
  by_cases hone : m = 1
  · rw [hone]
    exact hopener
  · have htake := take_cons_cons a b (show 2 ≤ m by omega) t
    rw [hgap] at h
    have hall := bytesThrough_take_of_lt hsub h
    rw [skip_of_gap_eq_length (by rw [htake, hgap, ← htake, hall])]
    exact fragment_nil

/-- A cut within a piece leaves nothing or a fragment of it. -/
theorem fragment_of_lt_gap {s : Text} {m : ℕ} (h : m < keywords.gap s) :
    Fragment (keywords.skip (s.take m)) := by
  by_cases hm : m = 0
  · rw [hm, List.take_zero]
    exact fragment_nil
  obtain ⟨head, rest, r, hne, rfl, hd, hr⟩ | ⟨t, rfl⟩ | ⟨t, rfl⟩ | ⟨hspace, hline, hblock⟩ := gap_cases s
  · rw [gap_space hd hr] at h
    exact fragment_take_of_space hd h hm
  · exact fragment_take_of_comment (by decide) gap_line (fragment_singleton (.inl rfl)) h hm
  · exact fragment_take_of_comment (by decide) gap_block (fragment_singleton (.inr rfl)) h hm
  · rw [gap_eq_zero hspace hline hblock] at h
    exact absurd h (Nat.not_lt_zero m)

/-- No word of the scanner starts a fragment. -/
theorem Fragment.word_not_mem {s : Text} (h : Fragment s) (ends : ℕ → Bool) :
    toLower (s.take (bytesBefore ends s)) ∉ scannerWords := by
  intro hmem
  obtain ⟨hascii, b, hb, hletter⟩ := scannerWords_ascii _ hmem
  have hlower := (toLower_eq_iff hascii _).mp rfl
  rw [runes_take_bytesBefore] at hlower
  generalize toLower (s.take (bytesBefore ends s)) = w at hascii hb hlower
  cases hw : w with
  | nil => simp [hw] at hb
  | cons c w =>
    obtain rfl : c = b := by simpa [hw] using hb
    rw [hw, List.map_cons] at hlower
    cases hr : runes s with
    | nil => simp [hr] at hlower
    | cons r rs =>
      rw [hr, List.takeWhile_cons] at hlower
      have hfirst := h r (by simp [hr])
      split_ifs at hlower
      · have hbyte : lowerRune r = c.toNat := (List.cons_eq_cons.mp hlower).1
        have hnot : lowerRune 0x2D < 0x61 ∧ lowerRune 0x2F < 0x61 ∧ lowerRune runeError = runeError := by
          decide
        have hlt := hascii c (by simp [hw])
        obtain rfl | rfl | rfl := hfirst
        · omega
        · omega
        · rw [hnot.2.2] at hbyte
          have hhigh : 0x80 ≤ runeError := by decide
          omega
      · exact absurd hlower (List.cons_ne_nil _ _).symm

/-- Where a fragment is left, no `ANALYZE` is found. -/
theorem bareAnalyze_of_fragment {s : Text} (h : Fragment (keywords.skip s)) : bareAnalyze s = none := by
  have hword : toLower (keywords.firstWord s) ∉ scannerWords := h.word_not_mem endsKeyword
  rw [bareAnalyze_eq]
  split_ifs with hzero hanalyze hflag
  · rfl
  · exact absurd (by rw [hanalyze]; decide) hword
  · rw [List.contains_iff_mem] at hflag
    exact absurd (List.mem_append_right _ (List.mem_cons_of_mem _ hflag)) hword
  · rfl

/-- What is behind comments and white space in a cut text: a fragment, or what the cut leaves. -/
theorem skip_take_cases (s : Text) (m : ℕ) :
    (m < keywords.lead s ∧ Fragment (keywords.skip (s.take m))) ∨
    (keywords.lead s ≤ m ∧
      keywords.skip (s.take m) = (keywords.skip s).take (m - keywords.lead s)) := by
  rcases Nat.lt_or_ge m (keywords.lead s) with hm | hm
  · obtain ⟨t, j, hj, heq⟩ := Sql.Reading.skip_take_of_lt keywords_gap_take hm
    exact .inl ⟨hm, heq ▸ fragment_of_lt_gap hj⟩
  · exact .inr ⟨hm, Sql.Reading.skip_take keywords_gap_take hm⟩

/-- Whether a cut leaves a word as it is: it falls right behind the word, or behind the rune that
ends it. -/
def Spares (cut stop beyond : ℕ) : Prop := cut = stop ∨ beyond ≤ cut

theorem spares_add {cut stop beyond : ℕ} (n : ℕ) :
    Spares (n + cut) (n + stop) (n + beyond) ↔ Spares cut stop beyond := by
  unfold Spares
  omega

/-- The end of the rune behind the word in front of a text. -/
def wordBeyond (s : Text) : ℕ := keywords.word s + (decodeRune (s.drop (keywords.word s))).2

theorem wordBeyond_le (s : Text) : wordBeyond s ≤ s.length := by
  have hle := bytesBefore_le endsKeyword s
  have hwidth := decodeRune_width_le (s.drop (keywords.word s))
  rw [List.length_drop] at hwidth
  rw [← word_keywords] at hle
  unfold wordBeyond
  omega

/-- A word that the cut spares is read as in the whole text. -/
theorem word_take_of_spares {s : Text} {m : ℕ} (h : Spares m (keywords.word s) (wordBeyond s)) :
    keywords.word (s.take m) = keywords.word s := by
  have hle := bytesBefore_le endsKeyword s
  have htake := bytesBefore_take (p := endsKeyword) (by decide) s m
  change keywords.word (s.take m) =
    if wordBeyond s ≤ m then keywords.word s else (s.take m).length at htake
  rw [htake]
  obtain heq | hbeyond := h
  · split_ifs
    · rfl
    · rw [List.length_take, heq]
      exact Nat.min_eq_left hle
  · rw [if_pos hbeyond]

/-- A cut that does not spare the word leaves nothing that ends it, and other bytes than the word. -/
theorem word_take_of_not_spares {s : Text} {m : ℕ}
    (h : ¬ Spares m (keywords.word s) (wordBeyond s)) :
    keywords.word (s.take m) = (s.take m).length ∧ s.take m ≠ s.take (keywords.word s) := by
  have htake := bytesBefore_take (p := endsKeyword) (by decide) s m
  change keywords.word (s.take m) =
    if wordBeyond s ≤ m then keywords.word s else (s.take m).length at htake
  have hle : keywords.word s ≤ s.length := bytesBefore_le endsKeyword s
  have hbeyond := wordBeyond_le s
  unfold Spares at h
  rw [if_neg (by omega)] at htake
  refine ⟨htake, fun heq => ?_⟩
  have hlen := congrArg List.length heq
  rw [List.length_take, List.length_take] at hlen
  omega

/-- A cut that does not spare a word of the scanner leaves no other in its place. -/
theorem not_mem_of_not_spares {s : Text} {m : ℕ}
    (hword : toLower (s.take (keywords.word s)) ∈ scannerWords)
    (h : ¬ Spares m (keywords.word s) (wordBeyond s)) :
    toLower ((s.take m).take (keywords.word (s.take m))) ∉ scannerWords := by
  obtain ⟨hall, hne⟩ := word_take_of_not_spares h
  rw [hall, List.take_length]
  intro hmem
  rcases Nat.le_total m (keywords.word s) with hle | hle
  · exact hne (eq_of_prefix_of_word (List.take_prefix_take_left hle) hmem hword)
  · exact hne (eq_of_prefix_of_word (List.take_prefix_take_left hle) hword hmem).symm

/-- The cut text of which the first word is spared: the word is the same, and what follows it is cut
where the text is. -/
theorem cut_of_spares {s : Text} {c : ℕ}
    (h : Spares c (keywords.word (keywords.skip s)) (wordBeyond (keywords.skip s))) :
    ∃ k, c = keywords.word (keywords.skip s) + k ∧
      keywords.firstWord (s.take (keywords.lead s + c)) = keywords.firstWord s ∧
      afterWord (s.take (keywords.lead s + c)) = (afterWord s).take k := by
  have hle : keywords.word (keywords.skip s) ≤ c := by
    unfold Spares wordBeyond at h
    omega
  have hskip : keywords.skip (s.take (keywords.lead s + c)) = (keywords.skip s).take c := by
    rw [Sql.Reading.skip_take keywords_gap_take (Nat.le_add_right _ _), Nat.add_sub_cancel_left]
  have hword := word_take_of_spares h
  refine ⟨c - keywords.word (keywords.skip s), (Nat.add_sub_of_le hle).symm, ?_, ?_⟩
  · rw [Sql.Reading.firstWord, hskip, hword, List.take_take, Nat.min_eq_left hle,
      Sql.Reading.firstWord]
  · rw [afterWord, hskip, hword, List.drop_take, afterWord]

/-- What the flags up to `ANALYZE` say of a text: its first word is `ANALYZE`, or a flag with
`ANALYZE` in the rest. -/
theorem bareAnalyze_eq_some {s : Text} {stop : ℕ} (h : bareAnalyze s = some stop) :
    keywords.word (keywords.skip s) ≠ 0 ∧
    ((toLower (keywords.firstWord s) = text "analyze" ∧ stop = wordEnd s) ∨
      (toLower (keywords.firstWord s) ∈ bareFlags ∧ ∃ rest,
        bareAnalyze (afterWord s) = some rest ∧ stop = wordEnd s + rest)) := by
  rw [bareAnalyze_eq] at h
  split_ifs at h with hword hanalyze hflag
  · exact ⟨hword, .inl ⟨hanalyze, (Option.some.inj h).symm⟩⟩
  · obtain ⟨rest, hrest, hstop⟩ := Option.map_eq_some_iff.mp h
    exact ⟨hword, .inr ⟨List.contains_iff_mem.mp hflag, rest, hrest, hstop.symm⟩⟩

/-- The first word of a text with `ANALYZE` behind flags is a word of the scanner. -/
theorem firstWord_mem_of_bareAnalyze {s : Text} {stop : ℕ} (h : bareAnalyze s = some stop) :
    toLower (keywords.firstWord s) ∈ scannerWords := by
  obtain ⟨-, ⟨hanalyze, -⟩ | ⟨hflag, -⟩⟩ := bareAnalyze_eq_some h
  · rw [hanalyze]
    decide
  · exact List.mem_append_right _ (List.mem_cons_of_mem _ hflag)

/-- Behind a rune that ends a word, `ANALYZE` is found only behind that rune. -/
theorem width_le_of_bareAnalyze {s : Text} {stop : ℕ} (hends : endsKeyword (decodeRune s).1 = true)
    (h : bareAnalyze s = some stop) : (decodeRune s).2 ≤ stop := by
  have hs : s ≠ [] := by
    rintro rfl
    exact absurd hends (by decide)
  obtain ⟨head, rest, r, hne, rfl, hd⟩ := exists_rune hs
  have hpos := List.length_pos_of_ne_nil hne
  rw [hd] at hends ⊢
  cases hr : isSpace r with
  | true =>
    have hgap := gap_space hd hr
    have hlead : keywords.lead (head ++ rest) = keywords.gap (head ++ rest) +
        keywords.lead ((head ++ rest).drop (keywords.gap (head ++ rest))) := by
      apply Sql.Reading.lead_of_gap
      · omega
      · rw [hgap, List.length_append]
        omega
    obtain ⟨-, ⟨-, hstop⟩ | ⟨-, more, -, hstop⟩⟩ := bareAnalyze_eq_some h <;>
      (rw [wordEnd] at hstop; omega)
  | false =>
    -- a parenthesis or a semicolon is no word
    have hbyte : ∃ b, solid b = true ∧ head = [b] := by
      have hcases : r = 0x28 ∨ r = 0x3B := by simpa [endsKeyword, hr] using hends
      obtain herr | ⟨-, he⟩ := eq_runeError_or_encodeRune hne hd
      · obtain rfl | rfl := hcases <;> exact absurd herr (by decide)
      · obtain rfl | rfl := hcases
        · exact ⟨0x28, by decide, he⟩
        · exact ⟨0x3B, by decide, he⟩
    obtain ⟨b, hb, rfl⟩ := hbyte
    have hskip : keywords.skip ([b] ++ rest) = [b] ++ rest :=
      Sql.Reading.skip_of_gap_eq_zero (gap_of_solid hb rest)
    have hzero : keywords.word ([b] ++ rest) = 0 := by
      rw [word_keywords, bytesBefore_rune endsKeyword hne hd, if_pos hends]
    have hword := (bareAnalyze_eq_some h).1
    rw [hskip] at hword
    exact absurd hzero hword

/-- `ANALYZE` behind bare flags does not end before the first word does. -/
theorem wordEnd_le_of_bareAnalyze {s : Text} {stop : ℕ} (h : bareAnalyze s = some stop) :
    wordEnd s ≤ stop := by
  obtain ⟨-, ⟨-, rfl⟩ | ⟨-, more, -, rfl⟩⟩ := bareAnalyze_eq_some h
  · exact Nat.le_refl _
  · exact Nat.le_add_right _ _

theorem drop_lead_add (s : Text) (k : ℕ) :
    s.drop (keywords.lead s + k) = (keywords.skip s).drop k := by
  rw [← List.drop_drop, Sql.Reading.drop_lead]

/-- A cut that does not spare the first word does not spare the `ANALYZE` in it or behind it. -/
theorem not_spares_of_bareAnalyze {s : Text} {stop c : ℕ} (h : bareAnalyze s = some stop)
    (hword : ¬ Spares c (keywords.word (keywords.skip s)) (wordBeyond (keywords.skip s))) :
    ¬ Spares (keywords.lead s + c) stop (stop + (decodeRune (s.drop stop)).2) := by
  obtain ⟨-, ⟨-, rfl⟩ | ⟨-, more, hmore, rfl⟩⟩ := bareAnalyze_eq_some h
  · rw [wordEnd, drop_lead_add, Nat.add_assoc, spares_add]
    exact hword
  · -- `ANALYZE` lies behind the rune that ends the first word
    have hrest : afterWord s ≠ [] := by
      intro hnil
      rw [hnil, show bareAnalyze [] = none by decide] at hmore
      cases hmore
    have hwidth := width_le_of_bareAnalyze (decodeRune_drop_bytesBefore hrest) hmore
    rw [← word_keywords] at hwidth
    unfold Spares wordBeyond wordEnd at *
    omega

/-- A cut text has `ANALYZE` behind bare flags, as the whole has, if the cut spares it. -/
theorem isSome_bareAnalyze_take {s : Text} {stop : ℕ} (h : bareAnalyze s = some stop) (m : ℕ) :
    (bareAnalyze (s.take m)).isSome = true ↔
      Spares m stop (stop + (decodeRune (s.drop stop)).2) := by
  induction hn : s.length using Nat.strong_induction_on generalizing s stop m with
  | _ n ih =>
    obtain ⟨hm, hfrag⟩ | ⟨hm, hskip⟩ := skip_take_cases s m
    · have hle := wordEnd_le_of_bareAnalyze h
      rw [bareAnalyze_of_fragment hfrag]
      refine iff_of_false (by simp) ?_
      unfold Spares wordEnd at *
      omega
    obtain ⟨c, rfl⟩ := Nat.exists_eq_add_of_le hm
    rw [Nat.add_sub_cancel_left] at hskip
    by_cases hspares : Spares c (keywords.word (keywords.skip s)) (wordBeyond (keywords.skip s))
    · obtain ⟨k, rfl, hfirst, hafter⟩ := cut_of_spares hspares
      rw [isSome_bareAnalyze_iff, hfirst, hafter]
      obtain ⟨hword, ⟨hanalyze, rfl⟩ | ⟨hflag, more, hmore, rfl⟩⟩ := bareAnalyze_eq_some h
      · rw [wordEnd, drop_lead_add, Nat.add_assoc, spares_add]
        exact iff_of_true (.inl hanalyze) hspares
      · have hnot : toLower (keywords.firstWord s) ≠ text "analyze" := by
          intro heq
          rw [heq] at hflag
          exact absurd hflag (by decide)
        have hlt := length_afterWord_lt hword
        rw [or_iff_right hnot, and_iff_right hflag, ih _ (hn ▸ hlt) hmore k rfl, wordEnd,
          Nat.add_assoc (keywords.lead s), drop_lead_add, ← List.drop_drop, Nat.add_assoc,
          Nat.add_assoc, spares_add, spares_add, afterWord]
    · -- what is left of the first word is neither a flag nor `ANALYZE`
      have hnone : bareAnalyze (s.take (keywords.lead s + c)) = none := by
        rw [Option.eq_none_iff_forall_ne_some]
        intro x hx
        have hcut := firstWord_mem_of_bareAnalyze hx
        rw [Sql.Reading.firstWord, hskip] at hcut
        exact not_mem_of_not_spares (firstWord_mem_of_bareAnalyze h) hspares hcut
      rw [hnone]
      exact iff_of_false (by simp) (not_spares_of_bareAnalyze h hspares)

/-- A closing parenthesis is at least one byte away. -/
theorem pos_of_closingParen {depth : ℕ} {s : Text} {k : ℕ} (h : closingParen depth s = some k) :
    0 < k := by
  cases s with
  | nil => simp [closingParen] at h
  | cons b s =>
    rw [closingParen] at h
    generalize (if b = 0x28 then depth + 1 else if b = 0x29 then depth - 1 else depth) = inner at h
    split_ifs at h
    · exact Option.some.inj h ▸ Nat.one_pos
    · obtain ⟨j, -, rfl⟩ := Option.map_eq_some_iff.mp h
      exact Nat.succ_pos j

/-- A list that closes before the cut closes in the cut text. -/
theorem closingParen_take {depth : ℕ} {s : Text} {m k : ℕ} :
    closingParen depth (s.take m) = some k ↔ closingParen depth s = some k ∧ k ≤ m := by
  induction s generalizing depth m k with
  | nil =>
    rw [List.take_nil]
    exact ⟨fun h => by simp [closingParen] at h, fun h => h.1⟩
  | cons b s ih =>
    cases m with
    | zero =>
      refine iff_of_false (by simp [closingParen]) ?_
      rintro ⟨h, hk⟩
      exact absurd (pos_of_closingParen h) (Nat.not_lt.mpr hk)
    | succ m =>
      rw [List.take_succ_cons, closingParen, closingParen]
      generalize (if b = 0x28 then depth + 1 else if b = 0x29 then depth - 1 else depth) = inner
      by_cases hinner : inner = 0
      · simp only [hinner, if_true, Option.some.injEq]
        omega
      · simp only [hinner, if_false, Option.map_eq_some_iff, ih]
        constructor
        · rintro ⟨j, ⟨hj, hle⟩, rfl⟩
          exact ⟨⟨j, hj, rfl⟩, Nat.succ_le_succ hle⟩
        · rintro ⟨⟨j, hj, rfl⟩, hle⟩
          exact ⟨j, ⟨hj, Nat.le_of_succ_le_succ hle⟩, rfl⟩

/-- A cut up to the end of the comments and white space in front leaves a fragment. -/
theorem fragment_skip_take {s : Text} {m : ℕ} (h : m ≤ keywords.lead s) :
    Fragment (keywords.skip (s.take m)) := by
  obtain ⟨-, hfrag⟩ | ⟨-, hskip⟩ := skip_take_cases s m
  · exact hfrag
  · rw [hskip, Nat.sub_eq_zero_of_le h, List.take_zero]
    exact fragment_nil

/-- A list opens in a cut text if it opens before the cut. -/
theorem hasPrefix_skip_take (s : Text) (m : ℕ) :
    hasPrefix (keywords.skip (s.take m)) (text "(") = true ↔
      hasPrefix (keywords.skip s) (text "(") = true ∧ keywords.lead s < m := by
  obtain ⟨hm, hfrag⟩ | ⟨hm, hskip⟩ := skip_take_cases s m
  · refine iff_of_false ?_ (fun h => by omega)
    have hascii : ∀ b ∈ text "(", b.toNat < 0x80 := show ∀ b ∈ [(0x28 : UInt8)], b.toNat < 0x80 by simp
    rw [hasPrefix_iff_runes hascii]
    rintro ⟨rest, hrest⟩
    have hfirst := hfrag 0x28 (by rw [← hrest]; rfl)
    exact absurd hfirst (by decide)
  · rw [hskip, hasPrefix_take, show (text "(").length = 1 by decide, Nat.one_le_iff_ne_zero,
      Nat.sub_ne_zero_iff_lt]

/-- A cut spares `ANALYZE` behind bare flags or hides it. -/
theorem isSome_bareSpan_take {s : Text} {span : ℕ × ℕ} (h : bareSpan s = some span) (m : ℕ) :
    (bareSpan (s.take m)).isSome = true ↔ Spares m span.1 span.2 := by
  obtain ⟨stop, hstop, rfl⟩ := Option.map_eq_some_iff.mp h
  rw [bareSpan, Option.isSome_map, isSome_bareAnalyze_take hstop]

/-- A cut spares what is found from an opening parenthesis on or hides it: the list counts if it
closes before the cut. -/
theorem isSome_listSpan_take {s : Text} {span : ℕ × ℕ} (h : listSpan s = some span) (m : ℕ) :
    (listSpan (s.take m)).isSome = true ↔ Spares m span.1 span.2 := by
  obtain ⟨close, hclose, hspan⟩ := Option.bind_eq_some_iff.mp h
  have hpos := pos_of_closingParen hclose
  by_cases hm : close ≤ m
  · have hinner : (s.take m).take (close - 1) = s.take (close - 1) := by
      rw [List.take_take, Nat.min_eq_left (by omega)]
    rw [listSpan, closingParen_take.mpr ⟨hclose, hm⟩, Option.bind_some, hinner]
    split_ifs at hspan ⊢
    · obtain rfl := Option.some.inj hspan
      exact iff_of_true rfl (.inr hm)
    · obtain ⟨bare, hbare, rfl⟩ := Option.map_eq_some_iff.mp hspan
      obtain ⟨c, rfl⟩ := Nat.exists_eq_add_of_le hm
      rw [Option.isSome_map, List.drop_take, Nat.add_sub_cancel_left, isSome_bareSpan_take hbare,
        spares_add]
  · have hnone : closingParen 1 (s.take m) = none := by
      rw [Option.eq_none_iff_forall_ne_some]
      intro k hk
      obtain ⟨hk', hle⟩ := closingParen_take.mp hk
      rw [hclose] at hk'
      obtain rfl := Option.some.inj hk'
      exact hm hle
    rw [listSpan, hnone, Option.bind_none]
    refine iff_of_false (by simp) ?_
    unfold Spares
    split_ifs at hspan
    · obtain rfl := Option.some.inj hspan
      omega
    · obtain ⟨bare, hbare, rfl⟩ := Option.map_eq_some_iff.mp hspan
      dsimp only
      omega

/-- A cut text has the `ANALYZE` of the whole if the cut spares it. -/
theorem explainHasAnalyze_take {s : Text} {span : ℕ × ℕ} (h : analyzeSpan s = some span) (m : ℕ) :
    explainHasAnalyze (s.take m) = true ↔ Spares m span.1 span.2 := by
  rw [explainHasAnalyze_eq]
  by_cases hopen : hasPrefix (keywords.skip s) (text "(") = true
  · rw [analyzeSpan, if_pos hopen] at h
    obtain ⟨list, hlist, rfl⟩ := Option.map_eq_some_iff.mp h
    by_cases hm : keywords.lead s < m
    · obtain ⟨c, rfl⟩ := Nat.exists_eq_add_of_le hm
      have hskip := Sql.Reading.skip_take keywords_gap_take (Nat.le_of_lt hm)
      have hcut : keywords.lead s + 1 + c - keywords.lead s - 1 = c := by omega
      rw [analyzeSpan, if_pos ((hasPrefix_skip_take s _).mpr ⟨hopen, hm⟩), Option.isSome_map, hskip,
        List.drop_take, hcut, isSome_listSpan_take hlist, spares_add]
    · -- nothing is left of the list
      have hopen' : ¬ hasPrefix (keywords.skip (s.take m)) (text "(") = true :=
        fun hcut => hm ((hasPrefix_skip_take s m).mp hcut).2
      have hfrag := fragment_skip_take (Nat.le_of_not_lt hm)
      rw [analyzeSpan, if_neg hopen', bareSpan, bareAnalyze_of_fragment hfrag]
      refine iff_of_false (by simp) ?_
      unfold Spares
      dsimp only
      omega
  · have hopen' : ¬ hasPrefix (keywords.skip (s.take m)) (text "(") = true :=
      fun hcut => hopen ((hasPrefix_skip_take s m).mp hcut).1
    rw [analyzeSpan, if_neg hopen] at h
    rw [analyzeSpan, if_neg hopen', isSome_bareSpan_take h]

/-- A rune that lowers to a letter ends no keyword. -/
theorem endsKeyword_eq_false {r : ℕ} (hlow : 0x61 ≤ lowerRune r) (hhigh : lowerRune r ≤ 0x7A) :
    endsKeyword r = false := by
  have hletter : ∀ n < 0x7B, 0x61 ≤ n → isSpace n = false := by decide
  have hspace : isSpace r = false := by
    rw [← isSpace_lowerRune]
    exact hletter _ (by omega) hlow
  have hparen : r ≠ 0x28 := by
    rintro rfl
    exact absurd hlow (by decide)
  have hsemi : r ≠ 0x3B := by
    rintro rfl
    exact absurd hlow (by decide)
  simp [endsKeyword, hspace, hparen, hsemi]

/-- The words of the scanner are made of letters. -/
theorem scannerWords_letters : ∀ w ∈ scannerWords, ∀ b ∈ w, 0x61 ≤ b.toNat ∧ b.toNat ≤ 0x7A := by
  decide +kernel

/-- A word of the scanner in front of a text belongs to its first word. -/
theorem word_append_of_mem {w : Text} (h : toLower w ∈ scannerWords) (rest : Text) :
    keywords.word (w ++ rest) = w.length + keywords.word rest := by
  have hascii := (scannerWords_ascii _ h).1
  have hlower := (toLower_eq_iff hascii _).mp rfl
  apply bytesBefore_append (runeError_not_mem hascii rfl)
  intro r hr
  have hmem : lowerRune r ∈ (toLower w).map UInt8.toNat := hlower ▸ List.mem_map_of_mem hr
  obtain ⟨b, hb, heq⟩ := List.mem_map.mp hmem
  have hletter := scannerWords_letters _ h b hb
  exact endsKeyword_eq_false (by omega) (by omega)

/-- The cut falls within the first word, and what is left of the word is a read keyword. -/
def CutsKeyword (cut : ℕ) (s : Text) : Prop :=
  cut < wordEnd s ∧ toLower ((keywords.firstWord s).take (cut - keywords.lead s)) ∈ readKeywords

/-- The first word is `EXPLAIN`, which the cut spares, and the cut does not spare the `ANALYZE` the
scanner finds behind it. -/
def CutsAnalyze (cut : ℕ) (s : Text) : Prop :=
  toLower (keywords.firstWord s) = text "explain" ∧
    Spares cut (wordEnd s) (keywords.lead s + wordBeyond (keywords.skip s)) ∧
    ∃ span, analyzeSpan (afterWord s) = some span ∧
      ¬ Spares cut (wordEnd s + span.1) (wordEnd s + span.2)

theorem readKeywords_subset {w : Text} (h : w ∈ readKeywords) : w ∈ scannerWords :=
  List.mem_append_left _ h

/-- A cut that spares the first word: the scanner then misses nothing but an `ANALYZE`. -/
theorem reads_take_of_spares {s : Text} {c : ℕ}
    (h : Spares c (keywords.word (keywords.skip s)) (wordBeyond (keywords.skip s))) :
    (Reads (s.take (keywords.lead s + c)) → Reads s) ↔ ¬ CutsAnalyze (keywords.lead s + c) s := by
  obtain ⟨k, rfl, hfirst, hafter⟩ := cut_of_spares h
  have hspares : Spares (keywords.lead s + (keywords.word (keywords.skip s) + k)) (wordEnd s)
      (keywords.lead s + wordBeyond (keywords.skip s)) := by
    rw [wordEnd, spares_add]
    exact h
  have hfound {span : ℕ × ℕ} (hspan : analyzeSpan (afterWord s) = some span) :
      explainHasAnalyze ((afterWord s).take k) = true ↔
        Spares (keywords.lead s + (keywords.word (keywords.skip s) + k)) (wordEnd s + span.1)
          (wordEnd s + span.2) := by
    rw [explainHasAnalyze_take hspan, ← Nat.add_assoc, wordEnd, spares_add]
  rw [Reads, Reads, hfirst, hafter, CutsAnalyze]
  constructor
  · rintro himp ⟨hexplain, -, span, hspan, hhidden⟩
    have hcut : explainHasAnalyze ((afterWord s).take k) = false := by
      rw [← Bool.not_eq_true, hfound hspan]
      exact hhidden
    have hread : toLower (keywords.firstWord s) ∈ readKeywords := by
      rw [hexplain]
      decide
    have hwhole := (himp ⟨hread, fun _ => hcut⟩).2 hexplain
    rw [explainHasAnalyze_eq, hspan] at hwhole
    cases hwhole
  · rintro hkeeps ⟨hread, hcut⟩
    refine ⟨hread, fun hexplain => ?_⟩
    rw [explainHasAnalyze_eq, Option.isSome_eq_false_iff, Option.isNone_iff_eq_none,
      Option.eq_none_iff_forall_ne_some]
    intro span hspan
    refine hkeeps ⟨hexplain, hspares, span, hspan, fun hspared => ?_⟩
    rw [← hfound hspan, hcut hexplain] at hspared
    cases hspared

/-- A cut that does not spare the first word: the scanner is wrong if it takes what is left of the
word for a read keyword. -/
theorem reads_take_of_not_spares {s : Text} {c : ℕ}
    (h : ¬ Spares c (keywords.word (keywords.skip s)) (wordBeyond (keywords.skip s))) :
    (Reads (s.take (keywords.lead s + c)) → Reads s) ↔ ¬ CutsKeyword (keywords.lead s + c) s := by
  have hskip : keywords.skip (s.take (keywords.lead s + c)) = (keywords.skip s).take c := by
    rw [Sql.Reading.skip_take keywords_gap_take (Nat.le_add_right _ _), Nat.add_sub_cancel_left]
  have hword := (word_take_of_not_spares h).1
  have hfirst : keywords.firstWord (s.take (keywords.lead s + c)) = (keywords.skip s).take c := by
    rw [Sql.Reading.firstWord, hskip, hword, List.take_length]
  have hafter : afterWord (s.take (keywords.lead s + c)) = [] := by
    rw [afterWord, hskip, hword, List.drop_length]
  -- the whole word is no read keyword if what is left of it is one
  have hwhole (hread : toLower ((keywords.skip s).take c) ∈ readKeywords) :
      toLower (keywords.firstWord s) ∉ readKeywords := by
    intro hmem
    have hnot := not_mem_of_not_spares (readKeywords_subset hmem) h
    rw [hword, List.take_length] at hnot
    exact hnot (readKeywords_subset hread)
  rw [Reads, Reads, hfirst, hafter, CutsKeyword, wordEnd, Nat.add_sub_cancel_left,
    Nat.add_lt_add_iff_left, Sql.Reading.firstWord, List.take_take]
  constructor
  · rintro himp ⟨hlt, hread⟩
    rw [Nat.min_eq_left (Nat.le_of_lt hlt)] at hread
    exact hwhole hread (himp ⟨hread, fun _ => by decide⟩).1
  · rintro hkeeps ⟨hread, -⟩
    have hbeyond := wordBeyond_le (keywords.skip s)
    unfold Spares at h
    have hle : c ≤ keywords.word (keywords.skip s) := by
      have hword := word_append_of_mem (readKeywords_subset hread) ((keywords.skip s).drop c)
      rw [List.take_append_drop, List.length_take] at hword
      omega
    refine absurd ⟨by omega, ?_⟩ hkeeps
    rwa [Nat.min_eq_left hle]

/-- What the cap may hide, at any place of the cut. -/
theorem reads_take_iff (s : Text) (cut : ℕ) :
    (Reads (s.take cut) → Reads s) ↔ ¬ CutsKeyword cut s ∧ ¬ CutsAnalyze cut s := by
  have hspared (h : CutsAnalyze cut s) := h.2.1
  obtain ⟨hlt, hfrag⟩ | ⟨hle, -⟩ := skip_take_cases s cut
  · -- nothing is left in which the scanner could find a keyword
    have hnot : ¬ Reads (s.take cut) := fun h =>
      hfrag.word_not_mem endsKeyword (readKeywords_subset h.1)
    refine iff_of_true (fun h => absurd h hnot) ⟨?_, ?_⟩
    · rintro ⟨-, hread⟩
      rw [Nat.sub_eq_zero_of_le (Nat.le_of_lt hlt), List.take_zero] at hread
      exact absurd hread (by decide)
    · intro h
      have hspares := hspared h
      unfold Spares wordEnd at hspares
      omega
  obtain ⟨c, rfl⟩ := Nat.exists_eq_add_of_le hle
  by_cases h : Spares c (keywords.word (keywords.skip s)) (wordBeyond (keywords.skip s))
  · rw [reads_take_of_spares h, and_iff_right]
    rintro ⟨hlt, -⟩
    unfold Spares wordBeyond at h
    unfold wordEnd at hlt
    omega
  · rw [reads_take_of_not_spares h, and_iff_left]
    intro hcuts
    have hspares := hspared hcuts
    rw [wordEnd, spares_add] at hspares
    exact h hspares

/-- The class the scanner would give a statement without the cap. -/
def classifyUncapped (sql : Text) : Class := classOf (scanKeyword sql)

/-- The cap turns no write into a read exactly if it neither cuts a longer word down to a read
keyword nor hides the `ANALYZE` of an `EXPLAIN`. -/
theorem cap_conservative_iff (sql : Text) :
    ((classifyByKeyword sql).kind = .read → (classifyUncapped sql).kind = .read) ↔
      ¬ CutsKeyword 64 sql ∧ ¬ CutsAnalyze 64 sql := by
  rw [classifyByKeyword_eq, classifyUncapped, classOf_scanKeyword_iff, classOf_scanKeyword_iff]
  exact reads_take_iff sql 64

/-- An option list of which the last option, `ANALYZE`, stands behind byte 64. -/
def longExplain : Text :=
  text "EXPLAIN (VERBOSE, COSTS, BUFFERS, TIMING, SUMMARY, FORMAT JSON, ANALYZE) DELETE FROM t"

/-- The statement deletes rows, the scanner would find that without the cap, and the cap makes it a
read. -/
theorem long_explain_read : (classifyByKeyword longExplain).kind = .read ∧
    (classifyUncapped longExplain).kind = .write := by
  decide

end Grunyas.Classifier
