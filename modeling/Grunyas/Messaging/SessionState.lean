import Grunyas.Classifier.Lead
import Grunyas.Messaging.Comments

/-!
# Which query texts set session state

`SET` without `LOCAL` and `PREPARE` leave something behind in the session, so the session has to
keep its upstream. The code splits a text at every semicolon, skips the comments in front of each
part as the classifier does, and looks for the keyword and a blank. PostgreSQL splits at the
semicolons outside quotes and comments and takes any white space or comment behind a keyword.
`session_state_pins` says on the tokens of the statements when the two agree.
-/

namespace Grunyas.Messaging

open GoText Grunyas.Server Grunyas.Classifier
open Sql.Postgres (Token lex lower lower_append lowerByte keyword significant statements textOf
  textOf_nil textOf_cons textOf_append mem_textOf token startsWord continuesWord)

/-- The statement sets state beyond its transaction: a `SET` of something else than `LOCAL`, or a
`PREPARE`. -/
def SetsState (stmt : List Token) : Prop :=
  (∃ set next rest, significant stmt = (.word, set) :: next :: rest ∧ lower set = text "set" ∧
    ¬ (next.1 = .word ∧ lower next.2 = text "local")) ∨
  keyword stmt = some (text "prepare")

/-- The statement is a `SET LOCAL`, starts with another keyword, or is empty. -/
def KeepsState (stmt : List Token) : Prop :=
  significant stmt = [] ∨
  (∃ set scope rest, significant stmt = (.word, set) :: (.word, scope) :: rest ∧
    lower set = text "set" ∧ lower scope = text "local") ∨
  ∃ word, keyword stmt = some word ∧ word ≠ text "set" ∧ word ≠ text "prepare"

/-- The text has neither quotes nor comments. -/
def Plain (query : Text) : Prop := ∀ t ∈ lex query, t.1 ≠ .quote ∧ t.1 ≠ .comment

/-- The token is a comment, or white space in the sense of Go, which PostgreSQL takes for a word where it
is not ASCII. -/
def blank (t : Token) : Bool := t.1 = .comment ∨ trimSpace t.2 = []

/-- The white space and the comments in front of a statement. -/
def front (stmt : List Token) : List Token := stmt.takeWhile blank

/-- The statement behind them. -/
def body (stmt : List Token) : List Token := stmt.dropWhile blank

/-- A word that begins with `LOCAL` comes next. -/
def StartsLocal (tail : List Token) : Prop :=
  ∃ word rest, tail = (.word, word) :: rest ∧ text "local" <+: lower word

/-- The statement is spelled the way the code expects: `SET` or `PREPARE`, a blank U+0020 and more than
white space, and behind `SET` and the blank not right away a word that begins with `LOCAL`. -/
def Spelled (stmt : List Token) : Prop :=
  ∃ word tail, body stmt = (.word, word) :: (.space, [0x20]) :: tail ∧ trimSpace (textOf tail) ≠ [] ∧
    ((lower (trimLeftFunc isSpace word) = text "set" ∧ ¬ StartsLocal tail) ∨
      lower (trimLeftFunc isSpace word) = text "prepare")

/-- The code sees the end of a comment where it is: the first line feed of a line comment, the first `*/`
of a block comment. -/
def EndsAlike (t : Token) : Prop :=
  (hasPrefix t.2 (text "--") = true ∧ index (text "\n") t.2 = some (t.2.length - 1)) ∨
  (hasPrefix t.2 (text "/*") = true ∧ index (text "*/") t.2 = some (t.2.length - 2))

/-- A blank U+0020 and more than white space follow the keyword, and no word that begins with `LOCAL` right
behind `SET` and the blank. -/
def Blanked (stmt : List Token) : Prop :=
  ∃ word tail, body stmt = word :: (.space, [0x20]) :: tail ∧ trimSpace (textOf tail) ≠ [] ∧
    (lower word.2 = text "set" → ¬ StartsLocal tail)

/-- A blank U+0020 follows a `SET`, but not right away a word that begins with `LOCAL`. -/
def SpacedLocal (stmt : List Token) : Prop :=
  ∃ set tail, body stmt = (.word, set) :: (.space, [0x20]) :: tail ∧ lower set = text "set" ∧
    ¬ StartsLocal tail

/-- The statement starts with white space that is not ASCII, which PostgreSQL takes for a word. -/
def Padded (stmt : List Token) : Prop :=
  ∃ t ∈ (significant stmt).head?, trimLeftFunc isSpace t.2 ≠ t.2

/-- The token has no semicolon, and the code sees its end if it is a comment. -/
def Alike (t : Token) : Prop := 0x3B ∉ t.2 ∧ (t.1 = .comment → EndsAlike t)

/-- The part of a text behind white space and comments is `SET` or `PREPARE`, a blank and more than white
space, and behind `SET` and the blank not right away `LOCAL`. -/
def Recognised (part : Text) : Prop :=
  ∃ word rest, keywords.skip part = word ++ 0x20 :: rest ∧ trimSpace rest ≠ [] ∧
    ((lower word = text "set" ∧ ¬ text "local" <+: lower rest) ∨ lower word = text "prepare")

theorem blank_eq_true_iff {t : Token} : blank t = true ↔ t.1 = .comment ∨ trimSpace t.2 = [] := by
  rw [blank, decide_eq_true_eq]

theorem blank_eq_false_iff {t : Token} : blank t = false ↔ t.1 ≠ .comment ∧ trimSpace t.2 ≠ [] := by
  rw [blank, decide_eq_false_iff_not, not_or]

/-- What is in front of a statement is skipped, and the rest begins with a token that is not. -/
theorem front_append_body (stmt : List Token) : front stmt ++ body stmt = stmt :=
  List.takeWhile_append_dropWhile

theorem blank_of_mem_front {stmt : List Token} {t : Token} (h : t ∈ front stmt) : blank t = true :=
  List.all_eq_true.mp List.all_takeWhile t h

theorem blank_of_body {stmt tail : List Token} {t : Token} (h : body stmt = t :: tail) :
    blank t = false := by
  have hfirst := List.head?_dropWhile_not blank stmt
  rw [show stmt.dropWhile blank = t :: tail from h] at hfirst
  exact hfirst

/-- The letters other than `i` and `k` are the lower case of ASCII bytes only. -/
theorem map_prefix_lowerRune_iff {word : Text}
    (hword : ∀ b ∈ word, b.toNat < 0x80 ∧ b ≠ 0x69 ∧ b ≠ 0x6B) (s : Text) :
    word.map UInt8.toNat <+: (runes s).map lowerRune ↔ word <+: lower s := by
  induction word generalizing s with
  | nil => exact iff_of_true List.nil_prefix List.nil_prefix
  | cons c word ih =>
    obtain ⟨⟨hc, hi, hk⟩, hword⟩ := List.forall_mem_cons.mp hword
    cases s with
    | nil => exact iff_of_false (by simp) (by simp [lower])
    | cons b s =>
      by_cases hb : b.toNat < 0x80
      · rw [runes_cons_ascii hb, List.map_cons, List.map_cons, List.cons_prefix_cons, lower,
          List.map_cons, List.cons_prefix_cons, ih hword, (lowerRune_toNat hb).1, UInt8.toNat_inj]
        rfl
      · have hhigh := Nat.le_of_not_lt hb
        obtain ⟨r, rs, hruns, hr⟩ := runes_cons_high hhigh s
        have hi' : c.toNat ≠ 0x69 := fun h => hi (UInt8.toNat_inj.mp h)
        have hk' : c.toNat ≠ 0x6B := fun h => hk (UInt8.toNat_inj.mp h)
        rw [hruns, List.map_cons, List.map_cons, List.cons_prefix_cons, lower, List.map_cons,
          List.cons_prefix_cons, lowerByte_of_high hhigh]
        refine iff_of_false (fun h => ?_) (fun h => ?_)
        · have hlower := lowerRune_of_high hr
          omega
        · rw [h.1] at hc
          omega

theorem hasPrefix_toLower_iff {word : Text}
    (hall : word.all (fun b => b.toNat < 0x80 ∧ b ≠ 0x69 ∧ b ≠ 0x6B) = true) (s : Text) :
    hasPrefix (toLower s) word = true ↔ word <+: lower s := by
  have hword : ∀ b ∈ word, b.toNat < 0x80 ∧ b ≠ 0x69 ∧ b ≠ 0x6B := by simpa using hall
  rw [hasPrefix_iff_runes fun b hb => (hword b hb).1, runes_toLower]
  exact map_prefix_lowerRune_iff hword s

/-- What lowers to a text with an ASCII byte behind it. -/
theorem concat_prefix_lower_iff {p s : Text} {b : UInt8} : p ++ [b] <+: lower s ↔
    ∃ w c, lower w = p ∧ lowerByte c = b ∧ w ++ [c] <+: s := by
  rw [lower, List.prefix_map_iff]
  constructor
  · rintro ⟨l, hl, heq⟩
    obtain ⟨w, back, rfl, hw, hback⟩ := List.map_eq_append_iff.mp heq.symm
    obtain ⟨c, rfl, hc⟩ := List.map_eq_singleton_iff.mp hback
    exact ⟨w, c, hw, hc, hl⟩
  · rintro ⟨w, c, rfl, rfl, hl⟩
    exact ⟨w ++ [c], hl, by rw [List.map_append, List.map_singleton]; rfl⟩

/-- Only a blank lowers to a blank. -/
theorem eq_blank_of_lower {c : UInt8} (h : lowerByte c = 0x20) : c = 0x20 := by
  rw [lowerByte] at h
  split_ifs at h with hupper
  · have hsum := congrArg UInt8.toNat h
    have hlow := UInt8.le_iff_toNat_le.mp hupper.1
    have hhigh := UInt8.le_iff_toNat_le.mp hupper.2
    rw [UInt8.toNat_add] at hsum
    simp at hsum hlow hhigh
    omega
  · exact h

/-- What lowers to a small letter is a letter of ASCII. -/
theorem letter_of_lower {c : UInt8} (h : 0x61 ≤ lowerByte c ∧ lowerByte c ≤ 0x7A) :
    c.toNat < 0x80 ∧ isSpace c.toNat = false ∧ startsWord c = true ∧ solid c = true := by
  have hlow := UInt8.le_iff_toNat_le.mp h.1
  have hhigh := UInt8.le_iff_toNat_le.mp h.2
  have hascii : c.toNat < 0x80 := by
    by_contra hnot
    rw [lowerByte_of_high (Nat.le_of_not_lt hnot)] at hhigh
    exact hnot (Nat.lt_of_le_of_lt hhigh (by decide))
  have hstarts : startsWord c = true := by
    apply startsWord_of_lower
    intro _
    rw [(lowerRune_toNat hascii).1]
    exact ⟨hlow, hhigh⟩
  have hsolid := solid_of_startsWord hstarts hascii
  refine ⟨hascii, ?_, hstarts, hsolid⟩
  simp only [solid, Bool.and_eq_true, Bool.not_eq_true'] at hsolid
  exact hsolid.1.1.2

/-- The keywords of the code are made of letters. -/
theorem letters_of_keyword {word : Text} (h : lower word = text "set" ∨ lower word = text "prepare") :
    (∀ c ∈ word, c.toNat < 0x80 ∧ isSpace c.toNat = false ∧ startsWord c = true ∧ solid c = true) ∧
      word ≠ [] := by
  have hall : (lower word).all (fun b => 0x61 ≤ b ∧ b ≤ 0x7A) = true := by
    obtain hset | hprepare := h
    · rw [hset]
      decide
    · rw [hprepare]
      decide
  have hrange : ∀ b ∈ lower word, 0x61 ≤ b ∧ b ≤ 0x7A := by simpa using hall
  refine ⟨fun c hc => letter_of_lower (hrange _ (List.mem_map_of_mem hc)), ?_⟩
  rintro rfl
  obtain hset | hprepare := h
  · cases hset
  · cases hprepare

/-- A keyword and a blank in front of a trimmed text: more than white space follows. -/
theorem blank_prefix_trimSpace_iff {p s : Text} (hfirst : isSpace (decodeRune s).1 = false) :
    p ++ [0x20] <+: lower (trimSpace s) ↔
      ∃ word rest, s = word ++ 0x20 :: rest ∧ trimSpace rest ≠ [] ∧ lower word = p := by
  rw [concat_prefix_lower_iff]
  constructor
  · rintro ⟨word, c, hword, hc, hfront⟩
    obtain rfl := eq_blank_of_lower hc
    obtain ⟨rest, hs, hrest⟩ := (prefix_trimSpace_iff hfirst (by decide)).mp hfront
    exact ⟨word, rest, hs, hrest (by decide), hword⟩
  · rintro ⟨word, rest, hs, hrest, hword⟩
    have hfront := (prefix_trimSpace_iff hfirst (by decide)).mpr ⟨rest, hs, fun _ => hrest⟩
    exact ⟨word, 0x20, hword, by decide, hfront⟩

/-- A text that ends with a letter is in front of the trimmed text if it is in front of the text. -/
theorem letter_prefix_trimSpace_iff {p s : Text} {b : UInt8} (hfirst : isSpace (decodeRune s).1 = false)
    (hb : 0x61 ≤ b ∧ b ≤ 0x7A) : p ++ [b] <+: lower (trimSpace s) ↔ p ++ [b] <+: lower s := by
  rw [concat_prefix_lower_iff, concat_prefix_lower_iff]
  refine exists_congr fun w => exists_congr fun c => and_congr_right fun _ => and_congr_right fun hc => ?_
  obtain ⟨hascii, hspace, -⟩ := letter_of_lower (hc ▸ hb)
  rw [prefix_trimSpace_iff hfirst hascii, hspace]
  constructor
  · rintro ⟨rest, rfl, -⟩
    exact ⟨rest, by simp⟩
  · rintro ⟨rest, rfl⟩
    exact ⟨rest, by simp, fun h => absurd h Bool.false_ne_true⟩

/-- A part of a text makes the code pin exactly if it is spelled the way the code expects. -/
theorem statementUsesSessionState_iff (part : Text) :
    statementUsesSessionState part = true ↔ Recognised part := by
  have hset : statementUsesSessionState part = true ↔
      (text "set" ++ [0x20] <+: lower (trimSpace (keywords.skip part)) ∧
        ¬ text "set loca" ++ [0x6C] <+: lower (trimSpace (keywords.skip part))) ∨
      text "prepare" ++ [0x20] <+: lower (trimSpace (keywords.skip part)) := by
    rw [← hasPrefix_toLower_iff (by decide), ← hasPrefix_toLower_iff (by decide),
      ← hasPrefix_toLower_iff (by decide), statementUsesSessionState, stripLeadingComments_eq,
      skip_trimSpace]
    by_cases hnil : trimSpace part = []
    · rw [if_pos hnil, ← skip_trimSpace, hnil]
      exact iff_of_false Bool.false_ne_true (by decide)
    rw [if_neg hnil]
    generalize toLower (trimSpace (keywords.skip part)) = s
    change (if hasPrefix s (text "set ") = true then !hasPrefix s (text "set local")
      else hasPrefix s (text "prepare ")) = true ↔ (hasPrefix s (text "set ") = true ∧
        ¬ hasPrefix s (text "set local") = true) ∨ hasPrefix s (text "prepare ") = true
    by_cases hset : hasPrefix s (text "set ") = true
    · have hprepare : ¬ hasPrefix s (text "prepare ") = true := by
        rw [hasPrefix, List.isPrefixOf_iff_prefix] at hset ⊢
        intro hprepare
        exact absurd (List.prefix_of_prefix_length_le hset hprepare (by decide)) (by decide)
      rw [if_pos hset, or_iff_left hprepare, and_iff_right hset, Bool.not_eq_true', Bool.not_eq_true]
    · rw [if_neg hset, or_iff_right fun h => hset h.1]
  have hfirst := (of_gap_eq_zero (keywords.gap_skip part)).1
  rw [hset, blank_prefix_trimSpace_iff hfirst, blank_prefix_trimSpace_iff hfirst,
    letter_prefix_trimSpace_iff hfirst (by decide), Recognised]
  constructor
  · rintro (⟨⟨word, rest, heq, hrest, hword⟩, hlocal⟩ | ⟨word, rest, heq, hrest, hword⟩)
    · refine ⟨word, rest, heq, hrest, .inl ⟨hword, fun hfront => hlocal ?_⟩⟩
      rw [heq, lower_append, hword]
      exact (List.prefix_append_right_inj (text "set" ++ [0x20])).mpr hfront
    · exact ⟨word, rest, heq, hrest, .inr hword⟩
  · rintro ⟨word, rest, heq, hrest, ⟨hword, hlocal⟩ | hword⟩
    · refine .inl ⟨⟨word, rest, heq, hrest, hword⟩, fun hfront => hlocal ?_⟩
      rw [heq, lower_append, hword] at hfront
      exact (List.prefix_append_right_inj (text "set" ++ [0x20])).mp hfront
    · exact .inr ⟨word, rest, heq, hrest, hword⟩

/-- A text pins exactly if one of its parts between semicolons is spelled the way the code expects. -/
theorem processPins_iff (query : Text) :
    processPins (.query query) = true ↔ ∃ part ∈ splitByte 0x3B query, Recognised part := by
  rw [processPins, queryUsesSessionState, List.any_eq_true]
  simp only [statementUsesSessionState_iff]

/-- More text in front changes the first part only. -/
theorem splitByte_append_congr {sep : UInt8} {s t : Text} {parts : List Text}
    (h : splitByte sep s = splitByte sep t ++ parts) (first : Text) :
    splitByte sep (first ++ s) = splitByte sep (first ++ t) ++ parts := by
  induction first with
  | nil => exact h
  | cons b first ih =>
    obtain ⟨part, more, hpart⟩ := List.exists_cons_of_ne_nil (splitByte_ne_nil sep (first ++ t))
    rw [hpart] at ih
    rw [List.cons_append, List.cons_append, splitByte_cons, splitByte_cons, ih, hpart]
    split_ifs <;> rfl

/-- The parts of a text are those of its statements. -/
theorem splitByte_eq_flatMap (query : Text) :
    splitByte 0x3B query = (statements query).flatMap fun stmt => splitByte 0x3B (textOf stmt) := by
  induction query using Sql.Postgres.token_induction with
  | nil => rfl
  | token s hs ih =>
    obtain ⟨first, rest, hfirst⟩ := List.exists_cons_of_ne_nil
      (List.splitOnP_ne_nil (fun t : Token => t.1 == .semicolon) (lex (s.drop (token s).2)))
    rw [statements, hfirst, List.flatMap_cons] at ih
    rw [statements, Sql.Postgres.lex_of_ne_nil hs, List.splitOnP_cons_eq_if_modifyHead, hfirst]
    by_cases hkind : (token s).1 = .semicolon
    · obtain ⟨t, rfl, hlen⟩ := Sql.Postgres.token_semicolon hkind
      rw [hlen, List.drop_succ_cons, List.drop_zero] at ih
      rw [if_pos (by simp [hkind]), splitByte_cons, if_pos rfl, ih, List.flatMap_cons, List.flatMap_cons]
      rfl
    · have happend := splitByte_append_congr ih (s.take (token s).2)
      rw [List.take_append_drop] at happend
      rw [if_neg (by simp [hkind]), List.modifyHead_cons, List.flatMap_cons, happend]
      rfl

/-- White space in front of a text is skipped. -/
theorem skip_append_of_spaces {u : Text} (h : trimSpace u = []) (s : Text) :
    keywords.skip (u ++ s) = keywords.skip s := by
  rw [trimSpace_eq_nil_iff] at h
  induction u using rune_induction with
  | nil => rfl
  | rune head rest r hne hd ih =>
    rw [runes_rune hne hd, List.forall_mem_cons] at h
    have hvalid : r ≠ runeError := by
      rintro rfl
      exact absurd h.1 (by decide)
    have hd' : decodeRune (head ++ (rest ++ s)) = (r, head.length) := by
      rw [← List.append_assoc]
      exact decodeRune_append_of_ne hd hvalid s
    have hgap := gap_space hd' h.1
    have hpos := List.length_pos_of_ne_nil hne
    rw [List.append_assoc, Sql.Reading.skip_of_gap (by omega), hgap, List.drop_left, ih h.2]

/-- So is white space in front of a word. -/
theorem skip_trimLeftFunc_append (w s : Text) :
    keywords.skip (trimLeftFunc isSpace w ++ s) = keywords.skip (w ++ s) := by
  obtain ⟨u, hu, hw⟩ := exists_trimLeftFunc w
  rw [← trimSpace_eq_nil_iff] at hu
  calc keywords.skip (trimLeftFunc isSpace w ++ s)
      = keywords.skip (u ++ (trimLeftFunc isSpace w ++ s)) := (skip_append_of_spaces hu _).symm
    _ = keywords.skip (w ++ s) := by rw [← List.append_assoc, ← hw]

/-- A comment that ends for the code where it ends is skipped. -/
theorem skip_append_of_found {u sub : Text} {s : Text} (hu : u ≠ []) (hsub : sub ≠ [])
    (hgap : keywords.gap (u ++ s) = bytesThrough sub (u ++ s))
    (hfound : index sub u = some (u.length - sub.length)) : keywords.skip (u ++ s) = keywords.skip s := by
  have hcut : index sub ((u ++ s).take u.length) = some (u.length - sub.length) := by
    rw [List.take_left, hfound]
  obtain ⟨hindex, hle⟩ := (index_take hsub).mp hcut
  have hlen : u.length - sub.length + sub.length = u.length := by
    have := List.length_pos_of_ne_nil hsub
    omega
  rw [skip_of_found (by simp [hu]) hsub hgap, hindex, Option.elim_some, hlen, List.drop_left]

/-- The code skips the tokens in front that end for it where they end. -/
theorem skip_textOf_append {ts : List Token} (hblank : ∀ t ∈ ts, blank t = true)
    (halike : ∀ t ∈ ts, t.1 = .comment → EndsAlike t) (s : Text) :
    keywords.skip (textOf ts ++ s) = keywords.skip s := by
  induction ts with
  | nil => rfl
  | cons t ts ih =>
    rw [List.forall_mem_cons] at hblank halike
    have hrest := ih hblank.2 halike.2
    rw [textOf_cons, List.append_assoc]
    by_cases hspace : trimSpace t.2 = []
    · rw [skip_append_of_spaces hspace, hrest]
    · have hcomment : t.1 = .comment := by simpa [blank, hspace] using hblank.1
      obtain ⟨hfront, hindex⟩ | ⟨hfront, hindex⟩ := halike.1 hcomment
      · obtain ⟨u, hu⟩ := hasPrefix_line.mp hfront
        rw [hu] at hindex ⊢
        rw [skip_append_of_found (List.cons_ne_nil _ _) (by decide) (gap_line _) hindex, hrest]
      · obtain ⟨u, hu⟩ := hasPrefix_block.mp hfront
        rw [hu] at hindex ⊢
        rw [skip_append_of_found (List.cons_ne_nil _ _) (by decide) (gap_block _) hindex, hrest]

section Statement

variable {query : Text} {pre stmt post : List Token} (hlex : lex query = pre ++ (stmt ++ post))
  (hnone : ∀ t ∈ stmt, t.1 ≠ .semicolon)

include hlex

/-- Where the text goes on with `LOCAL`, a word that begins with it comes next. -/
theorem startsLocal_of_lower (h : text "local" <+: lower (textOf stmt)) : StartsLocal stmt := by
  obtain ⟨l, hl, hlower⟩ := List.prefix_map_iff.mp h
  have hletters : ∀ c ∈ l, startsWord c = true := by
    intro c hc
    have hall : (text "local").all (fun b => 0x61 ≤ b ∧ b ≤ 0x7A) = true := by decide
    have hrange : ∀ b ∈ text "local", 0x61 ≤ b ∧ b ≤ 0x7A := by simpa using hall
    rw [hlower] at hrange
    exact (letter_of_lower (hrange _ (List.mem_map_of_mem hc))).2.2.1
  cases l with
  | nil => cases hlower
  | cons b l =>
    have hb : lowerByte b = 0x6C := (List.cons_eq_cons.mp hlower).1.symm
    obtain ⟨more, hmore⟩ := hl.trans (List.prefix_append (textOf stmt) (textOf post))
    have hrest := Sql.Postgres.lex_textOf hlex
    rw [textOf_append, ← hmore] at hrest
    have hescape : (b = 0x45 ∨ b = 0x65) → (l ++ more).head? ≠ some 0x27 := by
      rintro (rfl | rfl) <;> exact absurd hb (by decide)
    obtain ⟨back, hback⟩ := Sql.Postgres.lex_of_startsWord (hletters b List.mem_cons_self) hescape
    rw [← List.cons_append, List.takeWhile_append_of_pos fun c hc =>
      Sql.Postgres.continuesWord_of_startsWord (hletters c hc)] at hback
    cases stmt with
    | nil => cases List.prefix_nil.mp hl
    | cons t stmt =>
      obtain ⟨rfl, -⟩ := List.cons_eq_cons.mp (hback.symm.trans hrest)
      refine ⟨_, stmt, rfl, ?_⟩
      rw [hlower, ← lower, lower_append]
      exact List.prefix_append _ _

include hnone

/-- A semicolon within a statement has something else than white space in front of it: the byte that opens
its quotes or its comment. -/
theorem exists_before_semicolon (h : 0x3B ∈ textOf stmt) : ∃ u b, u ++ [b] <+: textOf stmt ∧
    0x3B ∉ u ++ [b] ∧ b.toNat < 0x80 ∧ isSpace b.toNat = false := by
  induction stmt generalizing pre with
  | nil => cases h
  | cons t stmt ih =>
    rw [List.forall_mem_cons] at hnone
    rw [textOf_cons] at h ⊢
    by_cases hmem : 0x3B ∈ t.2
    · obtain ⟨-, b, s, ht, hb⟩ := (Sql.Postgres.shape_of_lex hlex).opens_of_semicolon hnone.1 hmem
      refine ⟨[], b, ⟨s ++ textOf stmt, by rw [ht]; rfl⟩, ?_⟩
      rw [List.nil_append, List.mem_singleton]
      simp only [List.mem_cons, List.not_mem_nil, or_false] at hb
      obtain rfl | rfl | rfl | rfl | rfl | rfl | rfl := hb <;> decide
    · have hrest : 0x3B ∈ textOf stmt := (List.mem_append.mp h).resolve_left hmem
      have hlex' : lex query = pre ++ [t] ++ (stmt ++ post) := by simpa using hlex
      obtain ⟨u, b, hfront, hfree, hsolid⟩ := ih hlex' hnone.2 hrest
      refine ⟨t.2 ++ u, b, ?_, ?_, hsolid⟩
      · rw [List.append_assoc]
        exact (List.prefix_append_right_inj t.2).mpr hfront
      · rw [List.append_assoc, List.mem_append, not_or]
        exact ⟨hmem, hfree⟩

/-- If a statement is more than white space, then so is the text in front of its first semicolon. -/
theorem exists_first_part (h : trimSpace (textOf stmt) ≠ []) : ∃ part more,
    splitByte 0x3B (textOf stmt) = part :: more ∧ trimSpace part ≠ [] ∧ part <+: textOf stmt := by
  by_cases hmem : 0x3B ∈ textOf stmt
  · obtain ⟨u, b, ⟨rest, hrest⟩, hfree, hascii, hspace⟩ := exists_before_semicolon hlex hnone hmem
    obtain ⟨part, more, hsplit⟩ := List.exists_cons_of_ne_nil (splitByte_ne_nil 0x3B rest)
    refine ⟨u ++ [b] ++ part, more, ?_, ?_, ?_⟩
    · rw [← hrest, splitByte_append_of_not_mem hfree, hsplit, List.modifyHead_cons]
    · rw [Ne, trimSpace_eq_nil_iff]
      intro hall
      have hb := hall _ (toNat_mem_runes hascii (s := u ++ [b] ++ part) (by simp))
      rw [hspace] at hb
      cases hb
    · rw [← hrest, List.prefix_append_right_inj]
      exact splitByte_head_isFront hsplit
  · exact ⟨_, [], splitByte_of_not_mem hmem, h, List.prefix_rfl⟩

/-- A statement that is spelled the way the code expects, behind comments that end for the code where they
end, is recognised. -/
theorem Spelled.exists_recognised (h : Spelled stmt) (halike : ∀ t ∈ front stmt, Alike t) :
    ∃ part ∈ splitByte 0x3B (textOf stmt), Recognised part := by
  obtain ⟨word, tail, hbody, hmore, hkeyword⟩ := h
  have hstmt : stmt = front stmt ++ (.word, word) :: (.space, [0x20]) :: tail := by
    rw [← hbody, front_append_body]
  have hblank : ∀ t ∈ front stmt, blank t = true := fun _ => blank_of_mem_front
  generalize front stmt = ts at hstmt halike hblank
  subst hstmt
  have htext : textOf (ts ++ (.word, word) :: (.space, [0x20]) :: tail) =
      textOf ts ++ (word ++ [0x20]) ++ textOf tail := by simp [textOf_append, textOf_cons]
  have hword : 0x3B ∉ word := by
    have htoken : lex query = pre ++ ts ++ (.word, word) :: ((.space, [0x20]) :: tail ++ post) := by
      simpa using hlex
    exact (Sql.Postgres.shape_of_lex htoken).semicolon_not_mem (by simp) (by simp) (by simp)
  have hfree : 0x3B ∉ textOf ts ++ (word ++ [0x20]) := by
    rw [List.mem_append, List.mem_append, not_or, not_or, mem_textOf]
    refine ⟨?_, hword, by decide⟩
    rintro ⟨t, ht, hmem⟩
    exact (halike t ht).1 hmem
  have hlex' : lex query = (pre ++ ts ++ [(.word, word), (.space, [0x20])]) ++ (tail ++ post) := by
    simpa using hlex
  obtain ⟨part, more, hsplit, hpart, hfront⟩ :=
    exists_first_part hlex' (fun t ht => hnone t (by simp [ht])) hmore
  obtain ⟨hletters, hne⟩ := letters_of_keyword (hkeyword.imp_left And.left)
  refine ⟨textOf ts ++ (word ++ [0x20]) ++ part, ?_, trimLeftFunc isSpace word, part, ?_, hpart, ?_⟩
  · rw [htext, splitByte_append_of_not_mem hfree, hsplit]
    exact List.mem_cons_self
  · rw [List.append_assoc, skip_textOf_append hblank fun t ht => (halike t ht).2, List.append_assoc, List.singleton_append,
      ← skip_trimLeftFunc_append]
    obtain ⟨b, u, hw⟩ := List.exists_cons_of_ne_nil hne
    rw [hw] at hletters ⊢
    exact Sql.Reading.skip_of_gap_eq_zero (gap_of_solid (hletters b List.mem_cons_self).2.2.2 _)
  · refine hkeyword.imp_left fun h => ⟨h.1, fun hlocal => h.2 (startsLocal_of_lower hlex' ?_)⟩
    exact hlocal.trans (hfront.map lowerByte)

end Statement

/-- Bytes of words up to one that is none. -/
theorem eq_of_append_eq {w v s t : Text} (hw : ∀ c ∈ w, continuesWord c = true)
    (hv : ∀ c ∈ v, continuesWord c = true) (hs : ∀ c ∈ s.head?, continuesWord c = false)
    (ht : ∀ c ∈ t.head?, continuesWord c = false) (h : w ++ s = v ++ t) : w = v ∧ s = t := by
  have hstop {u : Text} (hu : ∀ c ∈ u.head?, continuesWord c = false) : u.takeWhile continuesWord = [] := by
    cases u with
    | nil => rfl
    | cons c u => exact List.takeWhile_cons_of_neg (by simp [hu c rfl])
  have htake := congrArg (List.takeWhile continuesWord) h
  rw [List.takeWhile_append_of_pos hw, List.takeWhile_append_of_pos hv, hstop hs, hstop ht,
    List.append_nil, List.append_nil] at htake
  subst htake
  exact ⟨rfl, List.append_cancel_left h⟩

/-- Only ASCII bytes end a word. -/
theorem ascii_of_not_starts {b : UInt8} (h : startsWord b = false) : b.toNat < 0x80 := by
  by_contra hhigh
  rw [startsWord_of_lower fun hlow => absurd hlow hhigh] at h
  cases h

/-- Nothing is skipped in front of a word that starts with no white space. -/
theorem gap_word_append {w rest : Text} (hw : w ≠ []) (hspace : isSpace (decodeRune w).1 = false)
    (hcontinues : ∀ c ∈ w, continuesWord c = true) (hends : ∀ c ∈ rest.head?, continuesWord c = false) :
    keywords.gap (w ++ rest) = 0 := by
  have hdecode : decodeRune (w ++ rest) = decodeRune w := by
    cases rest with
    | nil => rw [List.append_nil]
    | cons c rest =>
      have hc : startsWord c = false := by
        rw [← Bool.not_eq_true]
        intro hstarts
        have hend := hends c rfl
        rw [Sql.Postgres.continuesWord_of_startsWord hstarts] at hend
        cases hend
      have hascii := ascii_of_not_starts hc
      exact decodeRune_append_lead hw (isContinuation_of_ascii hascii) rest
  obtain ⟨c, w, rfl⟩ := List.exists_cons_of_ne_nil hw
  have hne {b : UInt8} (hb : continuesWord b = false) : c ≠ b := by
    intro hcb
    have hfirst := hcontinues c List.mem_cons_self
    rw [hcb, hb] at hfirst
    cases hfirst
  rw [← hdecode] at hspace
  exact gap_cons_eq_zero hspace (fun h => absurd h (hne (by decide))) (fun h => absurd h (hne (by decide)))

theorem trimLeftFunc_ne_nil {t : Token} (h : blank t = false) : trimLeftFunc isSpace t.2 ≠ [] := by
  intro hnil
  exact (blank_eq_false_iff.mp h).2 (by rw [trimSpace, hnil]; rfl)

/-- A token with a letter in it is a word, unless it is a comment or quoted text. -/
theorem word_of_startsWord {t : Token} {rest : Text} (hshape : Sql.Postgres.Shape t rest)
    (hcomment : t.1 ≠ .comment) (hquote : t.1 ≠ .quote) {c : UInt8} (hc : c ∈ t.2)
    (hstarts : startsWord c = true) : t.1 = .word ∧ (∀ c ∈ t.2, continuesWord c = true) ∧
      ∀ c ∈ rest.head?, continuesWord c = false := by
  cases hshape with
  | comment => exact absurd rfl hcomment
  | quote => exact absurd rfl hquote
  | space blank =>
    rw [List.mem_singleton.mp hc] at hstarts
    rw [(Sql.Postgres.startsWord_ne hstarts).1] at blank
    cases blank
  | semicolon =>
    rw [List.mem_singleton.mp hc] at hstarts
    exact absurd hstarts (by decide)
  | word _ continues ends => exact ⟨rfl, continues, ends⟩
  | other _ starts =>
    rw [List.mem_singleton.mp hc, starts] at hstarts
    cases hstarts

/-- Where the text goes on with a blank, a blank comes next. -/
theorem space_of_blank {query : Text} {pre stmt post : List Token} {more : Text}
    (hlex : lex query = pre ++ (stmt ++ post)) (h : textOf stmt = 0x20 :: more) :
    ∃ tail, stmt = (.space, [0x20]) :: tail ∧ more = textOf tail := by
  have hrest := Sql.Postgres.lex_textOf hlex
  rw [textOf_append, h, List.cons_append,
    Sql.Postgres.lex_of_ne_nil (List.cons_ne_nil _ _), Sql.Postgres.token_space (by decide)] at hrest
  cases stmt with
  | nil => cases h
  | cons t tail =>
    obtain ⟨rfl, -⟩ := List.cons_eq_cons.mp hrest
    exact ⟨tail, rfl, (List.cons_eq_cons.mp h).2.symm⟩

/-- Of a token in front that is no white space, comment or quoted text, the code skips only the white space
that PostgreSQL takes for the start of a word. -/
theorem skip_append_of_shape {t : Token} {rest : Text} (hshape : Sql.Postgres.Shape t rest)
    (hblank : blank t = false) (hquote : t.1 ≠ .quote) :
    keywords.skip (t.2 ++ rest) = trimLeftFunc isSpace t.2 ++ rest := by
  have hmore := trimLeftFunc_ne_nil hblank
  have hspace := isSpace_trimLeftFunc t.2
  obtain ⟨u, -, hsuffix⟩ := exists_trimLeftFunc t.2
  rw [← skip_trimLeftFunc_append]
  generalize trimLeftFunc isSpace t.2 = w at hmore hspace hsuffix
  apply Sql.Reading.skip_of_gap_eq_zero
  have hsingle {b : UInt8} (ht : t.2 = [b]) : w = [b] := by
    rw [ht] at hsuffix
    obtain ⟨-, hw⟩ | ⟨-, hw⟩ := List.singleton_eq_append_iff.mp hsuffix
    · exact hw
    · exact absurd hw hmore
  cases hshape with
  | comment => exact absurd rfl (blank_eq_false_iff.mp hblank).1
  | quote => exact absurd rfl hquote
  | space blank =>
    obtain rfl := hsingle rfl
    obtain ⟨hascii, hb⟩ := (isSpace_iff _).mp blank
    simp [decodeRune, hascii, hb] at hspace
  | semicolon =>
    obtain rfl := hsingle rfl
    exact gap_of_solid (by decide) rest
  | word starts continues ends =>
    refine gap_word_append hmore hspace (fun c hc => continues c ?_) ends
    have hmem := List.mem_append_right u hc
    rwa [← hsuffix] at hmem
  | other separates starts line block =>
    obtain rfl := hsingle rfl
    have hascii := ascii_of_not_starts starts
    exact gap_cons_eq_zero (by simpa [decodeRune, hascii] using hspace) line block

/-- A token whose text goes on with letters and a blank is a word of these letters. -/
theorem word_of_letters {t : Token} {rest word more : Text} (hshape : Sql.Postgres.Shape t rest)
    (hblank : blank t = false) (hquote : t.1 ≠ .quote) (hword : word ≠ [])
    (hletters : ∀ c ∈ word, startsWord c = true)
    (h : trimLeftFunc isSpace t.2 ++ rest = word ++ 0x20 :: more) :
    t.1 = .word ∧ trimLeftFunc isSpace t.2 = word ∧ rest = 0x20 :: more := by
  obtain ⟨u, -, hsuffix⟩ := exists_trimLeftFunc t.2
  have hinner : ∀ c ∈ trimLeftFunc isSpace t.2, c ∈ t.2 := by
    intro c hc
    rw [hsuffix]
    exact List.mem_append_right u hc
  -- The first letter is one of the token.
  obtain ⟨c, w, hw⟩ := List.exists_cons_of_ne_nil (trimLeftFunc_ne_nil hblank)
  have hc : c ∈ word := by
    obtain ⟨d, word, rfl⟩ := List.exists_cons_of_ne_nil hword
    rw [hw] at h
    rw [(List.cons_eq_cons.mp h).1]
    exact List.mem_cons_self
  have hmem : c ∈ t.2 := hinner c (by rw [hw]; exact List.mem_cons_self)
  obtain ⟨hkind, hcontinues, hends⟩ := word_of_startsWord hshape
    (blank_eq_false_iff.mp hblank).1 hquote hmem (hletters c hc)
  refine ⟨hkind, eq_of_append_eq (fun c hc => hcontinues c (hinner c hc))
    (fun c hc => Sql.Postgres.continuesWord_of_startsWord (hletters c hc)) hends ?_ h⟩
  intro c hc
  rw [← Option.some.inj hc]
  decide

/-- A statement without quotes and comments is recognised only if it is spelled the way the code
expects. -/
theorem spelled_of_recognised {query : Text} {pre stmt post : List Token}
    (hlex : lex query = pre ++ (stmt ++ post)) (hplain : ∀ t ∈ stmt, t.1 ≠ .quote ∧ t.1 ≠ .comment)
    (h : Recognised (textOf stmt)) : Spelled stmt := by
  obtain ⟨word, more, hskip, hmore, hkeyword⟩ := h
  obtain ⟨hletters, hword⟩ := letters_of_keyword (hkeyword.imp_left And.left)
  have hstmt := (front_append_body stmt).symm
  have hblank : ∀ t ∈ front stmt, blank t = true := fun _ => blank_of_mem_front
  have hhead {t : Token} {tail : List Token} (h : body stmt = t :: tail) : blank t = false :=
    blank_of_body h
  rw [Spelled]
  generalize front stmt = ts at hstmt hblank
  generalize body stmt = rest at hstmt hhead ⊢
  subst hstmt
  have hcomments : ∀ t ∈ ts, t.1 = .comment → EndsAlike t := fun t ht hcomment =>
    absurd hcomment (hplain t (List.mem_append_left _ ht)).2
  rw [textOf_append, skip_textOf_append hblank hcomments] at hskip
  cases rest with
  | nil => simp [textOf_nil] at hskip
  | cons t rest =>
    have hfirst := hhead rfl
    have htoken : lex query = pre ++ ts ++ t :: (rest ++ post) := by simpa using hlex
    have hshape : Sql.Postgres.Shape t (textOf rest) := by
      have hwhole := Sql.Postgres.shape_of_lex htoken
      rw [textOf_append] at hwhole
      exact hwhole.of_append
    obtain ⟨hquote, -⟩ := hplain t (by simp)
    rw [textOf_cons, skip_append_of_shape hshape hfirst hquote] at hskip
    obtain ⟨hkind, heq, hblankNext⟩ := word_of_letters hshape hfirst hquote hword
      (fun c hc => (hletters c hc).2.2.1) hskip
    obtain ⟨tail, rfl, rfl⟩ := space_of_blank
      (show lex query = (pre ++ ts ++ [t]) ++ (rest ++ post) by simpa using hlex) hblankNext
    refine ⟨t.2, tail, by rw [← hkind], hmore, ?_⟩
    rw [heq]
    refine hkeyword.imp_left fun h => ⟨h.1, ?_⟩
    rintro ⟨next, back, rfl, hlocal⟩
    apply h.2
    rw [textOf_cons, lower_append]
    exact hlocal.trans (List.prefix_append _ _)

/-- The code and PostgreSQL agree on the parts of a statement without quotes and comments. -/
theorem exists_recognised_iff {query : Text} {stmt : List Token} (hstmt : stmt ∈ statements query)
    (hplain : ∀ t ∈ stmt, t.1 ≠ .quote ∧ t.1 ≠ .comment) :
    (∃ part ∈ splitByte 0x3B (textOf stmt), Recognised part) ↔ Spelled stmt := by
  obtain ⟨⟨pre, post, hlex⟩, hnone⟩ := Sql.Postgres.mem_statements hstmt
  have hfree : 0x3B ∉ textOf stmt := by
    intro hmem
    obtain ⟨t, ht, hsemicolon⟩ := mem_textOf.mp hmem
    obtain ⟨before, after, rfl⟩ := List.append_of_mem ht
    have htoken : lex query = pre ++ before ++ t :: (after ++ post) := by simpa using hlex
    obtain ⟨hquote, hcomment⟩ := hplain t ht
    exact (Sql.Postgres.shape_of_lex htoken).semicolon_not_mem (hnone t ht) hquote hcomment hsemicolon
  constructor
  · rintro ⟨part, hpart, hrecognised⟩
    rw [splitByte_of_not_mem hfree, List.mem_singleton] at hpart
    exact spelled_of_recognised hlex hplain (hpart ▸ hrecognised)
  · intro hspelled
    apply hspelled.exists_recognised hlex hnone
    intro t ht
    have hmem : t ∈ stmt := (List.takeWhile_prefix blank).subset ht
    exact ⟨fun h => hfree (mem_textOf.mpr ⟨t, hmem, h⟩), fun h => absurd h (hplain t hmem).2⟩

/-- Which texts make the code pin: enough for every text, and exact where nothing is quoted or a
comment. -/
theorem pins_of_spelled {query : Text} {stmt : List Token} (hstmt : stmt ∈ statements query)
    (hspelled : Spelled stmt) (halike : ∀ t ∈ front stmt, Alike t) :
    processPins (.query query) = true := by
  obtain ⟨⟨pre, post, hlex⟩, hnone⟩ := Sql.Postgres.mem_statements hstmt
  obtain ⟨part, hpart, hrecognised⟩ := hspelled.exists_recognised hlex hnone halike
  rw [processPins_iff, splitByte_eq_flatMap]
  exact ⟨part, List.mem_flatMap.mpr ⟨stmt, hstmt, hpart⟩, hrecognised⟩

theorem pins_iff_spelled {query : Text} (hplain : Plain query) :
    processPins (.query query) = true ↔ ∃ stmt ∈ statements query, Spelled stmt := by
  rw [processPins_iff, splitByte_eq_flatMap]
  have hparts {stmt : List Token} (hstmt : stmt ∈ statements query) :
      (∃ part ∈ splitByte 0x3B (textOf stmt), Recognised part) ↔ Spelled stmt := by
    apply exists_recognised_iff hstmt
    obtain ⟨⟨pre, post, hlex⟩, -⟩ := Sql.Postgres.mem_statements hstmt
    intro t ht
    apply hplain
    rw [hlex]
    exact List.mem_append_right _ (List.mem_append_left _ ht)
  constructor
  · rintro ⟨part, hmem, hrecognised⟩
    obtain ⟨stmt, hstmt, hpart⟩ := List.mem_flatMap.mp hmem
    exact ⟨stmt, hstmt, (hparts hstmt).mp ⟨part, hpart, hrecognised⟩⟩
  · rintro ⟨stmt, hstmt, hspelled⟩
    obtain ⟨part, hpart, hrecognised⟩ := (hparts hstmt).mpr hspelled
    exact ⟨part, List.mem_flatMap.mpr ⟨stmt, hstmt, hpart⟩, hrecognised⟩

/-- The first significant token of a statement is the first behind what the code skips, unless the code
takes it for white space. -/
theorem body_of_significant {query : Text} {pre stmt post rest : List Token} {t : Token}
    (hlex : lex query = pre ++ (stmt ++ post)) (h : significant stmt = t :: rest)
    (hblank : blank t = false) : ∃ tail, body stmt = t :: tail := by
  induction stmt generalizing pre with
  | nil => cases h
  | cons first stmt ih =>
    rw [significant, List.filter_cons] at h
    cases hkind : first.1.blank with
    | false =>
      rw [hkind, if_pos (by decide)] at h
      obtain ⟨rfl, -⟩ := List.cons_eq_cons.mp h
      exact ⟨stmt, List.dropWhile_cons_of_neg (by simp [hblank])⟩
    | true =>
      rw [hkind, if_neg (by decide)] at h
      have hskipped : blank first = true := by
        cases Sql.Postgres.shape_of_lex hlex with
        | space blank =>
          obtain ⟨hascii, hspace⟩ := (isSpace_iff _).mp blank
          rw [blank_eq_true_iff, trimSpace_eq_nil_iff, runes_cons_ascii hascii]
          exact .inr (List.forall_mem_singleton.mpr hspace)
        | comment => exact blank_eq_true_iff.mpr (.inl rfl)
        | quote | word | semicolon | other => cases hkind
      obtain ⟨tail, htail⟩ := ih (show lex query = (pre ++ [first]) ++ (stmt ++ post) by simpa using hlex) h
      exact ⟨tail, (List.dropWhile_cons_of_pos hskipped).trans htail⟩

/-- A token that is no comment is not skipped if it starts with no white space. -/
theorem blank_of_trimLeftFunc {t : Token} (hcomment : t.1 ≠ .comment) (hne : t.2 ≠ [])
    (h : trimLeftFunc isSpace t.2 = t.2) : blank t = false := by
  have hfirst := isSpace_trimLeftFunc t.2
  rw [h] at hfirst
  rw [blank_eq_false_iff, Ne, Ne, trimSpace_eq_nil_iff]
  refine ⟨hcomment, fun hall => ?_⟩
  obtain ⟨head, rest, r, hhead, heq, hd⟩ := exists_rune hne
  rw [heq] at hd
  rw [heq, runes_rune hhead hd, List.forall_mem_cons] at hall
  rw [heq, hd, hall.1] at hfirst
  cases hfirst

/-- The keywords of the code start with no white space. -/
theorem trimLeftFunc_of_keyword {word : Text}
    (h : lower word = text "set" ∨ lower word = text "prepare") : trimLeftFunc isSpace word = word := by
  obtain ⟨hletters, hne⟩ := letters_of_keyword h
  obtain ⟨b, w, rfl⟩ := List.exists_cons_of_ne_nil hne
  obtain ⟨hascii, hspace, -⟩ := hletters b List.mem_cons_self
  apply trimLeftFunc_of_first
  simpa [decodeRune, hascii] using hspace

/-- A statement that sets state is spelled the way the code expects if a blank and more follow its keyword,
and not right away `LOCAL`. -/
theorem SetsState.spelled {query : Text} {stmt : List Token} (hstmt : stmt ∈ statements query)
    (hsets : SetsState stmt) (hblanked : Blanked stmt) : Spelled stmt := by
  obtain ⟨⟨pre, post, hlex⟩, -⟩ := Sql.Postgres.mem_statements hstmt
  obtain ⟨word, rest, hfirst, hkeyword⟩ : ∃ word rest, significant stmt = (.word, word) :: rest ∧
      (lower word = text "set" ∨ lower word = text "prepare") := by
    obtain ⟨set, next, rest, hfirst, hset, -⟩ | hprepare := hsets
    · exact ⟨set, next :: rest, hfirst, .inl hset⟩
    · obtain ⟨word, rest, hfirst, hword⟩ := Sql.Postgres.exists_of_keyword hprepare
      exact ⟨word, rest, hfirst, .inr hword⟩
  have htrim := trimLeftFunc_of_keyword hkeyword
  have hblank : blank (.word, word) = false :=
    blank_of_trimLeftFunc (by intro h; cases h) (letters_of_keyword hkeyword).2 htrim
  obtain ⟨first, tail, hbody, hmore, hlocal⟩ := hblanked
  obtain ⟨tail', hbody'⟩ := body_of_significant hlex hfirst hblank
  obtain ⟨rfl, rfl⟩ := List.cons_eq_cons.mp (hbody'.symm.trans hbody)
  refine ⟨word, tail, hbody, hmore, ?_⟩
  rw [htrim]
  exact hkeyword.imp_left fun hset => ⟨hset, hlocal hset⟩

/-- A statement that sets no state is not spelled the way the code expects, unless more white space than the
blank stands in front of `LOCAL`, or white space that is not ASCII in front of the statement. -/
theorem KeepsState.not_spelled {query : Text} {stmt : List Token} (hstmt : stmt ∈ statements query)
    (hkeeps : KeepsState stmt) (hlocal : ¬ SpacedLocal stmt) (hpadded : ¬ Padded stmt) :
    ¬ Spelled stmt := by
  rintro ⟨word, tail, hbody, -, hkeyword⟩
  obtain ⟨⟨pre, post, hlex⟩, -⟩ := Sql.Postgres.mem_statements hstmt
  have hmem : (.word, word) ∈ significant stmt := by
    rw [significant, List.mem_filter]
    refine ⟨(List.dropWhile_suffix blank).subset ?_, rfl⟩
    rw [← body, hbody]
    exact List.mem_cons_self
  obtain ⟨t, rest, hfirst⟩ := List.exists_cons_of_ne_nil (List.ne_nil_of_mem hmem)
  have htrim : trimLeftFunc isSpace t.2 = t.2 := by
    by_contra hne
    exact hpadded ⟨t, by rw [hfirst]; rfl, hne⟩
  have hblank : blank t = false := by
    have hsignificant : t ∈ significant stmt := by
      rw [hfirst]
      exact List.mem_cons_self
    obtain ⟨hin, hkind⟩ := List.mem_filter.mp hsignificant
    obtain ⟨before, after, rfl⟩ := List.append_of_mem hin
    have hshape := Sql.Postgres.shape_of_lex
      (show lex query = pre ++ before ++ t :: (after ++ post) by simpa using hlex)
    refine blank_of_trimLeftFunc (fun hcomment => ?_) ?_ htrim
    · rw [hcomment] at hkind
      cases hkind
    · cases hshape <;> exact List.cons_ne_nil _ _
  obtain ⟨tail', hbody'⟩ := body_of_significant hlex hfirst hblank
  obtain ⟨rfl, rfl⟩ := List.cons_eq_cons.mp (hbody'.symm.trans hbody)
  rw [htrim] at hkeyword
  obtain hnone | ⟨set, scope, more, hset, hlower, -⟩ | ⟨first, hkey, hnotset, hnotprepare⟩ := hkeeps
  · rw [hnone] at hfirst
    cases hfirst
  · rw [hset] at hfirst
    obtain ⟨heq, -⟩ := List.cons_eq_cons.mp hfirst
    obtain rfl : set = word := congrArg Prod.snd heq
    obtain ⟨-, hnext⟩ | hprepare := hkeyword
    · exact hlocal ⟨set, tail, hbody, hlower, hnext⟩
    · rw [hlower] at hprepare
      exact absurd hprepare (by decide)
  · rw [Sql.Postgres.keyword, hfirst] at hkey
    obtain rfl := Option.some.inj hkey
    obtain ⟨hset, -⟩ | hprepare := hkeyword
    · exact hnotset hset
    · exact hnotprepare hprepare

/-- A statement that sets session state pins if a blank U+0020 and more follow its keyword, not right away
`LOCAL` behind `SET`, and the code skips the comments in front of it as PostgreSQL does. A text without
quotes and comments that sets none does not pin if no `SET` has more than a blank in front of its `LOCAL`,
and no statement starts with white space that is not ASCII. Where nothing is quoted or a comment, exactly the
texts with a statement that is spelled the way the code expects pin. -/
theorem session_state_pins (query : Text) :
    ((∃ stmt ∈ statements query, SetsState stmt ∧ Blanked stmt ∧ ∀ t ∈ front stmt, Alike t) →
      processPins (.query query) = true) ∧
    (Plain query →
      (∀ stmt ∈ statements query, KeepsState stmt ∧ ¬ SpacedLocal stmt ∧ ¬ Padded stmt) →
      processPins (.query query) = false) ∧
    (Plain query →
      (processPins (.query query) = true ↔ ∃ stmt ∈ statements query, Spelled stmt)) := by
  refine ⟨?_, fun hplain hkeeps => ?_, pins_iff_spelled⟩
  · rintro ⟨stmt, hstmt, hsets, hblanked, halike⟩
    exact pins_of_spelled hstmt (hsets.spelled hstmt hblanked) halike
  · rw [← Bool.not_eq_true, pins_iff_spelled hplain]
    rintro ⟨stmt, hstmt, hspelled⟩
    obtain ⟨hkeep, hlocal, hpadded⟩ := hkeeps stmt hstmt
    exact hkeep.not_spelled hstmt hlocal hpadded hspelled

/-- A `SET` with a tab behind it. -/
def tabbedSet : Text := text "SET\tsearch_path = x"

/-- A `SET LOCAL` with two blanks between its words. -/
def spacedLocal : Text := text "SET  LOCAL search_path = x"

/-- The first sets session state and does not pin; the second sets none, is plain, and pins. -/
theorem tabbed_set_not_pinned :
    ((∃ stmt ∈ statements tabbedSet, SetsState stmt) ∧ processPins (.query tabbedSet) = false) ∧
    (Plain spacedLocal ∧ (∀ stmt ∈ statements spacedLocal, KeepsState stmt) ∧
      processPins (.query spacedLocal) = true) := by
  have hone : statements spacedLocal = [lex spacedLocal] :=
    Sql.Postgres.statements_of_not_mem (by decide)
  refine ⟨⟨⟨lex tabbedSet, by decide, .inl ⟨text "SET", (.word, text "search_path"),
    [(.other, text "="), (.word, text "x")], by decide, by decide, by decide⟩⟩,
    by decide⟩, by unfold Plain; decide, ?_, by decide⟩
  rw [hone, List.forall_mem_singleton]
  exact .inr (.inl ⟨text "SET", text "LOCAL",
    [(.word, text "search_path"), (.other, text "="), (.word, text "x")], by decide, by decide,
    by decide⟩)

end Grunyas.Messaging
