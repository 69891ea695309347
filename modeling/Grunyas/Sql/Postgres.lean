import Grunyas.Go.Utf8
import Grunyas.Sql.Reading

/-!
# The lexical rules of PostgreSQL

A query text is a sequence of tokens: white space, comments, quoted text, words, semicolons and
other bytes. A line comment ends at a line feed or a carriage return; block comments nest, and the
end of one may not share a byte with its opener; a quote within quotes of the same kind is doubled,
escape strings have backslashes besides, and a dollar quote ends at its own tag. Semicolons outside
quotes and comments separate the statements of a text. What is left open runs to the end of the
text.

`lex` cuts a text into tokens, each of them with the `Shape` of its kind (`shape_of_lex`), and `reading`
skips blank tokens and takes words.
-/

namespace Sql.Postgres

open GoText (text)

/-- What a token is. -/
inductive Kind where
  | space
  | comment
  | quote
  | word
  | semicolon
  | other
  deriving DecidableEq, Repr

/-- A token with its bytes. -/
abbrev Token := Kind × List UInt8

/-- White space. -/
def isSpace (b : UInt8) : Bool := b == 0x20 || (0x09 ≤ b && b ≤ 0x0D)

/-- The bytes that start a word: letters, the underscore and everything that is not ASCII. -/
def startsWord (b : UInt8) : Bool :=
  (0x41 ≤ b && b ≤ 0x5A) || (0x61 ≤ b && b ≤ 0x7A) || b == 0x5F || 0x80 ≤ b

/-- The bytes of a dollar quote's tag. -/
def continuesTag (b : UInt8) : Bool := startsWord b || (0x30 ≤ b && b ≤ 0x39)

/-- The bytes that continue a word. -/
def continuesWord (b : UInt8) : Bool := continuesTag b || b == 0x24

/-- The length of a line with the byte that ends it. -/
def lineLength : List UInt8 → ℕ
  | [] => 0
  | b :: s => if b = 0x0A ∨ b = 0x0D then 1 else lineLength s + 1

/-- The length of the rest of a block comment, so many comments within another. -/
def blockLength : ℕ → List UInt8 → ℕ
  | _, [] => 0
  | _, [_] => 1
  | depth, b :: c :: s =>
    if b = 0x2A ∧ c = 0x2F then
      match depth with
      | 0 => 2
      | depth + 1 => blockLength depth s + 2
    else if b = 0x2F ∧ c = 0x2A then blockLength (depth + 1) s + 2
    else blockLength depth (c :: s) + 1

/-- The length of the rest of a quoted text, in which a backslash may protect the next byte. -/
def quoteLength (quote : UInt8) (escapes : Bool) : List UInt8 → ℕ
  | [] => 0
  | [_] => 1
  | b :: c :: s =>
    if (escapes ∧ b = 0x5C) ∨ (b = quote ∧ c = quote) then quoteLength quote escapes s + 2
    else if b = quote then 1
    else quoteLength quote escapes (c :: s) + 1

/-- The number of bytes up to the end of the first occurrence of a delimiter. -/
def throughLength (delimiter : List UInt8) : List UInt8 → ℕ
  | [] => 0
  | b :: s =>
    if delimiter.isPrefixOf (b :: s) then delimiter.length else throughLength delimiter s + 1

/-- The tag of a dollar quote, from behind its first dollar sign. -/
def dollarTag (s : List UInt8) : Option (List UInt8) :=
  let tag := s.takeWhile continuesTag
  if tag.head?.all startsWord ∧ (s.drop tag.length).head? = some 0x24 then some tag
  else none

/-- The token that starts with a dollar sign, from behind it. -/
def dollarToken (s : List UInt8) : Kind × ℕ :=
  match dollarTag s with
  | none => (.other, 1)
  | some tag =>
    (.quote, throughLength (0x24 :: tag ++ [0x24]) (s.drop (tag.length + 1)) + (tag.length + 2))

/-- The kind and the length of the token in front of a text. -/
def token : List UInt8 → Kind × ℕ
  | [] => (.other, 0)
  | b :: s =>
    if isSpace b then (.space, 1)
    else if b = 0x2D ∧ s.head? = some 0x2D then (.comment, lineLength s.tail + 2)
    else if b = 0x2F ∧ s.head? = some 0x2A then (.comment, blockLength 0 s.tail + 2)
    else if b = 0x27 ∨ b = 0x22 then (.quote, quoteLength b false s + 1)
    else if (b = 0x45 ∨ b = 0x65) ∧ s.head? = some 0x27 then
      (.quote, quoteLength 0x27 true s.tail + 2)
    else if startsWord b then (.word, (s.takeWhile continuesWord).length + 1)
    else if b = 0x3B then (.semicolon, 1)
    else if b = 0x24 then dollarToken s
    else (.other, 1)

/-- Whether tokens of the kind carry no meaning. -/
def Kind.blank (k : Kind) : Bool := k == .space || k == .comment

/-- The tokens of a text, at most so many. -/
def lexLoop : ℕ → List UInt8 → List Token
  | 0, _ => []
  | bound + 1, s =>
    if s = [] then []
    else ((token s).1, s.take (token s).2) :: lexLoop bound (s.drop (token s).2)

/-- The tokens of a text. -/
def lex (s : List UInt8) : List Token := lexLoop s.length s

/-- The statements of a text, each as its tokens. -/
def statements (s : List UInt8) : List (List Token) :=
  (lex s).splitOnP fun t => t.1 == .semicolon

/-- The bytes of tokens in a row. -/
def textOf (ts : List Token) : List UInt8 := ts.flatMap Prod.snd

/-- The tokens that carry meaning. -/
def significant (ts : List Token) : List Token := ts.filter fun t => !t.1.blank

/-- The lower case of a byte: ASCII letters only. -/
def lowerByte (b : UInt8) : UInt8 := if 0x41 ≤ b ∧ b ≤ 0x5A then b + 0x20 else b

/-- A word in lower case. -/
def lower (w : List UInt8) : List UInt8 := w.map lowerByte

/-- The first keyword of tokens in a row, in lower case: their first significant token, if that is a
word. -/
def keyword (ts : List Token) : Option (List UInt8) :=
  match significant ts with
  | (.word, w) :: _ => some (lower w)
  | _ => none

/-- The words in front of tokens in a row, in lower case. -/
def leadingWords (ts : List Token) : List (List UInt8) :=
  ((significant ts).takeWhile fun t => t.1 == .word).map fun t => lower t.2

/-- The commands that begin, end or divide a transaction. -/
inductive TransactionCommand where
  | begin
  | commit
  | rollback
  | savepoint
  | release
  | rollbackTo
  | twoPhase
  deriving DecidableEq, Repr

/-- The words of a command without the noise word in front of them. -/
def dropNoise : List (List UInt8) → List (List UInt8)
  | [] => []
  | w :: rest => if w = text "work" ∨ w = text "transaction" then rest else w :: rest

/-- The command of a statement, if it begins, ends or divides a transaction. -/
def transactionCommand (ts : List Token) : Option TransactionCommand :=
  match leadingWords ts with
  | [] => none
  | w :: rest =>
    if w = text "begin" ∨ (w = text "start" ∧ rest.head? = some (text "transaction")) then some .begin
    else if w = text "end" then some .commit
    else if w = text "commit" then
      some (if rest.head? = some (text "prepared") then .twoPhase else .commit)
    else if w = text "abort" then some .rollback
    else if w = text "rollback" then
      some (if rest.head? = some (text "prepared") then .twoPhase
        else if (dropNoise rest).head? = some (text "to") then .rollbackTo
        else .rollback)
    else if w = text "savepoint" then some .savepoint
    else if w = text "release" then some .release
    else if w = text "prepare" ∧ rest.head? = some (text "transaction") then some .twoPhase
    else none

/-- A dollar sign starts quoted text or stands alone. -/
theorem dollarToken_cases (s : List UInt8) :
    dollarToken s = (.other, 1) ∨ ∃ n, dollarToken s = (.quote, n + 1) := by
  unfold dollarToken
  split
  · exact .inl rfl
  · exact .inr ⟨_, rfl⟩

/-- What may be in front of a text, as a token of which kind and length. -/
inductive Front : List UInt8 → Kind × ℕ → Prop where
  | space {b : UInt8} {s : List UInt8} (blank : isSpace b = true) : Front (b :: s) (.space, 1)
  | line {s : List UInt8} : Front (0x2D :: 0x2D :: s) (.comment, lineLength s + 2)
  | block {s : List UInt8} : Front (0x2F :: 0x2A :: s) (.comment, blockLength 0 s + 2)
  | quote {b : UInt8} {s : List UInt8} {n : ℕ} (opens : b ∈ [0x27, 0x22, 0x45, 0x65, 0x24]) :
      Front (b :: s) (.quote, n + 1)
  | word {b : UInt8} {s : List UInt8} (starts : startsWord b = true) :
      Front (b :: s) (.word, (s.takeWhile continuesWord).length + 1)
  | semicolon {s : List UInt8} : Front (0x3B :: s) (.semicolon, 1)
  | other {b : UInt8} {s : List UInt8} (separates : b ≠ 0x3B) (starts : startsWord b = false) :
      Front (b :: s) (.other, 1)

/-- The token in front of a text is one of these. -/
theorem front_token {s : List UInt8} (hs : s ≠ []) : Front s (token s) := by
  cases s with
  | nil => exact absurd rfl hs
  | cons b s =>
    have hsecond {c : UInt8} (hc : s.head? = some c) : s = c :: s.tail := by
      cases s with
      | nil => cases hc
      | cons d s => rw [Option.some.inj hc, List.tail_cons]
    rw [token]
    split_ifs with hspace hline hblock hquote hescape hword hsemicolon hdollar
    · exact .space hspace
    · rw [hline.1]
      generalize s.tail = t at hsecond
      rw [hsecond hline.2]
      exact .line
    · rw [hblock.1]
      generalize s.tail = t at hsecond
      rw [hsecond hblock.2]
      exact .block
    · apply Front.quote
      obtain rfl | rfl := hquote <;> decide
    · apply Front.quote
      obtain rfl | rfl := hescape.1 <;> decide
    · exact .word hword
    · rw [hsemicolon]
      exact .semicolon
    · rw [Bool.not_eq_true] at hword
      obtain hd | ⟨n, hd⟩ := dollarToken_cases s
      · rw [hd]
        exact .other hsemicolon hword
      · rw [hd, hdollar]
        exact .quote (by decide)
    · rw [Bool.not_eq_true] at hword
      exact .other hsemicolon hword

/-- A token of another kind than the empty text's has a text. -/
theorem front_of_kind {s : List UInt8} (h : (token s).1 ≠ .other) : Front s (token s) := by
  apply front_token
  rintro rfl
  exact h rfl

/-- The token in front of a text is not empty. -/
theorem token_pos {s : List UInt8} (hs : s ≠ []) : 0 < (token s).2 := by
  have hfront := front_token hs
  generalize token s = front at hfront
  cases hfront <;> exact Nat.succ_pos _

theorem length_drop_token_lt {s : List UInt8} (hs : s ≠ []) :
    (s.drop (token s).2).length < s.length := by
  have hpos := token_pos hs
  have hlen := List.length_pos_of_ne_nil hs
  rw [List.length_drop]
  omega

/-- The bound is immaterial to the tokens. -/
theorem lexLoop_eq {bound : ℕ} {s : List UInt8} (h : s.length ≤ bound) : lexLoop bound s = lex s := by
  suffices heq : ∀ first second (s : List UInt8), s.length ≤ first → s.length ≤ second →
      lexLoop first s = lexLoop second s from heq _ _ s h (Nat.le_refl _)
  intro first
  induction first with
  | zero =>
    intro second s hfirst _
    obtain rfl := List.length_eq_zero_iff.mp (Nat.le_zero.mp hfirst)
    cases second <;> rfl
  | succ first ih =>
    intro second s hfirst hsecond
    by_cases hs : s = []
    · rw [hs]
      cases second <;> rfl
    · have hlt := length_drop_token_lt hs
      obtain ⟨second, rfl⟩ := Nat.exists_eq_succ_of_ne_zero (show second ≠ 0 by omega)
      rw [lexLoop, lexLoop, if_neg hs, if_neg hs, ih second _ (by omega) (by omega)]

@[simp] theorem lex_nil : lex [] = [] := rfl

/-- The tokens of a text: the one in front, and those of the rest. -/
theorem lex_of_ne_nil {s : List UInt8} (hs : s ≠ []) :
    lex s = ((token s).1, s.take (token s).2) :: lex (s.drop (token s).2) := by
  have hlt := length_drop_token_lt hs
  obtain ⟨n, hn⟩ := Nat.exists_eq_succ_of_ne_zero (Nat.ne_zero_of_lt hlt)
  rw [lex, hn, lexLoop, if_neg hs, lexLoop_eq (by omega)]

/-- Induction along the tokens of a text. -/
theorem token_induction {motive : List UInt8 → Prop} (nil : motive [])
    (token : ∀ s, s ≠ [] → motive (s.drop (token s).2) → motive s) (s : List UInt8) : motive s := by
  induction hn : s.length using Nat.strongRecOn generalizing s with
  | _ n ih =>
    by_cases hs : s = []
    · rw [hs]
      exact nil
    · exact token s hs (ih _ (hn ▸ length_drop_token_lt hs) _ rfl)

theorem textOf_nil : textOf [] = [] := rfl

theorem textOf_cons (t : Token) (ts : List Token) : textOf (t :: ts) = t.2 ++ textOf ts := rfl

theorem textOf_append (ts us : List Token) : textOf (ts ++ us) = textOf ts ++ textOf us :=
  List.flatMap_append

/-- The bytes of tokens are those of each. -/
theorem mem_textOf {ts : List Token} {b : UInt8} : b ∈ textOf ts ↔ ∃ t ∈ ts, b ∈ t.2 :=
  List.mem_flatMap

theorem lower_append (v w : List UInt8) : lower (v ++ w) = lower v ++ lower w := List.map_append

/-- The tokens of a text make it up. -/
theorem textOf_lex (s : List UInt8) : textOf (lex s) = s := by
  induction s using token_induction with
  | nil => rfl
  | token s hs ih =>
    rw [lex_of_ne_nil hs, textOf_cons, ih, List.take_append_drop]

/-- Behind some of its tokens a text has the others. -/
theorem lex_textOf {s : List UInt8} {front back : List Token} (h : lex s = front ++ back) :
    lex (textOf back) = back := by
  induction front generalizing s with
  | nil =>
    rw [List.nil_append] at h
    rw [← h, textOf_lex]
  | cons t front ih =>
    have hs : s ≠ [] := by
      rintro rfl
      cases h
    rw [lex_of_ne_nil hs, List.cons_append] at h
    exact ih (List.cons_eq_cons.mp h).2

/-- A token is the one in front of the text that begins with it. -/
theorem eq_token {s : List UInt8} {front back : List Token} {t : Token} (h : lex s = front ++ t :: back) :
    textOf (t :: back) ≠ [] ∧ t.1 = (token (textOf (t :: back))).1 ∧
      t.2 = (textOf (t :: back)).take (token (textOf (t :: back))).2 := by
  have hlex := lex_textOf h
  have hs : textOf (t :: back) ≠ [] := by
    intro hnil
    rw [hnil] at hlex
    cases hlex
  rw [lex_of_ne_nil hs] at hlex
  have hfirst := (List.cons_eq_cons.mp hlex).1
  exact ⟨hs, (congrArg Prod.fst hfirst).symm, (congrArg Prod.snd hfirst).symm⟩

/-- Only a semicolon is a semicolon token. -/
theorem token_semicolon {s : List UInt8} (h : (token s).1 = .semicolon) :
    ∃ t, s = 0x3B :: t ∧ (token s).2 = 1 := by
  have hfront := front_of_kind (s := s) (by rw [h]; decide)
  generalize token s = front at hfront h
  cases hfront with
  | semicolon => exact ⟨_, rfl, rfl⟩
  | space | line | block | quote | word | other => cases h

/-- A semicolon token has the semicolon for its text. -/
theorem eq_of_semicolon {s : List UInt8} : ∀ t ∈ lex s, t.1 = .semicolon → t.2 = [0x3B] := by
  induction s using token_induction with
  | nil => exact List.forall_mem_nil _
  | token s hs ih =>
    rw [lex_of_ne_nil hs, List.forall_mem_cons]
    refine ⟨fun hkind => ?_, ih⟩
    obtain ⟨t, rfl, hlen⟩ := token_semicolon hkind
    rw [hlen]
    rfl

/-- A text without a semicolon has no semicolon token. -/
theorem not_semicolon_of_not_mem {s : List UInt8} (h : 0x3B ∉ s) :
    ∀ t ∈ lex s, t.1 ≠ .semicolon := by
  intro t ht hkind
  apply h
  rw [← textOf_lex s, mem_textOf]
  exact ⟨t, ht, by rw [eq_of_semicolon t ht hkind]; exact List.mem_singleton_self _⟩

/-- A text without a semicolon is one statement. -/
theorem statements_of_not_mem {s : List UInt8} (h : 0x3B ∉ s) : statements s = [lex s] := by
  rw [statements, List.splitOnP_eq_singleton]
  intro t ht
  simpa using not_semicolon_of_not_mem h t ht

/-- Skip white space and comments, and take words. -/
def reading : Reading UInt8 where
  gap s := if (token s).1.blank then (token s).2 else 0
  word s := if (token s).1 = .word then (token s).2 else 0
  next s := if (token s).1 = .word then (token s).2 else 0
  gap_nil := rfl
  word_nil := rfl
  next_ne_zero h := h

/-- A blank token is a piece to skip. -/
theorem gap_of_blank {s : List UInt8} (h : (token s).1.blank = true) : reading.gap s = (token s).2 :=
  if_pos h

theorem gap_of_not_blank {s : List UInt8} (h : (token s).1.blank = false) : reading.gap s = 0 :=
  if_neg (by simp [h])

/-- Where a piece is skipped, a blank token is in front. -/
theorem blank_of_gap {s : List UInt8} (h : reading.gap s ≠ 0) :
    s ≠ [] ∧ (token s).1.blank = true ∧ reading.gap s = (token s).2 := by
  cases hblank : (token s).1.blank with
  | false => exact absurd (gap_of_not_blank hblank) h
  | true =>
    refine ⟨?_, rfl, gap_of_blank hblank⟩
    rintro rfl
    cases hblank

/-- Skipping blank tokens leaves the significant tokens. -/
theorem significant_lex_skip (s : List UInt8) :
    significant (lex (reading.skip s)) = significant (lex s) := by
  induction s using Reading.gap_induction reading with
  | stop s h => rw [Reading.skip_of_gap_eq_zero h]
  | piece s h ih =>
    obtain ⟨hs, hblank, hgap⟩ := blank_of_gap h
    rw [Reading.skip_of_gap h, ih, hgap, lex_of_ne_nil hs, significant, significant,
      List.filter_cons_of_neg (by simp [hblank])]

/-- The token behind the blank ones is significant. -/
theorem blank_token_skip (s : List UInt8) : (token (reading.skip s)).1.blank = false := by
  have hgap : reading.gap (reading.skip s) = 0 := Reading.gap_skip s
  by_cases hs : reading.skip s = []
  · rw [hs]
    rfl
  · have hpos := token_pos hs
    by_contra hblank
    rw [Bool.not_eq_false] at hblank
    rw [gap_of_blank hblank] at hgap
    omega

/-- The first keyword of a text is its first word, if a word is in front behind blank tokens. -/
theorem keyword_lex (s : List UInt8) : keyword (lex s) =
    if (token (reading.skip s)).1 = .word then
      some (lower ((reading.skip s).take (token (reading.skip s)).2))
    else none := by
  have hblank := blank_token_skip s
  rw [keyword, ← significant_lex_skip]
  by_cases hs : reading.skip s = []
  · rw [hs]
    rfl
  · rw [lex_of_ne_nil hs, significant, List.filter_cons_of_pos (by simp [hblank])]
    cases hkind : (token (reading.skip s)).1 <;> rfl

/-- A keyword is the first significant token. -/
theorem exists_of_keyword {ts : List Token} {word : List UInt8} (h : keyword ts = some word) :
    ∃ w rest, significant ts = (.word, w) :: rest ∧ lower w = word := by
  rw [keyword] at h
  split at h
  · rename_i w rest hfirst
    exact ⟨w, rest, hfirst, Option.some.inj h⟩
  · cases h

/-- White space, by the number of the byte. -/
theorem isSpace_iff_toNat {b : UInt8} :
    isSpace b = true ↔ b.toNat = 0x20 ∨ 0x09 ≤ b.toNat ∧ b.toNat ≤ 0x0D := by
  simp [isSpace, UInt8.le_iff_toNat_le, ← UInt8.toNat_inj]

/-- The bytes that start a word, by their numbers. -/
theorem startsWord_iff_toNat {b : UInt8} : startsWord b = true ↔ 0x41 ≤ b.toNat ∧ b.toNat ≤ 0x5A ∨
    0x61 ≤ b.toNat ∧ b.toNat ≤ 0x7A ∨ b.toNat = 0x5F ∨ 0x80 ≤ b.toNat := by
  simp [startsWord, UInt8.le_iff_toNat_le, ← UInt8.toNat_inj, or_assoc]

/-- The bytes that continue a word, by their numbers. -/
theorem continuesWord_iff_toNat {b : UInt8} : continuesWord b = true ↔
    startsWord b = true ∨ 0x30 ≤ b.toNat ∧ b.toNat ≤ 0x39 ∨ b.toNat = 0x24 := by
  simp [continuesWord, continuesTag, UInt8.le_iff_toNat_le, ← UInt8.toNat_inj, or_assoc]

/-- The number of a byte in lower case. -/
theorem toNat_lowerByte (b : UInt8) : (lowerByte b).toNat =
    if 0x41 ≤ b.toNat ∧ b.toNat ≤ 0x5A then b.toNat + 0x20 else b.toNat := by
  have hupper : 0x41 ≤ b ∧ b ≤ 0x5A ↔ 0x41 ≤ b.toNat ∧ b.toNat ≤ 0x5A := by
    rw [UInt8.le_iff_toNat_le, UInt8.le_iff_toNat_le]
    rfl
  unfold lowerByte
  split_ifs with h hnat hnat
  · rw [UInt8.toNat_add]
    exact Nat.mod_eq_of_lt (show b.toNat + 0x20 < 256 by omega)
  · exact absurd (hupper.mp h) hnat
  · exact absurd (hupper.mpr hnat) h
  · rfl

/-- The bytes that start a word start nothing else. -/
theorem startsWord_ne {b : UInt8} (h : startsWord b = true) :
    isSpace b = false ∧ b ≠ 0x2D ∧ b ≠ 0x2F ∧ b ≠ 0x27 ∧ b ≠ 0x22 := by
  have hspace : ¬isSpace b = true := by
    rw [isSpace_iff_toNat]
    rw [startsWord_iff_toNat] at h
    omega
  have hne {c : UInt8} (hc : startsWord c = false) : b ≠ c := by
    intro hbc
    rw [hbc, hc] at h
    cases h
  exact ⟨Bool.not_eq_true _ ▸ hspace, hne (by decide), hne (by decide), hne (by decide),
    hne (by decide)⟩

theorem continuesWord_of_startsWord {b : UInt8} (h : startsWord b = true) : continuesWord b = true := by
  rw [continuesWord, continuesTag, h]
  rfl

/-- A word in front of a text, unless it starts an escape string. -/
theorem token_word {b : UInt8} {s : List UInt8} (hb : startsWord b = true)
    (hs : (b = 0x45 ∨ b = 0x65) → s.head? ≠ some 0x27) :
    token (b :: s) = (.word, (s.takeWhile continuesWord).length + 1) := by
  obtain ⟨hspace, hdash, hslash, hquote, hdouble⟩ := startsWord_ne hb
  rw [token, if_neg (by simp [hspace]), if_neg (fun h => hdash h.1), if_neg (fun h => hslash h.1),
    if_neg (fun h => h.elim hquote hdouble), if_neg (fun h => hs h.1 h.2), if_pos hb]

/-- A word ends in front of a byte that does not continue it. -/
theorem continuesWord_of_word {s : List UInt8} (h : (token s).1 = .word) {b : UInt8} {t : List UInt8}
    (hrest : s.drop (token s).2 = b :: t) : continuesWord b = false := by
  have hfront := front_of_kind (s := s) (by rw [h]; decide)
  generalize token s = front at hfront h hrest
  cases hfront with
  | word starts =>
    rename_i c s
    have hdrop : s.drop (s.takeWhile continuesWord).length = s.dropWhile continuesWord :=
      calc s.drop (s.takeWhile continuesWord).length
        _ = (s.takeWhile continuesWord ++ s.dropWhile continuesWord).drop
              (s.takeWhile continuesWord).length := by rw [List.takeWhile_append_dropWhile]
        _ = s.dropWhile continuesWord := List.drop_left
    rw [List.drop_succ_cons, hdrop] at hrest
    have hstop := List.head?_dropWhile_not continuesWord s
    rwa [hrest] at hstop
  | space | line | block | quote | semicolon | other => cases h

/-- A space in front of a text. -/
theorem token_space {b : UInt8} (hb : isSpace b = true) (s : List UInt8) :
    token (b :: s) = (.space, 1) := by
  rw [token, if_pos hb]

/-- A line comment in front of a text. -/
theorem token_line (s : List UInt8) :
    token (0x2D :: 0x2D :: s) = (.comment, lineLength s + 2) := by
  rw [token, if_neg (by decide), if_pos ⟨rfl, rfl⟩, List.tail_cons]

/-- A block comment in front of a text. -/
theorem token_block (s : List UInt8) :
    token (0x2F :: 0x2A :: s) = (.comment, blockLength 0 s + 2) := by
  rw [token, if_neg (by decide), if_neg (fun h => absurd h.1 (by decide)), if_pos ⟨rfl, rfl⟩,
    List.tail_cons]

/-- What is in front of a text if its first token is blank. -/
theorem blank_cases {s : List UInt8} (h : (token s).1.blank = true) :
    (∃ b t, s = b :: t ∧ isSpace b = true) ∨ (∃ t, s = 0x2D :: 0x2D :: t) ∨
      ∃ t, s = 0x2F :: 0x2A :: t := by
  have hkind : (token s).1 ≠ .other := by
    intro hother
    rw [hother] at h
    cases h
  have hfront := front_of_kind hkind
  generalize token s = front at hfront h
  cases hfront with
  | space blank => exact .inl ⟨_, _, rfl, blank⟩
  | line => exact .inr (.inl ⟨_, rfl⟩)
  | block => exact .inr (.inr ⟨_, rfl⟩)
  | quote | word | semicolon | other => cases h

/-- The tokens of the first statement. -/
def firstStatement (s : List UInt8) : List Token := (lex s).takeWhile fun t => t.1 != .semicolon

/-- Splitting gives what is in front of the first separator first. -/
theorem head_splitOnP {α : Type*} (p : α → Bool) (l : List α) :
    (l.splitOnP p).head? = some (l.takeWhile fun x => !p x) := by
  induction l with
  | nil => rfl
  | cons x l ih =>
    rw [List.splitOnP_cons_eq_if_modifyHead]
    cases hx : p x with
    | true =>
      rw [if_pos rfl, List.takeWhile_cons_of_neg (by simp [hx])]
      rfl
    | false =>
      rw [if_neg Bool.false_ne_true, List.takeWhile_cons_of_pos (by simp [hx]), List.head?_modifyHead,
        ih]
      rfl

/-- What lies between separators stands in the list and has none. -/
theorem mem_splitOnP {α : Type*} {p : α → Bool} {l part : List α} (h : part ∈ l.splitOnP p) :
    (∃ front back, l = front ++ (part ++ back)) ∧ ∀ x ∈ part, p x = false := by
  induction l generalizing part with
  | nil =>
    obtain rfl := List.mem_singleton.mp h
    exact ⟨⟨[], [], rfl⟩, List.forall_mem_nil _⟩
  | cons x l ih =>
    rw [List.splitOnP_cons_eq_if_modifyHead] at h
    cases hx : p x with
    | true =>
      rw [hx, if_pos rfl] at h
      obtain rfl | h := List.mem_cons.mp h
      · exact ⟨⟨[], x :: l, rfl⟩, List.forall_mem_nil _⟩
      · obtain ⟨⟨front, back, rfl⟩, hnone⟩ := ih h
        exact ⟨⟨x :: front, back, rfl⟩, hnone⟩
    | false =>
      obtain ⟨first, parts, hparts⟩ := List.exists_cons_of_ne_nil (List.splitOnP_ne_nil p l)
      rw [hx, if_neg Bool.false_ne_true, hparts, List.modifyHead_cons] at h
      rw [hparts] at ih
      obtain rfl | h := List.mem_cons.mp h
      · obtain ⟨-, hnone⟩ := ih List.mem_cons_self
        have hfirst := head_splitOnP p l
        rw [hparts, List.head?_cons, Option.some.injEq] at hfirst
        refine ⟨⟨[], l.dropWhile fun x => !p x, ?_⟩, List.forall_mem_cons.mpr ⟨hx, hnone⟩⟩
        rw [List.nil_append, List.cons_append, hfirst, List.takeWhile_append_dropWhile]
      · obtain ⟨⟨front, back, rfl⟩, hnone⟩ := ih (List.mem_cons_of_mem _ h)
        exact ⟨⟨x :: front, back, rfl⟩, hnone⟩

/-- A statement stands among the tokens of its text and has no semicolon. -/
theorem mem_statements {s : List UInt8} {stmt : List Token} (h : stmt ∈ statements s) :
    (∃ front back, lex s = front ++ (stmt ++ back)) ∧ ∀ t ∈ stmt, t.1 ≠ .semicolon := by
  obtain ⟨hlex, hnone⟩ := mem_splitOnP h
  refine ⟨hlex, fun t ht hkind => ?_⟩
  have hfalse := hnone t ht
  rw [hkind] at hfalse
  cases hfalse

/-- A text that starts with a letter starts with a word, which has all the bytes that continue one. -/
theorem lex_of_startsWord {b : UInt8} {s : List UInt8} (hb : startsWord b = true)
    (hs : (b = 0x45 ∨ b = 0x65) → s.head? ≠ some 0x27) :
    ∃ rest, lex (b :: s) = (.word, (b :: s).takeWhile continuesWord) :: rest := by
  have hcontinues := continuesWord_of_startsWord hb
  refine ⟨lex ((b :: s).drop ((s.takeWhile continuesWord).length + 1)), ?_⟩
  have hfront := List.takeWhile_prefix continuesWord (l := s)
  rw [lex_of_ne_nil (List.cons_ne_nil b s), token_word hb hs, List.takeWhile_cons_of_pos hcontinues,
    List.take_succ_cons, ← List.prefix_iff_eq_take.mp hfront]

/-- What a token of a text is, and what its bytes are. -/
inductive Shape : Token → List UInt8 → Prop where
  | space {b : UInt8} {rest : List UInt8} (blank : isSpace b = true) : Shape (.space, [b]) rest
  | comment {b : UInt8} {s rest : List UInt8} (opens : b = 0x2D ∨ b = 0x2F) :
      Shape (.comment, b :: s) rest
  | quote {b : UInt8} {s rest : List UInt8} (opens : b ∈ [0x27, 0x22, 0x45, 0x65, 0x24]) :
      Shape (.quote, b :: s) rest
  | word {b : UInt8} {s rest : List UInt8} (starts : startsWord b = true)
      (continues : ∀ c ∈ b :: s, continuesWord c = true)
      (ends : ∀ c ∈ rest.head?, continuesWord c = false) : Shape (.word, b :: s) rest
  | semicolon {rest : List UInt8} : Shape (.semicolon, [0x3B]) rest
  | other {b : UInt8} {rest : List UInt8} (separates : b ≠ 0x3B) (starts : startsWord b = false)
      (line : b = 0x2D → rest.head? ≠ some 0x2D) (block : b = 0x2F → rest.head? ≠ some 0x2A) :
      Shape (.other, [b]) rest

/-- The shape of a token is the same in a shorter text. -/
theorem Shape.of_append {t : Token} {rest more : List UInt8} (h : Shape t (rest ++ more)) :
    Shape t rest := by
  have hhead {c : UInt8} (hc : rest.head? = some c) : (rest ++ more).head? = some c := by
    rw [List.head?_append, hc, Option.some_or]
  cases h with
  | space blank => exact .space blank
  | comment opens => exact .comment opens
  | quote opens => exact .quote opens
  | word starts continues ends => exact .word starts continues fun c hc => ends c (hhead hc)
  | semicolon => exact .semicolon
  | other separates starts line block =>
    exact .other separates starts (fun hb hc => line hb (hhead hc)) fun hb hc => block hb (hhead hc)

/-- The token in front of a text has one of these shapes. -/
theorem shape_token {s : List UInt8} (hs : s ≠ []) :
    Shape ((token s).1, s.take (token s).2) (s.drop (token s).2) := by
  have hends {c : UInt8} {t : List UInt8} (h : (token s).1 = .word) :=
    continuesWord_of_word h (b := c) (t := t)
  have hopener {t : List UInt8} (h : s = 0x2D :: 0x2D :: t ∨ s = 0x2F :: 0x2A :: t) :
      (token s).1 = .comment := by
    obtain rfl | rfl := h
    · rw [token_line]
    · rw [token_block]
  have hfront := front_token hs
  generalize token s = front at hfront hends hopener
  cases hfront with
  | space blank => exact .space blank
  | line => exact .comment (.inl rfl)
  | block => exact .comment (.inr rfl)
  | quote opens => exact .quote opens
  | semicolon => exact .semicolon
  | word starts =>
    rename_i b s
    have htake : (b :: s).take ((s.takeWhile continuesWord).length + 1) = b :: s.takeWhile continuesWord := by
      rw [List.take_succ_cons, ← List.prefix_iff_eq_take.mp (List.takeWhile_prefix continuesWord)]
    rw [htake]
    refine .word starts ?_ ?_
    · rw [List.forall_mem_cons]
      exact ⟨continuesWord_of_startsWord starts, fun c hc => List.all_eq_true.mp List.all_takeWhile c hc⟩
    · intro c hc
      obtain ⟨t, ht⟩ := List.head?_eq_some_iff.mp hc
      exact hends rfl ht
  | other separates starts =>
    rename_i b s
    refine .other separates starts ?_ ?_
    · rintro rfl hhead
      obtain ⟨t, rfl⟩ := List.head?_eq_some_iff.mp hhead
      cases hopener (.inl rfl)
    · rintro rfl hhead
      obtain ⟨t, rfl⟩ := List.head?_eq_some_iff.mp hhead
      cases hopener (.inr rfl)

/-- So has every token of a text, with what follows it. -/
theorem shape_of_lex {s : List UInt8} {front back : List Token} {t : Token}
    (h : lex s = front ++ t :: back) : Shape t (textOf back) := by
  have hlex := lex_textOf h
  have hs := (eq_token h).1
  rw [lex_of_ne_nil hs] at hlex
  obtain ⟨hfirst, hrest⟩ := List.cons_eq_cons.mp hlex
  have hshape := shape_token hs
  rwa [hfirst, ← textOf_lex (List.drop _ _), hrest] at hshape

/-- A semicolon stands in a token of another kind only behind the byte that opens quotes or a comment. -/
theorem Shape.opens_of_semicolon {t : Token} {rest : List UInt8} (h : Shape t rest)
    (hkind : t.1 ≠ .semicolon) (hmem : 0x3B ∈ t.2) : (t.1 = .quote ∨ t.1 = .comment) ∧
      ∃ b s, t.2 = b :: s ∧ b ∈ [0x2D, 0x2F, 0x27, 0x22, 0x45, 0x65, 0x24] := by
  cases h with
  | space blank =>
    rw [← List.mem_singleton.mp hmem] at blank
    exact absurd blank (by decide)
  | comment opens =>
    refine ⟨.inr rfl, _, _, rfl, ?_⟩
    obtain rfl | rfl := opens <;> decide
  | quote opens =>
    exact ⟨.inl rfl, _, _, rfl, List.mem_cons_of_mem _ (List.mem_cons_of_mem _ opens)⟩
  | word _ continues _ => exact absurd (continues _ hmem) (by decide)
  | semicolon => exact absurd rfl hkind
  | other separates => exact absurd (List.mem_singleton.mp hmem).symm separates

/-- There is none in a token that is neither quoted text nor a comment. -/
theorem Shape.semicolon_not_mem {t : Token} {rest : List UInt8} (h : Shape t rest)
    (hkind : t.1 ≠ .semicolon) (hquote : t.1 ≠ .quote) (hcomment : t.1 ≠ .comment) : 0x3B ∉ t.2 := by
  intro hmem
  obtain ⟨hkind, -⟩ := h.opens_of_semicolon hkind hmem
  exact hkind.elim hquote hcomment

/-- The first of the statements of a text. -/
theorem head_statements (s : List UInt8) : (statements s).head? = some (firstStatement s) :=
  head_splitOnP _ (lex s)

/-- The first statement is followed by a semicolon, or by nothing. -/
theorem exists_firstStatement (s : List UInt8) :
    ∃ rest, s = textOf (firstStatement s) ++ rest ∧ (rest = [] ∨ ∃ t, rest = 0x3B :: t) := by
  refine ⟨textOf ((lex s).dropWhile fun t => t.1 != .semicolon), ?_, ?_⟩
  · rw [firstStatement, ← textOf_append, List.takeWhile_append_dropWhile, textOf_lex]
  · have hstop := List.head?_dropWhile_not (fun t : Token => t.1 != .semicolon) (lex s)
    have hsuffix := List.dropWhile_suffix (fun t : Token => t.1 != .semicolon) (l := lex s)
    generalize (lex s).dropWhile (fun t => t.1 != .semicolon) = rest at hstop hsuffix
    cases rest with
    | nil => exact .inl rfl
    | cons t rest =>
      have hkind : t.1 = .semicolon := by simpa using hstop
      have htext := eq_of_semicolon t (hsuffix.subset List.mem_cons_self) hkind
      exact .inr ⟨textOf rest, by rw [textOf_cons, htext]; rfl⟩

/-- The first statement has the token in front of the text, unless that is a semicolon. -/
theorem firstStatement_of_ne_nil {s : List UInt8} (hs : s ≠ []) (hkind : (token s).1 ≠ .semicolon) :
    firstStatement s = ((token s).1, s.take (token s).2) :: firstStatement (s.drop (token s).2) := by
  rw [firstStatement, lex_of_ne_nil hs, List.takeWhile_cons_of_pos (by simp [hkind])]
  rfl

/-- The first statement reaches beyond the blank tokens in front, if there is anything but a
semicolon. -/
theorem lead_lt_firstStatement {s : List UInt8} (hne : reading.skip s ≠ [])
    (hkind : (token (reading.skip s)).1 ≠ .semicolon) :
    reading.lead s < (textOf (firstStatement s)).length ∧ significant (firstStatement s) ≠ [] := by
  induction s using Reading.gap_induction reading with
  | stop s h =>
    have hblank := blank_token_skip s
    rw [Reading.skip_of_gap_eq_zero h] at hne hkind hblank
    have hpos := token_pos hne
    have hlen := List.length_pos_of_ne_nil hne
    rw [Reading.lead, Reading.skip_of_gap_eq_zero h, Nat.sub_self, firstStatement_of_ne_nil hne hkind,
      significant, List.filter_cons_of_pos (by simp [hblank]), textOf_cons,
      List.length_append, List.length_take]
    exact ⟨by omega, List.cons_ne_nil _ _⟩
  | piece s h ih =>
    obtain ⟨hs, hblank, hgap⟩ := blank_of_gap h
    rw [Reading.skip_of_gap h] at hne hkind
    obtain ⟨hlead, hsignificant⟩ := ih hne hkind
    have hle : reading.gap s ≤ s.length := by
      by_contra hover
      rw [List.drop_eq_nil_of_le (by omega), Reading.skip_nil] at hne
      exact hne rfl
    have hkind' : (token s).1 ≠ .semicolon := by
      intro hsemicolon
      rw [hsemicolon] at hblank
      cases hblank
    rw [Reading.lead_of_gap h hle, firstStatement_of_ne_nil hs hkind', significant,
      List.filter_cons_of_neg (by simp [hblank]), textOf_cons, List.length_append,
      List.length_take, ← hgap, Nat.min_eq_left hle]
    exact ⟨Nat.add_lt_add_left hlead _, hsignificant⟩

end Sql.Postgres
