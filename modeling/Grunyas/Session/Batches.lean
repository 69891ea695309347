import Grunyas.Go.Runes
import Grunyas.Session.Loop
import Grunyas.Sql.Postgres

/-!
# Transaction commands in front of other statements

The session takes a text for a lone `BEGIN`, `COMMIT` or `ROLLBACK` if its trimmed lower case is
the command, or begins with the command and a blank. The second test lets options follow, and
anything else: a batch of statements passes it whenever a blank stands behind its first word.
-/

namespace Grunyas.Server

open GoText Grunyas.Messaging
open Sql.Postgres (Token statements significant)

/-- The statements of a text that have any token besides white space and comments. -/
def nonEmptyStatements (sql : Text) : List (List Token) :=
  (statements sql).filter fun ts => significant ts != []

/-- The commands the session recognises. -/
def transactionCommands : List Text :=
  [text "begin", text "start transaction", text "commit", text "rollback"]

/-- The text starts with the command, in any letter case, and a blank, behind white space at most. -/
def OpensWith (command sql : Text) : Prop :=
  ∃ left word rest, runes sql = left ++ word ++ 0x20 :: rest ∧ (∀ r ∈ left, isSpace r = true) ∧
    word.map lowerRune = command.map UInt8.toNat

/-- The two tests the session makes of a text for a command. -/
def recognises (command sql : Text) : Bool :=
  trimSpace (toLower sql) == command || hasPrefix (trimSpace (toLower sql)) (command ++ text " ")

theorem isTransactionStart_eq (sql : Text) : isTransactionStart sql =
    (recognises (text "begin") sql || recognises (text "start transaction") sql) := by
  rw [recognises, recognises, show text "begin" ++ text " " = text "begin " by decide,
    show text "start transaction" ++ text " " = text "start transaction " by decide, ← Bool.or_assoc]
  rfl

theorem isCommit_eq (sql : Text) : isCommit sql = recognises (text "commit") sql := by
  rw [recognises, show text "commit" ++ text " " = text "commit " by decide]
  rfl

theorem isRollback_eq (sql : Text) : isRollback sql = recognises (text "rollback") sql := by
  rw [recognises, show text "rollback" ++ text " " = text "rollback " by decide]
  rfl

/-- The commands are ASCII texts without a semicolon, with a letter at either end. -/
theorem transactionCommands_plain : ∀ command ∈ transactionCommands,
    (∀ b ∈ command, b.toNat < 0x80 ∧ b ≠ 0x3B) ∧
    (∃ b ∈ command.head?, isSpace b.toNat = false) ∧
    ∃ b ∈ command.getLast?, isSpace b.toNat = false := by
  decide +kernel

/-- Trimming a list of runes: what is between the white space at its ends. -/
theorem exists_trim (rs : List ℕ) : ∃ left right, (∀ r ∈ left, isSpace r = true) ∧
    (∀ r ∈ right, isSpace r = true) ∧
    rs = left ++ (rs.dropWhile isSpace).rdropWhile isSpace ++ right := by
  refine ⟨rs.takeWhile isSpace, (rs.dropWhile isSpace).rtakeWhile isSpace,
    fun r hr => List.mem_takeWhile_imp hr, fun r hr => List.mem_rtakeWhile_imp hr, ?_⟩
  rw [List.append_assoc, List.rdropWhile_append_rtakeWhile, List.takeWhile_append_dropWhile]

/-- Nothing is trimmed but white space at the ends: what starts and ends with another rune stays,
with the white space at the far end trimmed. -/
theorem trim_append {left middle rest : List ℕ} (hleft : ∀ r ∈ left, isSpace r = true)
    (hfirst : ∃ r ∈ middle.head?, isSpace r = false) (hlast : ∃ r ∈ middle.getLast?, isSpace r = false) :
    ((left ++ middle ++ rest).dropWhile isSpace).rdropWhile isSpace =
      middle ++ rest.rdropWhile isSpace := by
  obtain ⟨first, hmem, hfirst⟩ := hfirst
  have hdrop : (left ++ middle ++ rest).dropWhile isSpace = middle ++ rest := by
    obtain ⟨tail, rfl⟩ : ∃ tail, middle = first :: tail := by
      cases middle with
      | nil => cases hmem
      | cons x tail => exact ⟨tail, by rw [Option.some.inj hmem]⟩
    rw [List.append_assoc, List.dropWhile_append_of_pos hleft, List.cons_append, List.dropWhile_cons,
      if_neg (by simp [hfirst])]
  rw [hdrop]
  clear hdrop
  induction rest using List.reverseRecOn with
  | nil =>
    obtain ⟨last, hmem, hlast⟩ := hlast
    rw [List.append_nil, List.rdropWhile_nil, List.append_nil, List.rdropWhile_eq_self_iff]
    intro hne
    rw [List.getLast?_eq_some_getLast hne] at hmem
    rw [Option.some.inj hmem]
    simp [hlast]
  | append_singleton rest r ih =>
    rw [← List.append_assoc, List.rdropWhile_concat, List.rdropWhile_concat]
    split_ifs
    · exact ih
    · rw [List.append_assoc]

/-- The runes of the trimmed lower case of a text. -/
theorem runes_trimSpace_toLower (sql : Text) : runes (trimSpace (toLower sql)) =
    (((runes sql).map lowerRune).dropWhile isSpace).rdropWhile isSpace := by
  rw [runes_trimSpace, runes_toLower]

theorem ascii_append_blank {s : Text} (hs : ∀ b ∈ s, b.toNat < 0x80) :
    ∀ b ∈ s ++ text " ", b.toNat < 0x80 := by
  have hblank : ∀ b ∈ text " ", b.toNat < 0x80 := show ∀ b ∈ [(0x20 : UInt8)], b.toNat < 0x80 by simp
  intro b hb
  exact (List.mem_append.mp hb).elim (hs b) (hblank b)

section Command

variable {command sql : Text} (hcommand : command ∈ transactionCommands)

include hcommand

/-- A text recognised for a command starts with it, and then has nothing but white space or goes on
with a blank. -/
theorem exists_of_recognises (h : recognises command sql = true) :
    ∃ left word rest, runes sql = left ++ word ++ rest ∧ (∀ r ∈ left, isSpace r = true) ∧
      word.map lowerRune = command.map UInt8.toNat ∧
      ((∀ r ∈ rest, isSpace r = true) ∨ ∃ more, rest = 0x20 :: more) := by
  obtain ⟨hplain, -⟩ := transactionCommands_plain command hcommand
  have hascii : ∀ b ∈ command, b.toNat < 0x80 := fun b hb => (hplain b hb).1
  have hblank := ascii_append_blank hascii
  obtain ⟨left, right, hleft, hright, heq⟩ := exists_trim ((runes sql).map lowerRune)
  rw [← runes_trimSpace_toLower] at heq
  have htail : ∃ tail, runes (trimSpace (toLower sql)) = command.map UInt8.toNat ++ tail ∧
      (tail = [] ∨ ∃ more, tail = 0x20 :: more) := by
    rw [recognises, Bool.or_eq_true, beq_iff_eq, eq_iff_runes hascii, hasPrefix_iff_runes hblank,
      List.map_append] at h
    obtain h | ⟨more, h⟩ := h
    · exact ⟨[], by rw [h, List.append_nil], .inl rfl⟩
    · refine ⟨0x20 :: more, ?_, .inr ⟨more, rfl⟩⟩
      rw [← h, List.append_assoc]
      rfl
  obtain ⟨tail, htail, hcases⟩ := htail
  rw [htail, List.append_assoc, List.append_assoc] at heq
  -- pull the parts back through the lower-casing
  obtain ⟨left', others, hruns, rfl, hothers⟩ := List.map_eq_append_iff.mp heq
  obtain ⟨word, rest, rfl, hword, hrest⟩ := List.map_eq_append_iff.mp hothers
  refine ⟨left', word, rest, by rw [hruns, List.append_assoc], ?_, hword, ?_⟩
  · intro r hr
    rw [← isSpace_lowerRune]
    exact hleft _ (List.mem_map_of_mem hr)
  · obtain rfl | ⟨more, rfl⟩ := hcases
    · left
      intro r hr
      rw [List.nil_append] at hrest
      rw [← isSpace_lowerRune]
      exact hright _ (hrest ▸ List.mem_map_of_mem hr)
    · right
      cases rest with
      | nil => cases hrest
      | cons r rest =>
        have hr : lowerRune r = 0x20 := (List.cons_eq_cons.mp hrest).1
        have hsame : lowerRune r = r := eq_of_isSpace_lowerRune (by rw [hr]; decide)
        exact ⟨rest, by rw [← hsame, hr]⟩

/-- A text that starts with a command and a blank is recognised for it, whatever follows. -/
theorem recognises_of_opensWith (h : OpensWith command sql) : recognises command sql = true := by
  obtain ⟨hplain, hfirst, hlast⟩ := transactionCommands_plain command hcommand
  obtain ⟨left, word, rest, hruns, hleft, hword⟩ := h
  have hascii : ∀ b ∈ command, b.toNat < 0x80 := fun b hb => (hplain b hb).1
  have hleft' : ∀ r ∈ left.map lowerRune, isSpace r = true := by
    intro r hr
    obtain ⟨x, hx, rfl⟩ := List.mem_map.mp hr
    rw [isSpace_lowerRune]
    exact hleft x hx
  have htrim : runes (trimSpace (toLower sql)) = command.map UInt8.toNat ++
      (0x20 :: rest.map lowerRune).rdropWhile isSpace := by
    have hblank : lowerRune 0x20 = 0x20 := by decide
    rw [runes_trimSpace_toLower, hruns, List.map_append, List.map_append, List.map_cons, hword, hblank]
    exact trim_append hleft' (by simpa using hfirst) (by simpa using hlast)
  rw [recognises, Bool.or_eq_true, beq_iff_eq, eq_iff_runes hascii]
  cases htail : (0x20 :: rest.map lowerRune).rdropWhile isSpace with
  | nil =>
    left
    rw [htrim, htail, List.append_nil]
  | cons r more =>
    right
    have hstarts := List.rdropWhile_prefix isSpace (0x20 :: rest.map lowerRune)
    rw [htail, List.cons_prefix_cons] at hstarts
    rw [hasPrefix_iff_runes (ascii_append_blank hascii), htrim, htail, hstarts.1, List.map_append]
    exact ⟨more, by rw [List.append_assoc]; rfl⟩

/-- A text of nothing but a command has no semicolon. -/
theorem semicolon_not_mem {left word rest : List ℕ} (hruns : runes sql = left ++ word ++ rest)
    (hleft : ∀ r ∈ left, isSpace r = true) (hword : word.map lowerRune = command.map UInt8.toNat)
    (hrest : ∀ r ∈ rest, isSpace r = true) : 0x3B ∉ sql := by
  intro hmem
  obtain ⟨hplain, -⟩ := transactionCommands_plain command hcommand
  have hrune := toNat_mem_runes (show (0x3B : UInt8).toNat < 0x80 by decide) hmem
  have hspace : isSpace (0x3B : UInt8).toNat = false := by decide
  rw [hruns, List.mem_append, List.mem_append] at hrune
  obtain (hr | hr) | hr := hrune
  · rw [hleft _ hr] at hspace
    cases hspace
  · have hlower : lowerRune (0x3B : UInt8).toNat ∈ command.map UInt8.toNat :=
      hword ▸ List.mem_map_of_mem hr
    obtain ⟨b, hb, heq⟩ := List.mem_map.mp hlower
    exact (hplain b hb).2 (UInt8.toNat_inj.mp (heq.trans (by decide)))
  · rw [hrest _ hr] at hspace
    cases hspace

/-- A batch is recognised for a command exactly if it starts with the command and a blank. -/
theorem recognises_iff (hbatch : 1 < (nonEmptyStatements sql).length) :
    recognises command sql = true ↔ OpensWith command sql := by
  refine ⟨fun h => ?_, recognises_of_opensWith hcommand⟩
  obtain ⟨left, word, rest, hruns, hleft, hword, hrest | ⟨more, rfl⟩⟩ := exists_of_recognises hcommand h
  · have hone := Sql.Postgres.statements_of_not_mem
      (semicolon_not_mem hcommand hruns hleft hword hrest)
    have hle : (nonEmptyStatements sql).length ≤ 1 := by
      rw [nonEmptyStatements, hone]
      exact List.length_filter_le _ _
    omega
  · exact ⟨left, word, more, hruns, hleft, hword⟩

end Command

/-- A batch of several statements is taken for no transaction command exactly if it does not start
with one of the commands and a blank. -/
theorem batch_not_command_iff (sql : Text) (hbatch : 1 < (nonEmptyStatements sql).length) :
    (isTransactionStart sql = false ∧ isCommit sql = false ∧ isRollback sql = false) ↔
      ∀ command ∈ transactionCommands, ¬ OpensWith command sql := by
  have hiff : ∀ command ∈ transactionCommands,
      (recognises command sql = false ↔ ¬ OpensWith command sql) := by
    intro command hcommand
    rw [← recognises_iff hcommand hbatch, Bool.not_eq_true]
  rw [isTransactionStart_eq, isCommit_eq, isRollback_eq, Bool.or_eq_false_iff]
  simp only [transactionCommands, List.forall_mem_cons] at hiff ⊢
  rw [hiff.1, hiff.2.1, hiff.2.2.1, hiff.2.2.2.1, and_assoc, and_iff_left (List.forall_mem_nil _)]

/-- A transaction in one batch, with a blank in front of the first semicolon. -/
def spacedBatch : Text := text "BEGIN ; DELETE FROM t; COMMIT"

/-- The condition is met by a batch without the blank. -/
theorem batch_not_command_iff_begin :
    isTransactionStart (text "BEGIN; DELETE FROM t; COMMIT") = false ∧
      ∀ command ∈ transactionCommands, ¬ OpensWith command (text "BEGIN; DELETE FROM t; COMMIT") := by
  have h : isTransactionStart (text "BEGIN; DELETE FROM t; COMMIT") = false ∧
      isCommit (text "BEGIN; DELETE FROM t; COMMIT") = false ∧
      isRollback (text "BEGIN; DELETE FROM t; COMMIT") = false := by decide
  exact ⟨h.1, (batch_not_command_iff _ (by decide)).mp h⟩

/-- The batch holds three statements and is taken for a lone `BEGIN`: a compat session without a
buffered `BEGIN` retains it, answers in the upstream's place and runs nothing of it. -/
theorem spaced_batch_buffered : (nonEmptyStatements spacedBatch).length = 3 ∧
    isTransactionStart spacedBatch = true ∧
    ∀ s : Session, s.port = .compat → s.pendingBegin = none →
      buffersBegin s (.query spacedBatch) = true := by
  have hstart : isTransactionStart spacedBatch = true := by decide
  refine ⟨by decide, hstart, fun s hport hpending => ?_⟩
  rw [buffersBegin, hport, hstart, hpending]
  rfl

end Grunyas.Server
