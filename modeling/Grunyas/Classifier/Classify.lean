import Grunyas.Server.Types

/-!
# The statement classifier

Whether a statement is a read or a write is decided by the port, the transaction state, a cache
of prepared statements and, last, the first keyword within the first 64 bytes of the text. The
scanner's loops drop at least one byte on every turn; each is a recursion on a bound that the
length of its text always suffices for.
-/

namespace Grunyas.Classifier

open GoText Grunyas.Server

/-- The traffic type; `empty` is the zero value of Go's string type. -/
inductive Kind where
  | empty
  | read
  | write
  | unknown
  deriving DecidableEq, Repr

/-- How a classification was derived. -/
inductive Source where
  | port
  | transactionState
  | keyword
  | default
  deriving DecidableEq, Repr

/-- The result of classifying a statement. -/
structure Class where
  kind : Kind
  source : Source
  deriving DecidableEq, Repr

/-- The transaction state of a session. -/
inductive TxState where
  | idle
  | inTransactionRead
  | inTransactionWrite
  | inFailedTransaction
  deriving DecidableEq, Repr

/-- The cached classifications of prepared statements, most recent first. -/
abbrev Prepared := List (Text × Class)

/-- The state needed for classification; the cache is absent where the source passes none. -/
structure SessionState where
  port : Port
  txState : TxState
  prepared : Option Prepared
  deriving DecidableEq, Repr

/-- A statement to classify; the name is empty for the simple protocol. -/
structure Statement where
  name : Text
  sql : Text
  deriving DecidableEq, Repr

/-- The keywords that classify as read. -/
def readKeywords : List Text :=
  [text "select", text "show", text "explain", text "fetch", text "values"]

/-- The loop of `stripCommentsAndWhitespace`, bounded by its first argument. -/
def stripLoop : ℕ → Text → Text
  | 0, s => s
  | bound + 1, s =>
    let s := trimLeftFunc isSpace s
    if hasPrefix s (text "--") then
      match index (text "\n") s with
      | some i => stripLoop bound (s.drop (i + 1))
      | none => []
    else if hasPrefix s (text "/*") then
      match index (text "*/") s with
      | some i => stripLoop bound (s.drop (i + 2))
      | none => []
    else s

/-- Remove leading comments and white space. -/
def stripCommentsAndWhitespace (s : Text) : Text := stripLoop (s.length + 1) s

/-- The runes that end a keyword. -/
def endsKeyword (r : ℕ) : Bool := isSpace r || r == 0x28 || r == 0x3B

/-- The runes that end an option of a parenthesised list. -/
def endsOption (r : ℕ) : Bool := isSpace r || r == 0x2C || r == 0x28 || r == 0x29

/-- The loop of `tokenListContains`, bounded by its first argument. -/
def tokenListLoop (target : Text) : ℕ → Text → Bool
  | 0, _ => false
  | bound + 1, s =>
    if s = [] then false
    else if hasPrefix s (text ",") then
      tokenListLoop target bound (stripCommentsAndWhitespace (s.drop 1))
    else
      let i := (indexFunc endsOption s).getD s.length
      if i = 0 then false
      else if toLower (s.take i) = target then true
      else match index (text ",") s with
        | none => false
        | some comma => tokenListLoop target bound (stripCommentsAndWhitespace (s.drop (comma + 1)))

/-- Whether a comma-separated token list contains the target. -/
def tokenListContains (list target : Text) : Bool :=
  tokenListLoop target (list.length + 1) (stripCommentsAndWhitespace list)

/-- The number of bytes up to and including the parenthesis that closes the given depth. -/
def closingParen : ℕ → Text → Option ℕ
  | _, [] => none
  | depth, b :: s =>
    let depth := if b = 0x28 then depth + 1 else if b = 0x29 then depth - 1 else depth
    if depth = 0 then some 1 else (closingParen depth s).map (· + 1)

/-- The bare flags that may precede `ANALYZE`. -/
def bareFlags : List Text :=
  [text "verbose", text "costs", text "buffers", text "timing", text "summary", text "format",
   text "settings", text "wal"]

/-- The token loop of `explainHasAnalyze`, bounded by its first argument. -/
def bareFlagLoop : ℕ → Text → Bool
  | 0, _ => false
  | bound + 1, s =>
    let s := stripCommentsAndWhitespace s
    if s = [] then false
    else
      let i := (indexFunc endsKeyword s).getD s.length
      if i = 0 then false
      else
        let tok := toLower (s.take i)
        if tok = text "analyze" then true
        else if tok ∈ bareFlags then bareFlagLoop bound (s.drop i)
        else false

/-- Whether the text after `EXPLAIN` names the `ANALYZE` option. -/
def explainHasAnalyze (afterExplain : Text) : Bool :=
  let s := stripCommentsAndWhitespace afterExplain
  if hasPrefix s (text "(") then
    match closingParen 1 (s.drop 1) with
    | some k =>
      if tokenListContains ((s.drop 1).take (k - 1)) (text "analyze") then true
      else
        let rest := stripCommentsAndWhitespace (s.drop (1 + k))
        bareFlagLoop (rest.length + 1) rest
    | none => bareFlagLoop (s.length + 1) s
  else bareFlagLoop (s.length + 1) s

/-- The lower-cased first keyword and whether it begins an `EXPLAIN ANALYZE`. -/
def firstKeyword (sql : Text) : Text × Bool :=
  let s := stripCommentsAndWhitespace (sql.take 64)
  let i := (indexFunc endsKeyword s).getD s.length
  if i = 0 then ([], false)
  else
    let first := toLower (s.take i)
    if first = text "explain" then (text "explain", explainHasAnalyze (s.drop i)) else (first, false)

/-- Classify by the first keyword; the empty statement defaults to write. -/
def classifyByKeyword (sql : Text) : Class :=
  let keyword := firstKeyword sql
  if keyword.1 = [] then ⟨.write, .default⟩
  else if keyword.2 then ⟨.write, .keyword⟩
  else if keyword.1 ∈ readKeywords then ⟨.read, .keyword⟩
  else ⟨.write, .keyword⟩

/-- Classify a statement, returning the cache with a named statement's class added. -/
def classify (stmt : Statement) (sess : SessionState) : Class × Option Prepared :=
  if sess.port = .write then (⟨.write, .port⟩, sess.prepared)
  else if sess.txState = .inTransactionWrite then (⟨.write, .transactionState⟩, sess.prepared)
  else match sess.prepared with
    | none => (classifyByKeyword stmt.sql, none)
    | some cache =>
      if stmt.name = [] then (classifyByKeyword stmt.sql, some cache)
      else match cache.lookup stmt.name with
        | some cached => (cached, some cache)
        | none =>
          let result := classifyByKeyword stmt.sql
          (result, some ((stmt.name, result) :: cache))

/-- The text of a statement in decision events: white space collapsed, at most `maxLen` bytes. -/
def truncateSQL (sql : Text) (maxLen : ℕ) : Text :=
  ((text " ").intercalate (fields (replaceByte 0x0A 0x20 (trimSpace sql)))).take maxLen

/-- The bound of the loop over comments is immaterial. -/
theorem stripLoop_eq {bound : ℕ} {s : Text} (h : s.length < bound) :
    stripLoop bound s = stripCommentsAndWhitespace s :=
  loop_eq_of_length_lt (commentLoop_turn (length_trimLeftFunc_le isSpace) fun _ _ => rfl) h
    (Nat.lt_succ_self _)

/-- Removing comments and white space does not lengthen a text. -/
theorem length_stripCommentsAndWhitespace_le (s : Text) :
    (stripCommentsAndWhitespace s).length ≤ s.length := by
  suffices h : ∀ bound, ∀ s : Text, (stripLoop bound s).length ≤ s.length from h _ s
  intro bound
  induction bound with
  | zero => exact fun s => Nat.le_refl _
  | succ bound ih =>
    intro s
    have hle := length_trimLeftFunc_le isSpace s
    have hdrop (n : ℕ) : (stripLoop bound ((trimLeftFunc isSpace s).drop n)).length ≤ s.length := by
      have h := ih ((trimLeftFunc isSpace s).drop n)
      rw [List.length_drop] at h
      omega
    unfold stripLoop
    dsimp only
    split_ifs
    · split
      · exact hdrop _
      · exact Nat.zero_le _
    · split
      · exact hdrop _
      · exact Nat.zero_le _
    · exact hle

/-- The bound of the loop over an option list is immaterial. -/
theorem tokenListLoop_eq {target : Text} {first second : ℕ} {s : Text} (hfirst : s.length < first)
    (hsecond : s.length < second) : tokenListLoop target first s = tokenListLoop target second s := by
  refine loop_eq_of_length_lt (fun s => ?_) hfirst hsecond
  have hshorter (hs : s ≠ []) {n : ℕ} (hn : n ≠ 0) :
      (stripCommentsAndWhitespace (s.drop n)).length < s.length :=
    Nat.lt_of_le_of_lt (length_stripCommentsAndWhitespace_le _)
      (length_drop_lt hs (Nat.le_refl _) hn)
  by_cases hs : s = []
  · exact Or.inl ⟨false, fun bound => by rw [tokenListLoop, if_pos hs]⟩
  by_cases hsep : hasPrefix s (text ",") = true
  · refine Or.inr ⟨_, id, hshorter hs Nat.one_ne_zero, fun bound => ?_⟩
    rw [tokenListLoop, if_neg hs, if_pos hsep]
    rfl
  by_cases hstop : (indexFunc endsOption s).getD s.length = 0
  · exact Or.inl ⟨false, fun bound => by
      rw [tokenListLoop, if_neg hs, if_neg hsep, if_pos hstop]⟩
  by_cases htarget : toLower (s.take ((indexFunc endsOption s).getD s.length)) = target
  · exact Or.inl ⟨true, fun bound => by
      rw [tokenListLoop, if_neg hs, if_neg hsep, if_neg hstop, if_pos htarget]⟩
  cases hcomma : index (text ",") s with
  | none =>
    exact Or.inl ⟨false, fun bound => by
      rw [tokenListLoop, if_neg hs, if_neg hsep, if_neg hstop, if_neg htarget, hcomma]⟩
  | some comma =>
    refine Or.inr ⟨_, id, hshorter hs (Nat.succ_ne_zero comma), fun bound => ?_⟩
    rw [tokenListLoop, if_neg hs, if_neg hsep, if_neg hstop, if_neg htarget, hcomma]
    rfl

/-- The bound of the loop over the bare flags of an `EXPLAIN` is immaterial. -/
theorem bareFlagLoop_eq {first second : ℕ} {s : Text} (hfirst : s.length < first)
    (hsecond : s.length < second) : bareFlagLoop first s = bareFlagLoop second s := by
  refine loop_eq_of_length_lt (fun s => ?_) hfirst hsecond
  by_cases hs : stripCommentsAndWhitespace s = []
  · exact Or.inl ⟨false, fun bound => by rw [bareFlagLoop, if_pos hs]⟩
  by_cases hstop : (indexFunc endsKeyword (stripCommentsAndWhitespace s)).getD
      (stripCommentsAndWhitespace s).length = 0
  · exact Or.inl ⟨false, fun bound => by rw [bareFlagLoop, if_neg hs, if_pos hstop]⟩
  refine Or.inr ⟨_, fun rest => if toLower ((stripCommentsAndWhitespace s).take
      ((indexFunc endsKeyword (stripCommentsAndWhitespace s)).getD
        (stripCommentsAndWhitespace s).length)) = text "analyze" then true
    else if toLower ((stripCommentsAndWhitespace s).take
      ((indexFunc endsKeyword (stripCommentsAndWhitespace s)).getD
        (stripCommentsAndWhitespace s).length)) ∈ bareFlags then rest else false,
    length_drop_lt hs (length_stripCommentsAndWhitespace_le s) hstop, fun bound => ?_⟩
  rw [bareFlagLoop, if_neg hs, if_neg hstop]

/-- A statement classifies as read or write, never as unknown, unless the cache says so. -/
theorem classifyByKeyword_kind (sql : Text) :
    (classifyByKeyword sql).kind = .read ∨ (classifyByKeyword sql).kind = .write := by
  unfold classifyByKeyword
  dsimp only
  split
  · exact Or.inr rfl
  · split
    · exact Or.inr rfl
    · split
      · exact Or.inl rfl
      · exact Or.inr rfl

/-- A message without SQL text classifies as a write by default. -/
theorem classifyByKeyword_nil : classifyByKeyword [] = ⟨.write, .default⟩ := by decide

example : (classifyByKeyword (text "/* x */ SELECT 1")).kind = .read := by decide

example : (classifyByKeyword (text "EXPLAIN (VERBOSE, ANALYZE) DELETE FROM t")).kind = .write := by
  decide

end Grunyas.Classifier
