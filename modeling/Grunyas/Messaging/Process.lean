import Grunyas.Server.Types

/-!
# Message dispatch and session-state detection

Every client message other than `Terminate` is sent to the upstream as it is. A simple query
whose text contains a `SET` other than `SET LOCAL`, or a `PREPARE`, asks for session pooling;
the text is split at every semicolon and each part is judged after its leading comments.
-/

namespace Grunyas.Messaging

open GoText Grunyas.Server

/-- The loop of `stripLeadingComments`, bounded by its first argument. -/
def stripLeadingLoop : ℕ → Text → Text
  | 0, stmt => stmt
  | bound + 1, stmt =>
    let trimmed := trimSpace stmt
    if hasPrefix trimmed (text "--") then
      match index (text "\n") trimmed with
      | some i => stripLeadingLoop bound (trimmed.drop (i + 1))
      | none => []
    else if hasPrefix trimmed (text "/*") then
      match index (text "*/") trimmed with
      | some i => stripLeadingLoop bound (trimmed.drop (i + 2))
      | none => []
    else trimmed

/-- Remove surrounding white space and leading comments from one statement. -/
def stripLeadingComments (stmt : Text) : Text := stripLeadingLoop (stmt.length + 1) stmt

/-- Whether one part of a query text sets session state. -/
def statementUsesSessionState (stmt : Text) : Bool :=
  let stmt := trimSpace stmt
  if stmt = [] then false
  else
    let normalized := toLower (stripLeadingComments stmt)
    if hasPrefix normalized (text "set ") then !hasPrefix normalized (text "set local")
    else hasPrefix normalized (text "prepare ")

/-- Whether a query text needs session pooling. -/
def queryUsesSessionState (query : Text) : Bool :=
  (splitByte 0x3B query).any statementUsesSessionState

/-- The pooling result of `Process`: only a simple query can ask for session mode. -/
def processPins : FrontendMessage → Bool
  | .query string => queryUsesSessionState string
  | _ => false

/-- The bound of the loop over leading comments is immaterial. -/
theorem stripLeadingLoop_eq {bound : ℕ} {stmt : Text} (h : stmt.length < bound) :
    stripLeadingLoop bound stmt = stripLeadingComments stmt :=
  loop_eq_of_length_lt (commentLoop_turn length_trimSpace_le fun _ _ => rfl) h (Nat.lt_succ_self _)

example : queryUsesSessionState (text "SELECT 1; SET foo = bar") = true := by decide

example : queryUsesSessionState (text "SET LOCAL foo = bar; SELECT 1") = false := by decide

end Grunyas.Messaging
