import Grunyas.Go.Strings

/-!
# Host and port

The `net.SplitHostPort` function: the port follows the last colon, and a host with colons stands in
brackets.
-/

namespace GoNet

open GoText

/-- The text of an `AddrError`. -/
def addrError (addr why : Text) : Text :=
  if addr = [] then why else text "address " ++ addr ++ text ": " ++ why

/-- The offset of the last occurrence of a byte. -/
def lastIndexByte (c : UInt8) (s : Text) : Option ℕ :=
  (s.reverse.idxOf? c).map fun fromEnd => s.length - 1 - fromEnd

/-- The `net.SplitHostPort` function. -/
def splitHostPort (hostport : Text) : Except Text (Text × Text) :=
  let missingPort := addrError hostport (text "missing port in address")
  let tooManyColons := addrError hostport (text "too many colons in address")
  match lastIndexByte 0x3A hostport with
  | none => .error missingPort
  | some i =>
    -- after a host in brackets neither bracket may occur, before the port
    let finish (host : Text) (j k : ℕ) : Except Text (Text × Text) :=
      if (hostport.drop j).contains 0x5B then
        .error (addrError hostport (text "unexpected '[' in address"))
      else if (hostport.drop k).contains 0x5D then
        .error (addrError hostport (text "unexpected ']' in address"))
      else .ok (host, hostport.drop (i + 1))
    if hostport.head? = some 0x5B then
      match hostport.idxOf? 0x5D with
      | none => .error (addrError hostport (text "missing ']' in address"))
      | some close =>
        if close + 1 = hostport.length then .error missingPort
        else if close + 1 = i then finish ((hostport.take close).drop 1) 1 (close + 1)
        else if hostport[close + 1]? = some 0x3A then .error tooManyColons
        else .error missingPort
    else if (hostport.take i).contains 0x3A then .error tooManyColons
    else finish (hostport.take i) 0 0

/-- The last occurrence of a byte that does not occur in the rest. -/
theorem lastIndexByte_append {c : UInt8} {rest : Text} (h : c ∉ rest) (first : Text) :
    lastIndexByte c (first ++ c :: rest) = some first.length := by
  have hrest : c ∉ rest.reverse := by rwa [List.mem_reverse]
  have hreverse : (first ++ c :: rest).reverse = rest.reverse ++ c :: first.reverse := by simp
  rw [lastIndexByte, hreverse]
  have hidx : (rest.reverse ++ c :: first.reverse).idxOf? c = some rest.length := by
    rw [List.idxOf?, List.findIdx?_append, ← List.idxOf?, List.idxOf?_eq_none_iff.mpr hrest]
    simp [List.idxOf?_cons]
  rw [hidx, Option.map_some]
  congr 1
  rw [List.length_append, List.length_cons]
  omega

/-- A byte that stands in neither the host nor the port. -/
def Plain (s : Text) : Prop := 0x3A ∉ s ∧ 0x5B ∉ s ∧ 0x5D ∉ s

instance (s : Text) : Decidable (Plain s) := inferInstanceAs (Decidable (_ ∧ _ ∧ _))

/-- A host and a port without colons and brackets are split at the colon between them. -/
theorem splitHostPort_plain {host port : Text} (hhost : Plain host) (hport : Plain port) :
    splitHostPort (host ++ 0x3A :: port) = .ok (host, port) := by
  have hbracket : (host ++ 0x3A :: port).head? ≠ some 0x5B := by
    cases host with
    | nil => simp
    | cons b host =>
      intro hhead
      exact hhost.2.1 (Option.some.inj hhead ▸ List.mem_cons_self)
  have hopen : 0x5B ∉ host ++ 0x3A :: port := by simp [hhost.2.1, hport.2.1]
  have hclose : 0x5D ∉ host ++ 0x3A :: port := by simp [hhost.2.2, hport.2.2]
  rw [splitHostPort, lastIndexByte_append hport.1]
  dsimp only
  rw [if_neg hbracket]
  simp [hhost.1, hopen, hclose]

example : splitHostPort (text "[::1]:5711") = .ok (text "::1", text "5711") := by decide

example : splitHostPort (text "::1:5711") =
    .error (text "address ::1:5711: too many colons in address") := by decide

end GoNet
