import Grunyas.Go.Utf8
import Mathlib.Data.List.Induction

/-!
# The `strings` functions on byte strings

Prefix tests, substring search, trimming, lower-casing and splitting, as Go's `strings` package
defines them on bytes. Rune scans advance by the decoded width, so a scan over arbitrary bytes
is a recursion on the bytes with a count of those still to skip.

On the encoding of scalar values the byte functions act rune by rune: `toLower_encodeRunes`,
`trimSpace_padded`.
-/

namespace GoText

/-- The `strings.HasPrefix` test. -/
def hasPrefix (s p : Text) : Bool := p.isPrefixOf s

/-- The `strings.Index` search: the offset of the first occurrence of a substring. -/
def index (sub : Text) : Text → Option ℕ
  | [] => if sub = [] then some 0 else none
  | b :: s => if hasPrefix (b :: s) sub then some 0 else (index sub s).map (· + 1)

/-- The runes of a string; bytes that do not decode give `runeError` one at a time. -/
def runesFrom : ℕ → Text → List ℕ
  | _, [] => []
  | skip + 1, _ :: s => runesFrom skip s
  | 0, b :: s => (decodeRune (b :: s)).1 :: runesFrom ((decodeRune (b :: s)).2 - 1) s

/-- The runes a `range` loop over the string visits. -/
def runes (s : Text) : List ℕ := runesFrom 0 s

/-- The `strings.ToLower` mapping: every rune lowered and encoded again. -/
def toLower (s : Text) : Text := encodeRunes ((runes s).map lowerRune)

/-- The offset of the first rune that satisfies the predicate, counted from `pos`. -/
def indexFuncFrom (p : ℕ → Bool) : ℕ → ℕ → Text → Option ℕ
  | _, _, [] => none
  | pos, skip + 1, _ :: s => indexFuncFrom p (pos + 1) skip s
  | pos, 0, b :: s =>
    if p (decodeRune (b :: s)).1 then some pos
    else indexFuncFrom p (pos + 1) ((decodeRune (b :: s)).2 - 1) s

/-- The `strings.IndexFunc` search. -/
def indexFunc (p : ℕ → Bool) (s : Text) : Option ℕ := indexFuncFrom p 0 0 s

/-- Drop the leading runes that satisfy the predicate, reading each with the given decoder. -/
def dropRunes (decode : Text → ℕ × ℕ) (p : ℕ → Bool) : ℕ → Text → Text
  | _, [] => []
  | skip + 1, _ :: s => dropRunes decode p skip s
  | 0, b :: s =>
    if p (decode (b :: s)).1 then dropRunes decode p ((decode (b :: s)).2 - 1) s else b :: s

/-- The `strings.TrimLeftFunc` function. -/
def trimLeftFunc (p : ℕ → Bool) (s : Text) : Text := dropRunes decodeRune p 0 s

/-- The `strings.TrimRightFunc` function, which decodes from the end. -/
def trimRightFunc (p : ℕ → Bool) (s : Text) : Text :=
  (dropRunes decodeLastRune p 0 s.reverse).reverse

/-- The `strings.TrimSpace` function. -/
def trimSpace (s : Text) : Text := trimRightFunc isSpace (trimLeftFunc isSpace s)

/-- The loop of `strings.Fields`, bounded by its first argument. -/
def fieldsLoop : ℕ → Text → List Text
  | 0, _ => []
  | bound + 1, s =>
    let s := trimLeftFunc isSpace s
    if s = [] then []
    else match indexFunc isSpace s with
      | none => [s]
      | some i => s.take i :: fieldsLoop bound (s.drop i)

/-- The `strings.Fields` function: the parts between runs of white space. -/
def fields (s : Text) : List Text := fieldsLoop (s.length + 1) s

/-- The `strings.ReplaceAll` function where one byte takes the place of another. -/
def replaceByte (old new : UInt8) (s : Text) : Text := s.map fun b => if b = old then new else b

/-- The `strings.Split` function for a one-byte separator. -/
def splitByte (sep : UInt8) : Text → List Text
  | [] => [[]]
  | b :: s =>
    if b = sep then [] :: splitByte sep s
    else match splitByte sep s with
      | [] => [[b]]
      | part :: parts => (b :: part) :: parts

/-- The `strings.SplitN` function for a one-byte separator: at most so many parts, of which the last is
not split. -/
def splitByteN (sep : UInt8) : ℕ → Text → List Text
  | 0, _ => []
  | 1, s => [s]
  | n + 2, s =>
    match s.dropWhile (· != sep) with
    | [] => [s]
    | _ :: rest => s.takeWhile (· != sep) :: splitByteN sep (n + 1) rest

/-- A loop on a bound does not depend on it, once the bound exceeds the length of the text, if
every turn ends the loop or goes on with a shorter text. -/
theorem loop_eq_of_length_lt {α : Type*} {loop : ℕ → Text → α}
    (hturn : ∀ s, (∃ result, ∀ bound, loop (bound + 1) s = result) ∨
      ∃ rest : Text, ∃ f : α → α, rest.length < s.length ∧
        ∀ bound, loop (bound + 1) s = f (loop bound rest))
    {first second : ℕ} {s : Text} (hfirst : s.length < first) (hsecond : s.length < second) :
    loop first s = loop second s := by
  induction first generalizing second s with
  | zero => exact absurd hfirst (Nat.not_lt_zero _)
  | succ first ih =>
    obtain ⟨second, rfl⟩ := Nat.exists_eq_succ_of_ne_zero (Nat.ne_zero_of_lt hsecond)
    rcases hturn s with ⟨result, hends⟩ | ⟨rest, f, hlen, hgoes⟩
    · rw [hends, hends]
    · have hrest : loop first rest = loop second rest := ih (by omega) (by omega)
      rw [hgoes, hgoes, hrest]

/-- A text with a nonempty prefix is not empty. -/
theorem ne_nil_of_hasPrefix {s p : Text} (hp : p ≠ []) (h : hasPrefix s p = true) : s ≠ [] := by
  intro hs
  rw [hs, hasPrefix, List.isPrefixOf_iff_prefix, List.prefix_nil] at h
  exact hp h

/-- Dropping runes does not lengthen a text. -/
theorem length_dropRunes_le (decode : Text → ℕ × ℕ) (p : ℕ → Bool) (skip : ℕ) (s : Text) :
    (dropRunes decode p skip s).length ≤ s.length := by
  induction s generalizing skip with
  | nil => cases skip <;> exact Nat.le_refl _
  | cons b s ih =>
    cases skip with
    | succ skip => exact Nat.le_succ_of_le (ih skip)
    | zero =>
      rw [dropRunes]
      split_ifs
      · exact Nat.le_succ_of_le (ih _)
      · exact Nat.le_refl _

/-- Trimming the front does not lengthen a text. -/
theorem length_trimLeftFunc_le (p : ℕ → Bool) (s : Text) :
    (trimLeftFunc p s).length ≤ s.length :=
  length_dropRunes_le decodeRune p 0 s

/-- Trimming does not lengthen a text. -/
theorem length_trimSpace_le (s : Text) : (trimSpace s).length ≤ s.length := by
  have hright := length_dropRunes_le decodeLastRune isSpace 0 (trimLeftFunc isSpace s).reverse
  rw [List.length_reverse] at hright
  rw [trimSpace, trimRightFunc, List.length_reverse]
  exact Nat.le_trans hright (length_trimLeftFunc_le isSpace s)

/-- The rest of a text behind some of its bytes is shorter. -/
theorem length_drop_lt {s t : Text} (ht : t ≠ []) (hle : t.length ≤ s.length) {n : ℕ} (hn : n ≠ 0) :
    (t.drop n).length < s.length := by
  have hpos := List.length_pos_of_ne_nil ht
  rw [List.length_drop]
  omega

/-- A loop that trims a text and skips the line or block comment in front of it ends, or goes on
with a shorter text, at every turn. -/
theorem commentLoop_turn {trim : Text → Text} (htrim : ∀ s, (trim s).length ≤ s.length)
    {loop : ℕ → Text → Text}
    (hloop : ∀ bound s, loop (bound + 1) s =
      if hasPrefix (trim s) (text "--") then
        match index (text "\n") (trim s) with
        | some i => loop bound ((trim s).drop (i + 1))
        | none => []
      else if hasPrefix (trim s) (text "/*") then
        match index (text "*/") (trim s) with
        | some i => loop bound ((trim s).drop (i + 2))
        | none => []
      else trim s) (s : Text) :
    (∃ result, ∀ bound, loop (bound + 1) s = result) ∨
      ∃ rest : Text, ∃ f : Text → Text, rest.length < s.length ∧
        ∀ bound, loop (bound + 1) s = f (loop bound rest) := by
  by_cases hline : hasPrefix (trim s) (text "--") = true
  · cases hindex : index (text "\n") (trim s) with
    | none => exact Or.inl ⟨[], fun bound => by rw [hloop, if_pos hline, hindex]⟩
    | some i =>
      have hshorter := length_drop_lt (ne_nil_of_hasPrefix (by decide) hline) (htrim s)
        (Nat.succ_ne_zero i)
      exact Or.inr ⟨_, id, hshorter, fun bound => by rw [hloop, if_pos hline, hindex]; rfl⟩
  · by_cases hblock : hasPrefix (trim s) (text "/*") = true
    · cases hindex : index (text "*/") (trim s) with
      | none =>
        exact Or.inl ⟨[], fun bound => by rw [hloop, if_neg hline, if_pos hblock, hindex]⟩
      | some i =>
        have hshorter := length_drop_lt (ne_nil_of_hasPrefix (by decide) hblock) (htrim s)
          (Nat.succ_ne_zero (i + 1))
        refine Or.inr ⟨_, id, hshorter, fun bound => ?_⟩
        rw [hloop, if_neg hline, if_pos hblock, hindex]
        rfl
    · exact Or.inl ⟨trim s, fun bound => by rw [hloop, if_neg hline, if_neg hblock]⟩

/-- Skipping over a known number of bytes is dropping them. -/
theorem dropRunes_skip (decode : Text → ℕ × ℕ) (p : ℕ → Bool) (skipped s : Text) :
    dropRunes decode p skipped.length (skipped ++ s) = dropRunes decode p 0 s := by
  induction skipped with
  | nil => rfl
  | cons b skipped ih => simpa only [List.length_cons, List.cons_append, dropRunes] using ih

/-- A decoded rune that satisfies the predicate is dropped with its whole width. -/
theorem dropRunes_of_decode {decode : Text → ℕ × ℕ} {p : ℕ → Bool} {r : ℕ} {head s : Text}
    (hne : head ≠ []) (hd : decode (head ++ s) = (r, head.length)) (hp : p r = true) :
    dropRunes decode p 0 (head ++ s) = dropRunes decode p 0 s := by
  cases head with
  | nil => exact absurd rfl hne
  | cons b head =>
    rw [List.cons_append] at hd ⊢
    rw [dropRunes, hd, if_pos hp, List.length_cons, Nat.add_sub_cancel, dropRunes_skip]

/-- A decoded rune that fails the predicate stops the scan. -/
theorem dropRunes_of_not {decode : Text → ℕ × ℕ} {p : ℕ → Bool} {r : ℕ} {head s : Text}
    (hne : head ≠ []) (hd : decode (head ++ s) = (r, head.length)) (hp : p r = false) :
    dropRunes decode p 0 (head ++ s) = head ++ s := by
  cases head with
  | nil => exact absurd rfl hne
  | cons b head =>
    rw [List.cons_append] at hd ⊢
    rw [dropRunes, hd, if_neg (by simp [hp])]

/-- No rune encodes to the empty string. -/
theorem encodeRune_ne_nil (r : ℕ) : encodeRune r ≠ [] := by
  unfold encodeRune
  split
  · simp
  · split
    · simp
    · split
      · simp
      · split <;> simp

/-- Every white-space rune is a scalar value. -/
theorem isScalar_of_isSpace {r : ℕ} (h : isSpace r = true) : IsScalar r := by
  have hall : ∀ r ∈ spaceRunes, r < 0xD800 := by decide
  exact Or.inl (hall r (of_decide_eq_true h))

/-- The runes after skipping a known number of bytes. -/
theorem runesFrom_skip (skipped s : Text) :
    runesFrom skipped.length (skipped ++ s) = runesFrom 0 s := by
  induction skipped with
  | nil => rfl
  | cons b skipped ih => simpa only [List.length_cons, List.cons_append, runesFrom] using ih

/-- An encoded scalar value contributes exactly its rune. -/
theorem runes_encodeRune {r : ℕ} (h : IsScalar r) (s : Text) :
    runes (encodeRune r ++ s) = r :: runes s := by
  have hd := decodeRune_encodeRune h s
  obtain ⟨b, rest, he⟩ := List.exists_cons_of_ne_nil (encodeRune_ne_nil r)
  rw [he, List.cons_append] at hd
  rw [runes, he, List.cons_append, runesFrom, hd, List.length_cons, Nat.add_sub_cancel,
    runesFrom_skip, runes]

/-- Decoding the encoding of scalar values gives them back. -/
theorem runes_encodeRunes {rs : List ℕ} (h : ∀ r ∈ rs, IsScalar r) : runes (encodeRunes rs) = rs := by
  induction rs with
  | nil => rfl
  | cons r rs ih =>
    rw [encodeRunes, List.flatMap_cons, runes_encodeRune (h r List.mem_cons_self)]
    exact congrArg (List.cons r) (ih fun x hx => h x (List.mem_cons_of_mem _ hx))

/-- Lower-casing acts rune by rune on encoded scalar values. -/
theorem toLower_encodeRunes {rs : List ℕ} (h : ∀ r ∈ rs, IsScalar r) :
    toLower (encodeRunes rs) = encodeRunes (rs.map lowerRune) := by
  rw [toLower, runes_encodeRunes h]

/-- Encoding a concatenation concatenates the encodings. -/
theorem encodeRunes_append (left right : List ℕ) :
    encodeRunes (left ++ right) = encodeRunes left ++ encodeRunes right := by
  simp [encodeRunes]

/-- Trimming on the left removes encoded white space up to the first other rune. -/
theorem trimLeftFunc_padded {spaces : List ℕ} (hs : ∀ r ∈ spaces, isSpace r = true) {first : ℕ}
    (hf : IsScalar first) (hn : isSpace first = false) (s : Text) :
    trimLeftFunc isSpace (encodeRunes spaces ++ (encodeRune first ++ s)) = encodeRune first ++ s := by
  induction spaces with
  | nil =>
    change dropRunes decodeRune isSpace 0 (encodeRune first ++ s) = _
    exact dropRunes_of_not (encodeRune_ne_nil first) (decodeRune_encodeRune hf s) hn
  | cons r spaces ih =>
    have hr := hs r List.mem_cons_self
    rw [encodeRunes, List.flatMap_cons, List.append_assoc, trimLeftFunc,
      dropRunes_of_decode (encodeRune_ne_nil r)
        (decodeRune_encodeRune (isScalar_of_isSpace hr) _) hr]
    exact ih fun x hx => hs x (List.mem_cons_of_mem _ hx)

/-- Trimming on the right removes encoded white space back to the last other rune. -/
theorem trimRightFunc_padded {spaces : List ℕ} (hs : ∀ r ∈ spaces, isSpace r = true) {last : ℕ}
    (hl : IsScalar last) (hn : isSpace last = false) (s : Text) :
    trimRightFunc isSpace (s ++ encodeRune last ++ encodeRunes spaces) = s ++ encodeRune last := by
  have hne : (encodeRune last).reverse ≠ [] := by simpa using encodeRune_ne_nil last
  have hdrop : dropRunes decodeLastRune isSpace 0 ((s ++ encodeRune last).reverse) =
      (s ++ encodeRune last).reverse := by
    rw [List.reverse_append]
    exact dropRunes_of_not hne
      (by simpa using decodeLastRune_encodeRune hl s.reverse) hn
  induction spaces using List.reverseRecOn with
  | nil =>
    rw [encodeRunes, List.flatMap_nil, List.append_nil, trimRightFunc, hdrop, List.reverse_reverse]
  | append_singleton spaces r ih =>
    have hr := hs r (by simp)
    have hrne : (encodeRune r).reverse ≠ [] := by simpa using encodeRune_ne_nil r
    have hstep := ih fun x hx => hs x (by simp [hx])
    rw [encodeRunes_append, ← List.append_assoc, trimRightFunc, List.reverse_append]
    have hone : encodeRunes [r] = encodeRune r := by simp [encodeRunes]
    rw [hone, dropRunes_of_decode hrne
      (by simpa using decodeLastRune_encodeRune (isScalar_of_isSpace hr) _) hr]
    exact hstep

/-- Trimming both ends of padded text leaves the text between its first and last other runes. -/
theorem trimSpace_padded {left right : List ℕ} (first : ℕ) (middle : List ℕ) (last : ℕ)
    (hleft : ∀ r ∈ left, isSpace r = true) (hright : ∀ r ∈ right, isSpace r = true)
    (hf : IsScalar first) (hfn : isSpace first = false)
    (hl : IsScalar last) (hln : isSpace last = false) :
    trimSpace (encodeRunes (left ++ (first :: middle ++ [last]) ++ right)) =
      encodeRunes (first :: middle ++ [last]) := by
  have hfirst : encodeRunes (left ++ (first :: middle ++ [last]) ++ right) =
      encodeRunes left ++ (encodeRune first ++ encodeRunes (middle ++ [last] ++ right)) := by
    simp [encodeRunes]
  have hlast : encodeRune first ++ encodeRunes (middle ++ [last] ++ right) =
      encodeRunes (first :: middle) ++ encodeRune last ++ encodeRunes right := by
    simp [encodeRunes]
  rw [trimSpace, hfirst, trimLeftFunc_padded hleft hf hfn, hlast,
    trimRightFunc_padded hright hl hln]
  simp [encodeRunes]

/-- White space alone trims to nothing. -/
theorem trimSpace_spaces {spaces : List ℕ} (hs : ∀ r ∈ spaces, isSpace r = true) :
    trimSpace (encodeRunes spaces) = [] := by
  have hleft : trimLeftFunc isSpace (encodeRunes spaces) = [] := by
    induction spaces with
    | nil => rfl
    | cons r spaces ih =>
      have hr := hs r List.mem_cons_self
      rw [encodeRunes, List.flatMap_cons, trimLeftFunc, dropRunes_of_decode (encodeRune_ne_nil r)
        (decodeRune_encodeRune (isScalar_of_isSpace hr) _) hr]
      exact ih fun x hx => hs x (List.mem_cons_of_mem _ hx)
  rw [trimSpace, hleft]
  rfl

/-- The parts of a text by its first byte. -/
theorem splitByte_cons (sep b : UInt8) (s : Text) : splitByte sep (b :: s) =
    if b = sep then [] :: splitByte sep s
    else match splitByte sep s with
      | [] => [[b]]
      | part :: parts => (b :: part) :: parts := rfl

/-- There is always a first part. -/
theorem splitByte_ne_nil (sep : UInt8) (s : Text) : splitByte sep s ≠ [] := by
  cases s with
  | nil => exact List.cons_ne_nil _ _
  | cons b s =>
    rw [splitByte_cons]
    split_ifs
    · exact List.cons_ne_nil _ _
    · cases splitByte sep s with
      | nil => exact List.cons_ne_nil _ _
      | cons part parts => exact List.cons_ne_nil _ _

/-- The first part is in front of the text. -/
theorem splitByte_head_isFront {sep : UInt8} {s part : Text} {more : List Text}
    (h : splitByte sep s = part :: more) : part <+: s := by
  induction s generalizing part more with
  | nil => exact (List.cons_eq_cons.mp h).1 ▸ List.nil_prefix
  | cons b s ih =>
    obtain ⟨first, rest, hsplit⟩ := List.exists_cons_of_ne_nil (splitByte_ne_nil sep s)
    rw [splitByte_cons, hsplit] at h
    split_ifs at h
    · exact (List.cons_eq_cons.mp h).1 ▸ List.nil_prefix
    · obtain ⟨rfl, -⟩ := List.cons_eq_cons.mp h
      exact (List.prefix_cons_inj b).mpr (ih hsplit)

/-- What holds no separator goes to the first part. -/
theorem splitByte_append_of_not_mem {sep : UInt8} {first : Text} (h : sep ∉ first) (rest : Text) :
    splitByte sep (first ++ rest) = (splitByte sep rest).modifyHead (first ++ ·) := by
  obtain ⟨part, parts, hsplit⟩ := List.exists_cons_of_ne_nil (splitByte_ne_nil sep rest)
  rw [hsplit]
  induction first with
  | nil => exact hsplit
  | cons b first ih =>
    have hb : b ≠ sep := fun hb => h (hb ▸ List.mem_cons_self)
    rw [List.cons_append, splitByte_cons, if_neg hb, ih fun hs => h (List.mem_cons_of_mem _ hs)]
    rfl

/-- Splitting a text without the separator gives the text. -/
theorem splitByte_of_not_mem {sep : UInt8} {s : Text} (h : sep ∉ s) : splitByte sep s = [s] := by
  have hsplit : splitByte sep (s ++ []) = [s ++ []] := splitByte_append_of_not_mem h []
  rwa [List.append_nil] at hsplit

/-- Splitting at the first separator. -/
theorem splitByte_append {sep : UInt8} {first : Text} (h : sep ∉ first) (rest : Text) :
    splitByte sep (first ++ sep :: rest) = first :: splitByte sep rest := by
  rw [splitByte_append_of_not_mem h, splitByte_cons, if_pos rfl, List.modifyHead_cons, List.append_nil]

/-- Splitting at the first separator, while parts are left. -/
theorem splitByteN_append {sep : UInt8} {first : Text} (h : sep ∉ first) (n : ℕ) (rest : Text) :
    splitByteN sep (n + 2) (first ++ sep :: rest) = first :: splitByteN sep (n + 1) rest := by
  have hother : ∀ b ∈ first, (b != sep) = true := by
    intro b hb
    rw [bne_iff_ne]
    intro heq
    exact h (heq ▸ hb)
  rw [splitByteN, List.dropWhile_append_of_pos hother, List.takeWhile_append_of_pos hother]
  simp

/-- A byte below 0x80 occurs in an encoding only as the encoding of its own rune. -/
theorem eq_of_mem_encodeRune {r : ℕ} (h : IsScalar r) {b : UInt8} (hb : b ∈ encodeRune r)
    (hlt : b.toNat < 0x80) : r = b.toNat := by
  have hhigh : ∀ n, 0x80 ≤ n → n < 256 → b ≠ .ofNat n := by
    rintro n hl hr rfl
    rw [toNat_ofNat_of_lt hr] at hlt
    omega
  obtain ⟨hr, he⟩ | ⟨hl, hr, he⟩ | ⟨hl, hr, he⟩ | ⟨hl, hr, he⟩ := encodeRune_cases h
  · obtain rfl : b = .ofNat r := by simpa [he] using hb
    rw [toNat_ofNat_of_lt (by omega)]
  · simp only [he, List.mem_cons, List.not_mem_nil, or_false] at hb
    obtain hb | hb := hb <;> exact absurd hb (hhigh _ (by omega) (by omega))
  · simp only [he, List.mem_cons, List.not_mem_nil, or_false] at hb
    obtain hb | hb | hb := hb <;> exact absurd hb (hhigh _ (by omega) (by omega))
  · simp only [he, List.mem_cons, List.not_mem_nil, or_false] at hb
    obtain hb | hb | hb | hb := hb <;> exact absurd hb (hhigh _ (by omega) (by omega))

/-- A byte below 0x80 occurs in encoded runes only if its rune does. -/
theorem not_mem_encodeRunes {rs : List ℕ} (h : ∀ r ∈ rs, IsScalar r) {b : UInt8}
    (hlt : b.toNat < 0x80) (hn : b.toNat ∉ rs) : b ∉ encodeRunes rs := by
  intro hb
  obtain ⟨r, hr, hbr⟩ := List.mem_flatMap.mp hb
  exact hn (eq_of_mem_encodeRune (h r hr) hbr hlt ▸ hr)

end GoText
