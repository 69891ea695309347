import Grunyas.Go.Strings
import Grunyas.Numeral.Positional

/-!
# The standard base64 encoding

`base64.StdEncoding` writes three bytes as four characters and pads the last group with `=`. The
decoder reads one group at a time, ignores carriage returns and line feeds, and reports the offset of
the first input that it cannot accept; its fast path for groups without such input gives the same
results and is not modelled apart. Padding bits that are not zero are accepted.

What was encoded is decoded (`decodeString_encodeToString`).
-/

namespace GoText

open Positional

/-- The standard alphabet. -/
def encodeStd : Text := text "ABCDEFGHIJKLMNOPQRSTUVWXYZabcdefghijklmnopqrstuvwxyz0123456789+/"

/-- The padding character. -/
def padChar : UInt8 := 0x3D

/-- The character of a digit. -/
def base64Letter (d : ℕ) : UInt8 := encodeStd.getD d 0

/-- The digit of a character. -/
def decodeMap (c : UInt8) : Option ℕ := encodeStd.idxOf? c

/-- The number of 24 bits that up to three bytes stand for. -/
def groupValue (bytes : Text) : ℕ :=
  value 256 (bytes.map UInt8.toNat ++ List.replicate (3 - bytes.length) 0)

/-- Up to three bytes as four characters: one more digit than bytes, and padding. -/
def encodeGroup (bytes : Text) : Text :=
  ((windows 64 4 (groupValue bytes)).take (bytes.length + 1)).map base64Letter ++
    List.replicate (3 - bytes.length) padChar

/-- The `EncodeToString` method of the standard encoding. -/
def encodeToString : Text → Text
  | [] => []
  | [a] => encodeGroup [a]
  | [a, b] => encodeGroup [a, b]
  | a :: b :: c :: rest => encodeGroup [a, b, c] ++ encodeToString rest

/-- The bytes of a group of digits: one less than digits. -/
def assemble (dbuf : List ℕ) : Text :=
  let val := value 64 (dbuf ++ List.replicate (4 - dbuf.length) 0)
  ((windows 256 3 val).take (dbuf.length - 1)).map UInt8.ofNat

/-- A line break within an encoding. -/
def isBreak (c : UInt8) : Bool := c == 0x0A || c == 0x0D

/-- Skip line breaks, counting the offset. -/
def skipBreaks : ℕ → Text → ℕ × Text
  | si, [] => (si, [])
  | si, c :: src => if isBreak c then skipBreaks (si + 1) src else (si, c :: src)

/-- The end of the input, behind its padding. -/
def endOfInput (dbuf : List ℕ) (si : ℕ) (src : Text) : Except ℕ (Text × ℕ × Text) :=
  match skipBreaks si src with
  | (si, []) => .ok (assemble dbuf, si, [])
  | (si, _ :: _) => .error si

/-- The rest of the input behind a first padding character. -/
def decodePadding (dbuf : List ℕ) (si : ℕ) (src : Text) : Except ℕ (Text × ℕ × Text) :=
  if dbuf.length < 2 then .error (si - 1)
  else if dbuf.length = 2 then
    match skipBreaks si src with
    | (si, []) => .error si
    | (si, c :: src) => if c ≠ padChar then .error (si - 1) else endOfInput dbuf (si + 1) src
  else endOfInput dbuf si src

/-- One group of the input at offset `si`, of which the digits of `dbuf` have been read: its bytes, and
the offset and the input behind it. -/
def decodeQuantum : List ℕ → ℕ → Text → Except ℕ (Text × ℕ × Text)
  | dbuf, si, [] => if dbuf.length = 0 then .ok ([], si, []) else .error (si - dbuf.length)
  | dbuf, si, c :: src =>
    match decodeMap c with
    | some out =>
      if dbuf.length = 3 then .ok (assemble (dbuf ++ [out]), si + 1, src)
      else decodeQuantum (dbuf ++ [out]) (si + 1) src
    | none =>
      if isBreak c then decodeQuantum dbuf (si + 1) src
      else if c ≠ padChar then .error si
      else decodePadding dbuf (si + 1) src

/-- The loop of the decoder over groups, bounded by its first argument. -/
def decodeLoop : ℕ → ℕ → Text → Except ℕ Text
  | 0, _, _ => .ok []
  | bound + 1, si, src =>
    if src = [] then .ok []
    else match decodeQuantum [] si src with
      | .error offset => .error offset
      | .ok (bytes, si, rest) => (decodeLoop bound si rest).map (bytes ++ ·)

/-- The `DecodeString` method of the standard encoding; an error is the offset of the input that is not
accepted. -/
def decodeString (s : Text) : Except ℕ Text := decodeLoop s.length 0 s

example : encodeToString (text "salt") = text "c2FsdA==" := by decide

example : decodeString (text "c2Fs\ndA=") = .error 8 := by decide

/-- Every digit has a character, which is read as the digit. -/
theorem base64Letter_spec : ∀ d < 64, decodeMap (base64Letter d) = some d ∧
    base64Letter d ∈ encodeStd := by
  decide +kernel

/-- The digits of a number have characters. -/
theorem lt_of_mem_windows {base length n d : ℕ} (hbase : 0 < base) (hd : d ∈ windows base length n) :
    d < base := by
  obtain ⟨i, -, rfl⟩ := List.mem_map.mp hd
  exact Nat.mod_lt _ hbase

/-- The digits of a group: those that are written, and zeros for the padding. -/
theorem windows_groupValue {bytes : Text} (hlength : bytes.length ≤ 3) :
    windows 64 4 (groupValue bytes) =
      (windows 64 4 (groupValue bytes)).take (bytes.length + 1) ++
        List.replicate (3 - bytes.length) 0 := by
  have hvalue : groupValue bytes = value 256 (bytes.map UInt8.toNat) * 4 ^ (3 - bytes.length) *
      64 ^ (3 - bytes.length) := by
    rw [groupValue, value_append_zeros, Nat.mul_assoc, ← Nat.mul_pow]
  have hdigits := windows_mul_pow (show 0 < 64 by decide) (bytes.length + 1) (3 - bytes.length)
    (value 256 (bytes.map UInt8.toNat) * 4 ^ (3 - bytes.length))
  rw [← hvalue, show bytes.length + 1 + (3 - bytes.length) = 4 by omega] at hdigits
  rw [hdigits, List.take_left' (length_windows _ _ _)]

/-- The digits of a group that are written. -/
theorem groupDigits_spec {bytes : Text} (hlength : bytes.length ≤ 3) :
    ((windows 64 4 (groupValue bytes)).take (bytes.length + 1)).length = bytes.length + 1 ∧
      ∀ d ∈ (windows 64 4 (groupValue bytes)).take (bytes.length + 1), d < 64 := by
  constructor
  · rw [List.length_take, length_windows]
    omega
  · intro d hd
    exact lt_of_mem_windows (by decide) (List.mem_of_mem_take hd)

/-- The bytes of a group are assembled again. -/
theorem assemble_groupValue {bytes : Text} (hlength : bytes.length ≤ 3) :
    assemble ((windows 64 4 (groupValue bytes)).take (bytes.length + 1)) = bytes := by
  have hdigits : ∀ d ∈ bytes.map UInt8.toNat ++ List.replicate (3 - bytes.length) 0, d < 256 := by
    intro d hd
    obtain hd | hd := List.mem_append.mp hd
    · obtain ⟨b, -, rfl⟩ := List.mem_map.mp hd
      exact b.toNat_lt
    · rw [List.eq_of_mem_replicate hd]
      decide
  have hcount : (bytes.map UInt8.toNat ++ List.replicate (3 - bytes.length) 0).length = 3 := by
    rw [List.length_append, List.length_map, List.length_replicate]
    omega
  have hbound := value_lt (by decide) hdigits
  have hback := windows_value (by decide) hdigits
  rw [hcount, ← groupValue] at hbound hback
  have hfits : groupValue bytes < 64 ^ 4 := hbound
  have hbytes : (bytes.map UInt8.toNat).map UInt8.ofNat = bytes := by
    rw [List.map_map]
    exact List.map_id'' (fun b => UInt8.ofNat_toNat) bytes
  rw [assemble, (groupDigits_spec hlength).1, show 4 - (bytes.length + 1) = 3 - bytes.length by omega,
    ← windows_groupValue hlength, value_windows, Nat.mod_eq_of_lt hfits, hback, Nat.add_sub_cancel,
    List.take_left' (List.length_map _), hbytes]

/-- Digits are read into the group until it is full. -/
theorem decodeQuantum_map {ds : List ℕ} (hds : ∀ d ∈ ds, d < 64) {dbuf : List ℕ}
    (hroom : dbuf.length + ds.length ≤ 3) (si : ℕ) (rest : Text) :
    decodeQuantum dbuf si (ds.map base64Letter ++ rest) =
      decodeQuantum (dbuf ++ ds) (si + ds.length) rest := by
  induction ds generalizing dbuf si with
  | nil => rw [List.map_nil, List.nil_append, List.append_nil, List.length_nil, Nat.add_zero]
  | cons d ds ih =>
    rw [List.forall_mem_cons] at hds
    rw [List.length_cons] at hroom
    have hroom' : (dbuf ++ [d]).length + ds.length ≤ 3 := by
      rw [List.length_append, List.length_singleton]
      omega
    rw [List.map_cons, List.cons_append, decodeQuantum, (base64Letter_spec d hds.1).1]
    dsimp only
    rw [if_neg (by omega), ih hds.2 hroom', List.append_assoc, List.singleton_append,
      List.length_cons, Nat.add_right_comm, Nat.add_assoc]

/-- A full group is decoded, whatever follows it. -/
theorem decodeQuantum_full {bytes : Text} (hlength : bytes.length = 3) (si : ℕ) (rest : Text) :
    decodeQuantum [] si (encodeGroup bytes ++ rest) = .ok (bytes, si + 4, rest) := by
  obtain ⟨hcount, hdigits⟩ := groupDigits_spec (Nat.le_of_eq hlength)
  have hbytes := assemble_groupValue (Nat.le_of_eq hlength)
  rw [encodeGroup]
  generalize (windows 64 4 (groupValue bytes)).take (bytes.length + 1) = digits at hcount hdigits hbytes
  -- the last digit completes the group
  have hne : digits ≠ [] := by
    rintro rfl
    cases hcount
  obtain ⟨front, last, rfl⟩ : ∃ front last, digits = front ++ [last] :=
    ⟨_, _, (List.dropLast_append_getLast hne).symm⟩
  rw [List.length_append, List.length_singleton, hlength] at hcount
  rw [List.forall_mem_append, List.forall_mem_singleton] at hdigits
  rw [hlength, List.map_append, List.append_assoc, List.append_assoc,
    decodeQuantum_map hdigits.1 (by rw [List.length_nil]; omega), List.map_singleton,
    List.singleton_append, decodeQuantum, (base64Letter_spec last hdigits.2).1]
  dsimp only
  rw [List.nil_append, if_pos (by omega), hbytes, show front.length = 3 by omega]
  rfl

/-- A short group is decoded at the end of the input. -/
theorem decodeQuantum_short {bytes : Text} (hne : bytes ≠ []) (hlength : bytes.length < 3) (si : ℕ) :
    decodeQuantum [] si (encodeGroup bytes) = .ok (bytes, si + 4, []) := by
  obtain ⟨hcount, hdigits⟩ := groupDigits_spec (Nat.le_of_lt hlength)
  have hbytes := assemble_groupValue (Nat.le_of_lt hlength)
  have hpad : decodeMap padChar = none ∧ isBreak padChar = false := by decide
  rw [encodeGroup]
  generalize (windows 64 4 (groupValue bytes)).take (bytes.length + 1) = digits at hcount hdigits hbytes
  rw [decodeQuantum_map hdigits (by rw [List.length_nil]; omega), List.nil_append]
  obtain hone | htwo : bytes.length = 1 ∨ bytes.length = 2 := by
    have hpos := List.length_pos_of_ne_nil hne
    omega
  · rw [hone] at hcount ⊢
    simp [decodeQuantum, hpad, decodePadding, hcount, skipBreaks, endOfInput, hbytes]
  · rw [htwo] at hcount ⊢
    simp [decodeQuantum, hpad, decodePadding, hcount, skipBreaks, endOfInput, hbytes]

/-- Every group has four characters. -/
theorem length_encodeGroup {bytes : Text} (hlength : bytes.length ≤ 3) : (encodeGroup bytes).length = 4 := by
  rw [encodeGroup, List.length_append, List.length_map, (groupDigits_spec hlength).1,
    List.length_replicate]
  omega

/-- A group is not empty. -/
theorem encodeGroup_ne_nil {bytes : Text} (hlength : bytes.length ≤ 3) : encodeGroup bytes ≠ [] := by
  apply List.ne_nil_of_length_pos
  rw [length_encodeGroup hlength]
  decide

/-- A short group is the last turn of the loop. -/
theorem decodeLoop_short {bytes : Text} (hne : bytes ≠ []) (hlength : bytes.length < 3) {bound : ℕ}
    (hbound : (encodeGroup bytes).length ≤ bound) (si : ℕ) :
    decodeLoop bound si (encodeGroup bytes) = .ok bytes := by
  have hle := Nat.le_of_lt hlength
  rw [length_encodeGroup hle] at hbound
  obtain ⟨bound, rfl⟩ := Nat.exists_eq_add_of_le' (show 1 ≤ bound by omega)
  rw [decodeLoop, if_neg (encodeGroup_ne_nil hle), decodeQuantum_short hne hlength]
  dsimp only
  cases bound with
  | zero => omega
  | succ bound =>
    rw [decodeLoop, if_pos rfl, Except.map, List.append_nil]

/-- What was encoded is decoded, from any offset. -/
theorem decodeLoop_encodeToString (s : Text) {bound : ℕ} (hbound : (encodeToString s).length ≤ bound)
    (si : ℕ) : decodeLoop bound si (encodeToString s) = .ok s := by
  induction s using encodeToString.induct generalizing bound si with
  | case1 => cases bound <;> rfl
  | case2 a => exact decodeLoop_short (List.cons_ne_nil _ _) (by simp) hbound si
  | case3 a b => exact decodeLoop_short (List.cons_ne_nil _ _) (by simp) hbound si
  | case4 a b c rest ih =>
    have hle : [a, b, c].length ≤ 3 := Nat.le_refl 3
    rw [encodeToString, List.length_append, length_encodeGroup hle] at hbound
    obtain ⟨bound, rfl⟩ := Nat.exists_eq_add_of_le' (show 1 ≤ bound by omega)
    rw [encodeToString, decodeLoop, if_neg (by simp [encodeGroup_ne_nil hle]), decodeQuantum_full rfl]
    dsimp only
    rw [ih (by omega)]
    rfl

/-- What was encoded is decoded. -/
theorem decodeString_encodeToString (s : Text) : decodeString (encodeToString s) = .ok s :=
  decodeLoop_encodeToString s (Nat.le_refl _) 0

/-- An encoding has four characters for every three bytes or part of them. -/
theorem length_encodeToString (s : Text) : (encodeToString s).length = 4 * ((s.length + 2) / 3) := by
  induction s using encodeToString.induct with
  | case1 => rfl
  | case2 a => simp [encodeToString, length_encodeGroup]
  | case3 a b => simp [encodeToString, length_encodeGroup]
  | case4 a b c rest ih =>
    rw [encodeToString, List.length_append, length_encodeGroup (by simp), ih]
    simp only [List.length_cons]
    omega

/-- An encoding is text of the alphabet and of padding. -/
theorem not_mem_encodeToString {b : UInt8} (hb : b ∉ encodeStd) (hpad : b ≠ padChar) (s : Text) :
    b ∉ encodeToString s := by
  have hgroup : ∀ bytes : Text, bytes.length ≤ 3 → b ∉ encodeGroup bytes := by
    intro bytes hlength hmem
    obtain hmem | hmem := List.mem_append.mp hmem
    · obtain ⟨d, hd, rfl⟩ := List.mem_map.mp hmem
      exact hb (base64Letter_spec d ((groupDigits_spec hlength).2 d hd)).2
    · exact hpad (List.eq_of_mem_replicate hmem)
  induction s using encodeToString.induct with
  | case1 => exact List.not_mem_nil
  | case2 a => exact hgroup [a] (by simp)
  | case3 a b => exact hgroup [a, b] (by simp)
  | case4 a b c rest ih =>
    rw [encodeToString, List.mem_append, not_or]
    exact ⟨hgroup [a, b, c] (by simp), ih⟩

end GoText
