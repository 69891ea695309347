import Grunyas.Numeral.Positional
import Grunyas.Go.Strings

/-!
# Event identifiers

The identifier of an event is made of 16 bytes, six of the clock and ten random ones. They are
written in 26 characters of five bits each; the source reads every group of five bits through a
16-bit window over two neighbouring bytes. Indexing an array outside its bounds is a panic.

The groups start at the highest bit, so the two bits left over are zeros at the low end: the 26
digits denote four times the number that the bytes denote (`exists_encode`). Order and distinctness
of identifiers follow from this, and so does what a decoder of the published format reads.
-/

namespace Grunyas.Decisions

open GoText Positional

/-- The base-32 alphabet. -/
def encoding : Text := text "0123456789ABCDEFGHJKMNPQRSTVWXYZ"

/-- The character at position `i`; `none` is an index out of range. -/
def encodeDigit (src : Vector UInt8 16) (i : ℕ) : Option UInt8 := do
  let bitOff := i * 5
  let byteIdx := bitOff / 8
  let bitShift := bitOff % 8
  let high ← src[byteIdx]?
  let val := high.toUInt16 <<< 8
  let val ← if byteIdx + 1 < 16 then (src[byteIdx + 1]?).map fun low => val ||| low.toUInt16
    else some val
  let val := val >>> UInt16.ofNat (16 - 5 - bitShift)
  encoding[(val &&& 0x1F).toNat]?

/-- The loop over the 26 characters. -/
def encode (src : Vector UInt8 16) : Option Text := (List.range 26).mapM (encodeDigit src)

/-- How the generator can fail: with the message of its own panic, or at an index. -/
inductive Panic where
  | message (text : Text)
  | indexOutOfRange
  deriving DecidableEq, Repr

/-- The six bytes of the clock, most significant first. -/
def timestampBytes (now : UInt64) : Vector UInt8 6 :=
  Vector.mk #[(now >>> 40).toUInt8, (now >>> 32).toUInt8, (now >>> 24).toUInt8, (now >>> 16).toUInt8,
    (now >>> 8).toUInt8, now.toUInt8] rfl

/-- The `NewULID` generator, over the clock's milliseconds and the result of reading ten random
bytes. -/
def newULID (now : UInt64) (read : Except Text (Vector UInt8 10)) : Except Panic Text :=
  match read with
  | .error err => .error (.message (text "ulid: crypto/rand.Read failed: " ++ err))
  | .ok random =>
    match encode (timestampBytes now ++ random) with
    | none => .error .indexOutOfRange
    | some dst => .ok dst

/-! ### The digits of an identifier -/

/-- Bytes are the digits of base 256. -/
def byteAlphabet : OrderedAlphabet UInt8 256 where
  letter _ := True
  digit := UInt8.toNat
  digit_lt a _ := a.toNat_lt
  lt_iff _ _ _ _ := UInt8.lt_iff_toNat_lt
  digit_inj _ _ _ _ h := UInt8.toNat_inj.mp h

/-- The number that a string of bytes denotes. -/
def bytesValue (bytes : List UInt8) : ℕ := value 256 (bytes.map byteAlphabet.digit)

/-- The alphabet is in byte order. -/
theorem lt_iff_idxOf_lt : ∀ a ∈ encoding, ∀ b ∈ encoding,
    (a < b ↔ encoding.idxOf a < encoding.idxOf b) := by
  decide +kernel

/-- The characters of the alphabet stand for their positions in it. -/
def base32Alphabet : OrderedAlphabet UInt8 32 where
  letter c := c ∈ encoding
  digit c := encoding.idxOf c
  digit_lt _ h := List.idxOf_lt_length_of_mem h
  lt_iff a b ha hb := lt_iff_idxOf_lt a ha b hb
  digit_inj _ _ ha _ h := (List.idxOf_inj ha).mp h

/-- The character for a digit. -/
def base32Letter (d : ℕ) : UInt8 := encoding.getD d 0

/-- Every digit has a character, which stands for it. -/
theorem base32Letter_spec : ∀ d < 32, encoding[d]? = some (base32Letter d) ∧
    base32Letter d ∈ encoding ∧ encoding.idxOf (base32Letter d) = d := by
  decide

/-- The digits of a string of bytes are digits of base 256. -/
theorem lt_of_mem_byteDigits (bytes : List UInt8) : ∀ d ∈ bytes.map byteAlphabet.digit, d < 256 :=
  byteAlphabet.lt_of_mem_map fun _ _ => trivial

theorem bytesValue_lt (bytes : List UInt8) : bytesValue bytes < 256 ^ bytes.length := by
  have hlt := value_lt (by decide) (lt_of_mem_byteDigits bytes)
  rwa [List.length_map] at hlt

/-- A byte of an array is a window of the number that the array denotes. -/
theorem getElem?_eq_of_lt (src : Vector UInt8 16) {k : ℕ} (hk : k < 16) :
    ∃ b, src[k]? = some b ∧ b.toNat = window 256 (15 - k) (bytesValue src.toList) := by
  have hlength : (src.toList.map byteAlphabet.digit).length = 16 := by simp
  have hwindow := getElem?_eq_window (by decide) (lt_of_mem_byteDigits src.toList) (hlength.symm ▸ hk)
  rw [hlength, List.getElem?_map, Option.map_eq_some_iff] at hwindow
  obtain ⟨b, hb, hvalue⟩ := hwindow
  exact ⟨b, by simpa using hb, hvalue⟩

/-- The high half of a 16-bit window. -/
theorem toNat_shiftLeft (high : UInt8) : (high.toUInt16 <<< 8).toNat = high.toNat * 256 := by
  have hhigh := high.toNat_lt
  have hshift : high.toNat <<< 8 < 2 ^ 16 := by
    rw [Nat.shiftLeft_eq]
    omega
  rw [UInt16.toNat_shiftLeft, UInt8.toNat_toUInt16]
  exact (Nat.mod_eq_of_lt hshift).trans (Nat.shiftLeft_eq _ _)

/-- The 16-bit window over two neighbouring bytes. -/
theorem toNat_shiftLeft_or (high low : UInt8) :
    (high.toUInt16 <<< 8 ||| low.toUInt16).toNat = high.toNat * 256 + low.toNat := by
  rw [UInt16.toNat_or, toNat_shiftLeft, UInt8.toNat_toUInt16]
  exact (Nat.shiftLeft_eq high.toNat 8 ▸ Nat.shiftLeft_add_eq_or_of_lt low.toNat_lt _).symm

/-- Shifting a 16-bit window and masking it reads five of its bits. -/
theorem toNat_shiftRight_and (val : UInt16) {n : ℕ} (hn : n < 16) :
    ((val >>> UInt16.ofNat n) &&& 0x1F).toNat = val.toNat / 2 ^ n % 32 := by
  have hmod : n % 2 ^ 16 % 16 = n := by omega
  simp only [UInt16.toNat_and, UInt16.toNat_shiftRight, UInt16.toNat_ofNat', hmod,
    Nat.shiftRight_eq_div_pow]
  exact Nat.and_two_pow_sub_one_eq_mod _ 5

/-- Two neighbouring digits of base 256 are one of base 65536. -/
theorem window_succ_mul_add (place n : ℕ) :
    window 256 (place + 1) n * 256 + window 256 place n = n / 256 ^ place % 65536 := by
  rw [window, window, Nat.pow_succ, ← Nat.div_div_eq_div_mul]
  omega

/-- The five bits below the first `bitShift` of a 16-bit window. -/
theorem mod_div_mod (m : ℕ) {bitShift : ℕ} (h : bitShift < 8) :
    m % 65536 / 2 ^ (16 - 5 - bitShift) % 32 = m / 2 ^ (16 - 5 - bitShift) % 32 := by
  interval_cases bitShift <;> omega

/-- The group of five bits at position `i`, found by whole bytes and then by bits. -/
theorem div_div_eq_window (n : ℕ) {i : ℕ} (hi : i < 26) :
    256 * n / 256 ^ (15 - i * 5 / 8) / 2 ^ (16 - 5 - i * 5 % 8) % 32 =
      window 32 (25 - i) (4 * n) := by
  have hplaces : 8 * (15 - i * 5 / 8) + (16 - 5 - i * 5 % 8) = 6 + 5 * (25 - i) := by omega
  have hscaled : 256 * n = 2 ^ 6 * (4 * n) := by omega
  rw [show 256 = 2 ^ 8 from rfl, ← Nat.pow_mul, Nat.div_div_eq_div_mul, ← Nat.pow_add, hplaces,
    Nat.pow_add, show 2 ^ 8 * n = 2 ^ 6 * (4 * n) from hscaled,
    Nat.mul_div_mul_left _ _ (by decide), Nat.pow_mul]
  rfl

/-- A 16-bit window that starts at the byte of position `i` gives the character of the digit of
weight `25 - i`. -/
theorem encoding_getElem?_eq (n : ℕ) {i : ℕ} (hi : i < 26) {val : UInt16}
    (hval : val.toNat = 256 * n / 256 ^ (15 - i * 5 / 8) % 65536) :
    encoding[((val >>> UInt16.ofNat (16 - 5 - i * 5 % 8)) &&& 0x1F).toNat]? =
      some (base32Letter (window 32 (25 - i) (4 * n))) := by
  rw [toNat_shiftRight_and val (by omega), hval, mod_div_mod _ (Nat.mod_lt _ (by decide)),
    div_div_eq_window _ hi]
  exact (base32Letter_spec _ (Nat.mod_lt _ (by decide))).1

/-- Position `i` holds the digit of weight `25 - i` of four times the number that the bytes
denote; no index leaves its array. -/
theorem encodeDigit_eq (src : Vector UInt8 16) {i : ℕ} (hi : i < 26) :
    encodeDigit src i = some (base32Letter (window 32 (25 - i) (4 * bytesValue src.toList))) := by
  have hbyte : i * 5 / 8 < 16 := by omega
  obtain ⟨high, hhigh, hhighValue⟩ := getElem?_eq_of_lt src hbyte
  by_cases hnext : i * 5 / 8 + 1 < 16
  · obtain ⟨low, hlow, hlowValue⟩ := getElem?_eq_of_lt src hnext
    have hplace : 15 - i * 5 / 8 = 15 - (i * 5 / 8 + 1) + 1 := by omega
    have hval : (high.toUInt16 <<< 8 ||| low.toUInt16).toNat =
        256 * bytesValue src.toList / 256 ^ (15 - i * 5 / 8) % 65536 := by
      rw [toNat_shiftLeft_or, hhighValue, hlowValue, hplace, window_succ_mul_add, Nat.pow_succ',
        Nat.mul_div_mul_left _ _ (by decide)]
    simp only [encodeDigit, hhigh, hlow, hnext]
    exact encoding_getElem?_eq _ hi hval
  · -- the last character starts in the last byte, which has no neighbour
    have hlast : 15 - i * 5 / 8 = 0 := by omega
    have hval : (high.toUInt16 <<< 8).toNat =
        256 * bytesValue src.toList / 256 ^ (15 - i * 5 / 8) % 65536 := by
      rw [toNat_shiftLeft, hhighValue, hlast, window, Nat.pow_zero, Nat.div_one, Nat.div_one]
      omega
    simp only [encodeDigit, hhigh, hnext]
    exact encoding_getElem?_eq _ hi hval

/-- A map that succeeds on every element gives the list of the results. -/
theorem mapM_eq_some_map {α β : Type} {f : α → Option β} {g : α → β} {as : List α}
    (h : ∀ a ∈ as, f a = some (g a)) : as.mapM f = some (as.map g) := by
  induction as with
  | nil => rfl
  | cons a as ih =>
    rw [List.mapM_cons, h a List.mem_cons_self, ih fun b hb => h b (List.mem_cons_of_mem _ hb)]
    rfl

/-- The 26 characters exist, are in the alphabet, and denote four times the number that the bytes
denote. -/
theorem exists_encode (src : Vector UInt8 16) : ∃ id, encode src = some id ∧ id.length = 26 ∧
    (∀ c ∈ id, c ∈ encoding) ∧
    value 32 (id.map base32Alphabet.digit) = 4 * bytesValue src.toList := by
  have hsome : encode src =
      some ((windows 32 26 (4 * bytesValue src.toList)).map base32Letter) := by
    rw [windows, List.map_map]
    apply mapM_eq_some_map
    intro i hi
    exact encodeDigit_eq src (List.mem_range.mp hi)
  have hdigit : ∀ d ∈ windows 32 26 (4 * bytesValue src.toList), d < 32 := by
    intro d hd
    obtain ⟨i, -, rfl⟩ := List.mem_map.mp hd
    exact Nat.mod_lt _ (by decide)
  refine ⟨_, hsome, by rw [List.length_map, length_windows], ?_, ?_⟩
  · intro c hc
    obtain ⟨d, hd, rfl⟩ := List.mem_map.mp hc
    exact (base32Letter_spec d (hdigit d hd)).2.1
  · have hread : ∀ d ∈ windows 32 26 (4 * bytesValue src.toList),
        (base32Alphabet.digit ∘ base32Letter) d = d := by
      intro d hd
      exact (base32Letter_spec d (hdigit d hd)).2.2
    have hbound := bytesValue_lt src.toList
    rw [Vector.length_toList] at hbound
    rw [List.map_map, List.map_congr_left hread, List.map_id', value_windows, Nat.mod_eq_of_lt]
    omega

/-! ### Order and distinctness -/

/-- Arrays of bytes are ordered as the numbers they denote. -/
theorem toList_lt_iff (x y : Vector UInt8 16) :
    x.toList < y.toList ↔ bytesValue x.toList < bytesValue y.toList := by
  apply byteAlphabet.lt_iff_value_lt (by decide)
  · rw [Vector.length_toList, Vector.length_toList]
  · exact fun _ _ => trivial
  · exact fun _ _ => trivial

/-- Arrays of bytes are determined by the numbers they denote. -/
theorem eq_of_bytesValue_eq {n : ℕ} {x y : Vector UInt8 n}
    (h : bytesValue x.toList = bytesValue y.toList) : x = y := by
  have hdigits : x.toList.map UInt8.toNat = y.toList.map UInt8.toNat := by
    apply value_inj (show 1 < 256 by decide) _ (lt_of_mem_byteDigits _) (lt_of_mem_byteDigits _) h
    rw [List.length_map, List.length_map, Vector.length_toList, Vector.length_toList]
  apply Vector.toList_inj.mp
  exact List.map_injective_iff.mpr (fun _ _ => UInt8.toNat_inj.mp) hdigits

/-- The clock's bytes are the six digits of its milliseconds. -/
theorem timestampBytes_map (now : UInt64) :
    (timestampBytes now).toList.map UInt8.toNat = windows 256 6 now.toNat := by
  simp [timestampBytes, windows, window, List.range_succ, Nat.shiftRight_eq_div_pow]

/-- The bytes of an identifier denote the clock's 48 bits in front of the random ones. -/
theorem bytesValue_timestampBytes_append (now : UInt64) (random : Vector UInt8 10) :
    bytesValue (timestampBytes now ++ random).toList =
      now.toNat % 2 ^ 48 * 2 ^ 80 + bytesValue random.toList := by
  rw [bytesValue, Vector.toList_append, List.map_append, value_append]
  show value 256 ((timestampBytes now).toList.map UInt8.toNat) * _ + _ = _
  rw [timestampBytes_map, value_windows, List.length_map, Vector.length_toList]
  rfl

/-- Identifiers sort and differ as the bytes they are made of: every identifier has 26 characters
of the alphabet, found without an index leaving its array, and an identifier made earlier sorts
before one made later. -/
theorem encode_preserves_order :
    (∀ x y : Vector UInt8 16, ∃ a b, encode x = some a ∧ encode y = some b ∧
      (a < b ↔ x.toList < y.toList) ∧ (a = b ↔ x = y) ∧
      a.length = 26 ∧ ∀ c ∈ a, c ∈ encoding) ∧
    ∀ (now₁ now₂ : UInt64) (random₁ random₂ : Vector UInt8 10), now₁ < now₂ →
      now₂.toNat < 2 ^ 48 → ∃ a b, newULID now₁ (.ok random₁) = .ok a ∧
        newULID now₂ (.ok random₂) = .ok b ∧ a < b := by
  have horder : ∀ x y : Vector UInt8 16, ∃ a b, encode x = some a ∧ encode y = some b ∧
      (a < b ↔ x.toList < y.toList) ∧ (a = b ↔ x = y) ∧
      a.length = 26 ∧ ∀ c ∈ a, c ∈ encoding := by
    intro x y
    obtain ⟨a, ha, halength, haletters, havalue⟩ := exists_encode x
    obtain ⟨b, hb, hblength, hbletters, hbvalue⟩ := exists_encode y
    refine ⟨a, b, ha, hb, ?_, ?_, halength, haletters⟩
    · rw [base32Alphabet.lt_iff_value_lt (by decide) (halength.trans hblength.symm) haletters
        hbletters, havalue, hbvalue, toList_lt_iff]
      omega
    · constructor
      · intro hab
        apply eq_of_bytesValue_eq
        rw [hab, hbvalue] at havalue
        omega
      · intro hxy
        rw [hxy, hb] at ha
        exact (Option.some.inj ha).symm
  refine ⟨horder, ?_⟩
  intro now₁ now₂ random₁ random₂ hnow hbound
  obtain ⟨a, b, ha, hb, hlt, -⟩ :=
    horder (timestampBytes now₁ ++ random₁) (timestampBytes now₂ ++ random₂)
  refine ⟨a, b, by simp only [newULID, ha], by simp only [newULID, hb], ?_⟩
  have hlater := UInt64.lt_iff_toNat_lt.mp hnow
  have hrandom := bytesValue_lt random₁.toList
  rw [Vector.length_toList] at hrandom
  rw [hlt, toList_lt_iff, bytesValue_timestampBytes_append, bytesValue_timestampBytes_append,
    Nat.mod_eq_of_lt (hlater.trans hbound), Nat.mod_eq_of_lt hbound]
  omega

/-- The identifiers of two neighbouring milliseconds, whatever the random bytes. -/
theorem encode_preserves_order_next : ∃ a b,
    newULID 1 (.ok (Vector.replicate 10 255)) = .ok a ∧
      newULID 2 (.ok (Vector.replicate 10 0)) = .ok b ∧ a < b :=
  encode_preserves_order.2 1 2 _ _ (by decide) (by decide)

/-! ### Reading identifiers by the published format -/

/-- The format's decoder: 26 characters are one number below `2 ^ 128`, whose high 48 bits are the
timestamp and whose low 80 bits are the randomness. -/
def decodeULID (id : Text) : Option (ℕ × ℕ) :=
  let n := value 32 (id.map base32Alphabet.digit)
  if id.length = 26 ∧ id.all encoding.contains ∧ n < 2 ^ 128 then some (n / 2 ^ 80, n % 2 ^ 80)
  else none

/-- The decoder reads four times the number, when that is a number of 128 bits. -/
theorem exists_decodeULID (now : UInt64) (random : Vector UInt8 10) :
    ∃ id, newULID now (.ok random) = .ok id ∧
      decodeULID id =
        (let n := 4 * (now.toNat % 2 ^ 48 * 2 ^ 80 + bytesValue random.toList)
         if n < 2 ^ 128 then some (n / 2 ^ 80, n % 2 ^ 80) else none) := by
  obtain ⟨id, hid, hlength, hletters, hvalue⟩ := exists_encode (timestampBytes now ++ random)
  have hall : id.all encoding.contains = true := by
    apply List.all_eq_true.mpr
    intro c hc
    exact List.contains_iff_mem.mpr (hletters c hc)
  rw [bytesValue_timestampBytes_append] at hvalue
  refine ⟨id, by simp only [newULID, hid], ?_⟩
  simp only [decodeULID, hlength, hall, hvalue, true_and]

/-- An identifier decodes to the timestamp and the randomness it was made of exactly when both are
zero: the two spare bits stand below the number and not above it. -/
theorem decodeULID_newULID_iff (now : UInt64) (random : Vector UInt8 10)
    (hnow : now.toNat < 2 ^ 48) :
    (∃ id, newULID now (.ok random) = .ok id ∧
      decodeULID id = some (now.toNat, bytesValue random.toList)) ↔
    now = 0 ∧ random = Vector.replicate 10 0 := by
  obtain ⟨id, hid, hdecode⟩ := exists_decodeULID now random
  have hzero : bytesValue (Vector.replicate 10 (0 : UInt8)).toList = 0 := by decide
  have hrandom := bytesValue_lt random.toList
  rw [Vector.length_toList] at hrandom
  rw [Nat.mod_eq_of_lt hnow] at hdecode
  constructor
  · rintro ⟨id', hid', hread⟩
    cases hid.symm.trans hid'
    rw [hdecode] at hread
    simp only [Option.ite_none_right_eq_some, Option.some.injEq, Prod.mk.injEq] at hread
    obtain ⟨-, hhigh, hlow⟩ := hread
    have hboth : now.toNat = 0 ∧ bytesValue random.toList = 0 := by omega
    exact ⟨UInt64.toNat_inj.mp hboth.1, eq_of_bytesValue_eq (hboth.2.trans hzero.symm)⟩
  · rintro ⟨rfl, rfl⟩
    refine ⟨id, hid, hdecode.trans ?_⟩
    rw [hzero]
    simp

/-- The first identifier of all decodes to itself. -/
theorem decodeULID_newULID_zero : ∃ id,
    newULID 0 (.ok (Vector.replicate 10 0)) = .ok id ∧
      decodeULID id = some ((0 : UInt64).toNat, bytesValue (Vector.replicate 10 0).toList) :=
  (decodeULID_newULID_iff 0 (Vector.replicate 10 0) (by decide)).mpr ⟨rfl, rfl⟩

/-- One millisecond is read as four. -/
theorem decodeULID_newULID_one :
    newULID 1 (.ok (Vector.replicate 10 0)) = .ok (text "00000000040000000000000000") ∧
      decodeULID (text "00000000040000000000000000") = some (4, 0) := by
  decide

end Grunyas.Decisions
