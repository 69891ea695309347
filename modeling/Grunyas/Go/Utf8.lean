import Grunyas.Go.Unicode

/-!
# UTF-8 decoding and encoding of byte strings

A Go string is a sequence of bytes that need not be valid UTF-8. Decoding the first or the last
rune follows `utf8.DecodeRune` and `utf8.DecodeLastRune`: bytes that do not form a rune in the
shortest encoding give `runeError` with width one. Encoding a scalar value and decoding it again,
from either end, gives the same rune with the width of its encoding.
-/

namespace GoText

/-- A Go string: its bytes, in order. -/
abbrev Text := List UInt8

/-- The bytes of a string literal. -/
def text (s : String) : Text := s.toUTF8.data.toList

/-- Whether a byte can only continue a rune, never start one. -/
def isContinuation (b : UInt8) : Bool := 0x80 ≤ b.toNat && b.toNat ≤ 0xBF

/-- Whether a byte lies in the range that may follow the given first byte. -/
def acceptsSecond (first : ℕ) (b : UInt8) : Bool :=
  let low := if first = 0xE0 then 0xA0 else if first = 0xF0 then 0x90 else 0x80
  let high := if first = 0xED then 0x9F else if first = 0xF4 then 0x8F else 0xBF
  low ≤ b.toNat && b.toNat ≤ high

/-- The first rune of a string and its width; an empty string has width zero. -/
def decodeRune : Text → ℕ × ℕ
  | [] => (runeError, 0)
  | b :: rest =>
    let first := b.toNat
    if first < 0x80 then (first, 1)
    else if first < 0xC2 ∨ 0xF4 < first then (runeError, 1)
    else match rest with
      | [] => (runeError, 1)
      | b₁ :: rest =>
        if acceptsSecond first b₁ = false then (runeError, 1)
        else if first < 0xE0 then (first % 32 * 64 + b₁.toNat % 64, 2)
        else match rest with
          | [] => (runeError, 1)
          | b₂ :: rest =>
            if isContinuation b₂ = false then (runeError, 1)
            else if first < 0xF0 then
              (first % 16 * 4096 + b₁.toNat % 64 * 64 + b₂.toNat % 64, 3)
            else match rest with
              | [] => (runeError, 1)
              | b₃ :: _ =>
                if isContinuation b₃ = false then (runeError, 1)
                else (first % 8 * 262144 + b₁.toNat % 64 * 4096 + b₂.toNat % 64 * 64 +
                  b₃.toNat % 64, 4)

/-- The number of bytes from the last rune start among the three bytes before the end. -/
def lastRuneSpan : Text → ℕ
  | b₁ :: rest =>
    if isContinuation b₁ = false then 2
    else match rest with
      | b₂ :: rest =>
        if isContinuation b₂ = false then 3
        else match rest with
          | b₃ :: _ => if isContinuation b₃ = false then 4 else 0
          | [] => 0
      | [] => 0
  | [] => 0

/-- The last rune of a string given with its bytes reversed, and its width. -/
def decodeLastRune : Text → ℕ × ℕ
  | [] => (runeError, 0)
  | b :: rest =>
    if b.toNat < 0x80 then (b.toNat, 1)
    else
      let span := lastRuneSpan rest
      let decoded := decodeRune ((b :: rest).take span).reverse
      if decoded.2 = span ∧ span ≠ 0 then decoded else (runeError, 1)

/-- Append one rune in its shortest encoding; values that are not scalars become `runeError`. -/
def encodeRune (r : ℕ) : Text :=
  if r < 0x80 then [.ofNat r]
  else if r < 0x800 then [.ofNat (0xC0 + r / 64), .ofNat (0x80 + r % 64)]
  else if (0xD800 ≤ r ∧ r < 0xE000) ∨ 0x10FFFF < r then [0xEF, 0xBF, 0xBD]
  else if r < 0x10000 then
    [.ofNat (0xE0 + r / 4096), .ofNat (0x80 + r / 64 % 64), .ofNat (0x80 + r % 64)]
  else
    [.ofNat (0xF0 + r / 262144), .ofNat (0x80 + r / 4096 % 64), .ofNat (0x80 + r / 64 % 64),
      .ofNat (0x80 + r % 64)]

/-- The Unicode scalar values: code points that are not surrogates. -/
def IsScalar (r : ℕ) : Prop := r < 0xD800 ∨ (0xE000 ≤ r ∧ r ≤ 0x10FFFF)

/-- Encode a sequence of runes. -/
def encodeRunes (rs : List ℕ) : Text := rs.flatMap encodeRune

/-- A byte built from a small number has that number as its value. -/
theorem toNat_ofNat_of_lt {n : ℕ} (h : n < 256) : (UInt8.ofNat n).toNat = n := by
  simp [Nat.mod_eq_of_lt h]

/-- The four shapes of an encoded scalar value, with the numbers its bytes stand for. -/
theorem encodeRune_cases {r : ℕ} (h : IsScalar r) :
    (r < 0x80 ∧ encodeRune r = [.ofNat r]) ∨
    (0x80 ≤ r ∧ r < 0x800 ∧ encodeRune r = [.ofNat (0xC0 + r / 64), .ofNat (0x80 + r % 64)]) ∨
    (0x800 ≤ r ∧ r < 0x10000 ∧ encodeRune r =
      [.ofNat (0xE0 + r / 4096), .ofNat (0x80 + r / 64 % 64), .ofNat (0x80 + r % 64)]) ∨
    (0x10000 ≤ r ∧ r < 0x110000 ∧ encodeRune r = [.ofNat (0xF0 + r / 262144),
      .ofNat (0x80 + r / 4096 % 64), .ofNat (0x80 + r / 64 % 64), .ofNat (0x80 + r % 64)]) := by
  unfold IsScalar at h
  unfold encodeRune
  split
  · exact Or.inl ⟨by omega, rfl⟩
  · split
    · exact Or.inr (Or.inl ⟨by omega, by omega, rfl⟩)
    · rw [if_neg (by omega)]
      split
      · exact Or.inr (Or.inr (Or.inl ⟨by omega, by omega, rfl⟩))
      · exact Or.inr (Or.inr (Or.inr ⟨by omega, by omega, rfl⟩))

/-- A byte of the form `0x80 + n` with `n < 64` continues a rune. -/
theorem isContinuation_ofNat {n : ℕ} (h : n < 64) : isContinuation (.ofNat (0x80 + n)) = true := by
  simp only [isContinuation, toNat_ofNat_of_lt (show 0x80 + n < 256 by omega)]
  simp
  omega

/-- The second byte of a three-byte encoding lies in the range its first byte accepts. -/
theorem acceptsSecond_three {r : ℕ} (h : IsScalar r) (hl : 0x800 ≤ r) (hr : r < 0x10000) :
    acceptsSecond (0xE0 + r / 4096) (.ofNat (0x80 + r / 64 % 64)) = true := by
  simp only [acceptsSecond, toNat_ofNat_of_lt (show 0x80 + r / 64 % 64 < 256 by omega),
    Bool.and_eq_true, decide_eq_true_eq]
  unfold IsScalar at h
  constructor <;> split <;> (try split) <;> omega

/-- The second byte of a four-byte encoding lies in the range its first byte accepts. -/
theorem acceptsSecond_four {r : ℕ} (hl : 0x10000 ≤ r) (hr : r < 0x110000) :
    acceptsSecond (0xF0 + r / 262144) (.ofNat (0x80 + r / 4096 % 64)) = true := by
  simp only [acceptsSecond, toNat_ofNat_of_lt (show 0x80 + r / 4096 % 64 < 256 by omega),
    Bool.and_eq_true, decide_eq_true_eq]
  constructor <;> split <;> (try split) <;> omega

/-- Decoding from the front inverts encoding, whatever follows. -/
theorem decodeRune_encodeRune {r : ℕ} (h : IsScalar r) (s : Text) :
    decodeRune (encodeRune r ++ s) = (r, (encodeRune r).length) := by
  rcases encodeRune_cases h with ⟨hr, he⟩ | ⟨hl, hr, he⟩ | ⟨hl, hr, he⟩ | ⟨hl, hr, he⟩
  · rw [he]
    simp [decodeRune, toNat_ofNat_of_lt (show r < 256 by omega), hr]
  · have h₀ := toNat_ofNat_of_lt (show 0xC0 + r / 64 < 256 by omega)
    have h₁ := toNat_ofNat_of_lt (show 0x80 + r % 64 < 256 by omega)
    have hs : acceptsSecond (0xC0 + r / 64) (.ofNat (0x80 + r % 64)) = true := by
      simp only [acceptsSecond, h₁, Bool.and_eq_true, decide_eq_true_eq]
      constructor <;> split <;> (try split) <;> omega
    rw [he]
    simp only [List.cons_append, List.nil_append, decodeRune, h₀, h₁, hs, Bool.true_eq_false,
      if_false, List.length_cons, List.length_nil]
    rw [if_neg (by omega), if_neg (by omega), if_pos (by omega)]
    exact Prod.ext (by omega) rfl
  · have h₀ := toNat_ofNat_of_lt (show 0xE0 + r / 4096 < 256 by omega)
    have h₁ := toNat_ofNat_of_lt (show 0x80 + r / 64 % 64 < 256 by omega)
    have h₂ := toNat_ofNat_of_lt (show 0x80 + r % 64 < 256 by omega)
    rw [he]
    simp only [List.cons_append, List.nil_append, decodeRune, h₀, h₁, h₂,
      acceptsSecond_three h hl hr, isContinuation_ofNat (Nat.mod_lt r (by decide : 64 > 0)),
      Bool.true_eq_false, if_false, List.length_cons, List.length_nil]
    rw [if_neg (by omega), if_neg (by omega), if_neg (by omega), if_pos (by omega)]
    exact Prod.ext (by omega) rfl
  · have h₀ := toNat_ofNat_of_lt (show 0xF0 + r / 262144 < 256 by omega)
    have h₁ := toNat_ofNat_of_lt (show 0x80 + r / 4096 % 64 < 256 by omega)
    have h₂ := toNat_ofNat_of_lt (show 0x80 + r / 64 % 64 < 256 by omega)
    have h₃ := toNat_ofNat_of_lt (show 0x80 + r % 64 < 256 by omega)
    rw [he]
    simp only [List.cons_append, List.nil_append, decodeRune, h₀, h₁, h₂, h₃,
      acceptsSecond_four hl hr, isContinuation_ofNat (Nat.mod_lt _ (by decide : 64 > 0)),
      Bool.true_eq_false, if_false, List.length_cons, List.length_nil]
    rw [if_neg (by omega), if_neg (by omega), if_neg (by omega), if_neg (by omega)]
    exact Prod.ext (by omega) rfl

/-- A first byte of a multi-byte encoding is not a continuation byte. -/
theorem isContinuation_lead {n : ℕ} (hl : 0xC0 ≤ n) (hr : n < 256) :
    isContinuation (.ofNat n) = false := by
  simp only [isContinuation, toNat_ofNat_of_lt hr, Bool.and_eq_false_iff, decide_eq_false_iff_not]
  omega

/-- The span scan finds the start of an encoded rune from its last byte. -/
theorem lastRuneSpan_encodeRune {r : ℕ} (h : IsScalar r) (hr : 0x80 ≤ r) (s : Text) :
    ∃ last rest, (encodeRune r).reverse = last :: rest ∧ ¬ last.toNat < 0x80 ∧
      lastRuneSpan (rest ++ s) = (encodeRune r).length := by
  have hc (n : ℕ) : isContinuation (.ofNat (0x80 + n % 64)) = true :=
    isContinuation_ofNat (Nat.mod_lt n (by decide))
  have hn (n : ℕ) : ¬ (UInt8.ofNat (0x80 + n % 64)).toNat < 0x80 := by
    rw [toNat_ofNat_of_lt (by omega)]
    omega
  rcases encodeRune_cases h with ⟨hr', -⟩ | ⟨hl, hr, he⟩ | ⟨hl, hr, he⟩ | ⟨hl, hr, he⟩
  · omega
  · have hf := isContinuation_lead (show 0xC0 ≤ 0xC0 + r / 64 by omega) (by omega)
    rw [he]
    refine ⟨_, _, rfl, hn r, ?_⟩
    simp only [List.cons_append, lastRuneSpan, hf]
    rfl
  · have hf := isContinuation_lead (show 0xC0 ≤ 0xE0 + r / 4096 by omega) (by omega)
    rw [he]
    refine ⟨_, _, rfl, hn r, ?_⟩
    simp only [List.cons_append, List.nil_append, lastRuneSpan, hc (r / 64), hf]
    rfl
  · have hf := isContinuation_lead (show 0xC0 ≤ 0xF0 + r / 262144 by omega) (by omega)
    rw [he]
    refine ⟨_, _, rfl, hn r, ?_⟩
    simp only [List.cons_append, List.nil_append, lastRuneSpan, hc (r / 64), hc (r / 4096), hf]
    rfl

/-- Decoding from the back inverts encoding, whatever precedes. -/
theorem decodeLastRune_encodeRune {r : ℕ} (h : IsScalar r) (s : Text) :
    decodeLastRune ((encodeRune r).reverse ++ s) = (r, (encodeRune r).length) := by
  by_cases hr : r < 0x80
  · have he : encodeRune r = [.ofNat r] := by simp [encodeRune, hr]
    rw [he]
    simp [decodeLastRune, toNat_ofNat_of_lt (show r < 256 by omega), hr]
  · obtain ⟨last, rest, hrev, hlast, hspan⟩ := lastRuneSpan_encodeRune h (by omega) s
    have hlen : (encodeRune r).length = rest.length + 1 := by
      rw [← List.length_reverse, hrev, List.length_cons]
    have htake : (last :: (rest ++ s)).take (encodeRune r).length = (encodeRune r).reverse := by
      rw [hrev, hlen, List.take_succ_cons, List.take_left]
    have hdec := decodeRune_encodeRune h []
    rw [List.append_nil] at hdec
    rw [hrev, List.cons_append]
    simp only [decodeLastRune, if_neg hlast, hspan, htake, List.reverse_reverse, hdec]
    exact if_pos ⟨trivial, by omega⟩

end GoText
