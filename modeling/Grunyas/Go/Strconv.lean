import Grunyas.Go.Strings
import Grunyas.Numeral.Positional

/-!
# Decimal numbers as `strconv` reads and writes them

`strconv.Atoi` reads a sign and decimal digits into a 64-bit integer. The digits are accumulated in a
64-bit word from the left, so of a number that is too large and malformed further on the range is
reported. The fast path of the library for short texts gives the same results and is not modelled
apart. A number that fits is read back from its digits (`atoi_decimal`).
-/

namespace GoText

open Positional

/-- What is wrong with a text that is no number, or not one of 64 bits. -/
inductive NumErrorKind where
  | errSyntax
  | errRange
  deriving DecidableEq, Repr

/-- The `strconv.NumError` of a text. -/
structure NumError where
  num : Text
  kind : NumErrorKind
  deriving DecidableEq, Repr

/-- The value of a decimal digit. -/
def digitValue (b : UInt8) : Option ℕ :=
  if 0x30 ≤ b.toNat ∧ b.toNat ≤ 0x39 then some (b.toNat - 0x30) else none

/-- The loop of `strconv.ParseUint` over decimal digits, from the value read so far. -/
def parseUintFrom : ℕ → Text → Except NumErrorKind ℕ
  | n, [] => .ok n
  | n, b :: s =>
    match digitValue b with
    | none => .error .errSyntax
    | some d => if n * 10 + d < 2 ^ 64 then parseUintFrom (n * 10 + d) s else .error .errRange

/-- The `strconv.Atoi` function. -/
def atoi (s : Text) : Except NumError ℤ :=
  let negative := hasPrefix s (text "-")
  let digits := if negative || hasPrefix s (text "+") then s.drop 1 else s
  if digits = [] then .error ⟨s, .errSyntax⟩
  else match parseUintFrom 0 digits with
    | .error kind => .error ⟨s, kind⟩
    | .ok n =>
      if negative then (if n ≤ 2 ^ 63 then .ok (-n) else .error ⟨s, .errRange⟩)
      else if n < 2 ^ 63 then .ok n else .error ⟨s, .errRange⟩

/-- The byte of a decimal digit. -/
def digitByte (d : ℕ) : UInt8 := .ofNat (0x30 + d)

/-- The decimal digits of a number, as `strconv.Itoa` writes them. -/
def decimal (n : ℕ) : Text := if n = 0 then text "0" else (Nat.digits 10 n).reverse.map digitByte

example : atoi (text "-12") = .ok (-12) ∧ atoi (text "+") = .error ⟨text "+", .errSyntax⟩ := by decide

/-- The digits of a number, most significant first. -/
theorem exists_decimal (n : ℕ) : ∃ ds : List ℕ, ds ≠ [] ∧ (∀ d ∈ ds, d < 10) ∧
    decimal n = ds.map digitByte ∧ value 10 ds = n := by
  by_cases hn : n = 0
  · exact ⟨[0], by simp, by simp, by rw [decimal, if_pos hn]; decide, by rw [hn]; rfl⟩
  · refine ⟨(Nat.digits 10 n).reverse, ?_, ?_, by rw [decimal, if_neg hn], ?_⟩
    · simpa [Nat.digits_eq_nil_iff_eq_zero] using hn
    · intro d hd
      exact Nat.digits_lt_base (by decide) (List.mem_reverse.mp hd)
    · rw [value, List.reverse_reverse, Nat.ofDigits_digits]

/-- A byte of a decimal digit is read as the digit, and is no sign. -/
theorem digitByte_spec : ∀ d < 10, digitValue (digitByte d) = some d ∧
    0x30 ≤ (digitByte d).toNat ∧ (digitByte d).toNat ≤ 0x39 := by
  decide

/-- A decimal number has decimal digits only. -/
theorem not_mem_decimal {b : UInt8} (hb : b.toNat < 0x30 ∨ 0x39 < b.toNat) (n : ℕ) : b ∉ decimal n := by
  obtain ⟨ds, -, hds, hdecimal, -⟩ := exists_decimal n
  rw [hdecimal]
  intro hmem
  obtain ⟨d, hd, rfl⟩ := List.mem_map.mp hmem
  have hdigit := (digitByte_spec d (hds d hd)).2
  omega

/-- Digits are accumulated until the word is full. -/
theorem parseUintFrom_map_digitByte {ds : List ℕ} (hds : ∀ d ∈ ds, d < 10) {n : ℕ} (hn : n < 2 ^ 64) :
    parseUintFrom n (ds.map digitByte) =
      if n * 10 ^ ds.length + value 10 ds < 2 ^ 64 then .ok (n * 10 ^ ds.length + value 10 ds)
      else .error .errRange := by
  induction ds generalizing n with
  | nil =>
    rw [List.length_nil, Nat.pow_zero, Nat.mul_one, value_nil, Nat.add_zero, if_pos hn]
    rfl
  | cons d ds ih =>
    rw [List.forall_mem_cons] at hds
    have hvalue : n * 10 ^ (d :: ds).length + value 10 (d :: ds) =
        (n * 10 + d) * 10 ^ ds.length + value 10 ds := by
      rw [value_cons, List.length_cons, Nat.pow_succ]
      ring
    rw [List.map_cons, parseUintFrom, (digitByte_spec d hds.1).1, hvalue]
    dsimp only
    by_cases hfits : n * 10 + d < 2 ^ 64
    · rw [if_pos hfits, ih hds.2 hfits]
    · -- the number is at least what has been read of it
      have hmore := Nat.le_mul_of_pos_right (n * 10 + d) (Nat.pow_pos (n := ds.length) (show 0 < 10 by decide))
      rw [if_neg hfits, if_neg (by omega)]

/-- A decimal number is read back if it is one of 64 bits with a sign. -/
theorem atoi_decimal (n : ℕ) :
    atoi (decimal n) = if n < 2 ^ 63 then .ok n else .error ⟨decimal n, .errRange⟩ := by
  obtain ⟨ds, hne, hds, hdecimal, hvalue⟩ := exists_decimal n
  obtain ⟨d, rest, rfl⟩ := List.exists_cons_of_ne_nil hne
  have hsign : ∀ sign : UInt8, sign.toNat < 0x30 → hasPrefix (decimal n) [sign] = false := by
    intro sign hlt
    have hd := (digitByte_spec d (hds d List.mem_cons_self)).2.1
    have hother : sign ≠ digitByte d := by
      rintro rfl
      omega
    rw [hdecimal, List.map_cons, hasPrefix, List.isPrefixOf, beq_false_of_ne hother, Bool.false_and]
  have hminus : hasPrefix (decimal n) (text "-") = false := hsign 0x2D (by decide)
  have hplus : hasPrefix (decimal n) (text "+") = false := hsign 0x2B (by decide)
  have hparse := parseUintFrom_map_digitByte hds (show 0 < 2 ^ 64 by decide)
  rw [← hdecimal, hvalue, Nat.zero_mul, Nat.zero_add] at hparse
  have hsome : decimal n ≠ [] := by
    rw [hdecimal]
    exact List.cons_ne_nil _ _
  simp only [atoi, hminus, hplus, Bool.or_self, Bool.false_eq_true, if_false, if_neg hsome, hparse]
  by_cases hword : n < 2 ^ 64
  · rw [if_pos hword]
  · rw [if_neg hword, if_neg (by omega)]

end GoText
