import Grunyas.Go.Maps
import Grunyas.Go.Strings
import Mathlib.Data.Rat.Init

/-!
# JSON values

The values that `encoding/json` decodes into an `interface{}`: a number is a `float64`, an object is a
map, here a list of fields with different names. A Go value that is marshalled and decoded again comes
back with its strings made valid UTF-8 (`validText`), its integers rounded (`float64OfInt`) and its maps
as objects in which, of the fields whose names have become equal, the last one in the order of the keys
survives (`objectOf`).

`Json.rewrite` goes through a value and replaces fields by their name; it does not go into what it
replaced.
-/

namespace GoJson

open GoText GoMap

/-- A decoded JSON value. -/
inductive Json where
  | null
  | bool (b : Bool)
  | number (v : ℚ)
  | string (s : Text)
  | array (items : List Json)
  | object (fields : List (Text × Json))

/-- The string with every byte that does not decode replaced. -/
def validText (s : Text) : Text := encodeRunes (runes s)

/-- The integer next to a natural number that has at most 53 binary digits before its zeros; of two
the even one. -/
def roundNat (n : ℕ) : ℕ :=
  let shift := Nat.log2 n - 52
  let quotient := n / 2 ^ shift
  let twice := 2 * (n % 2 ^ shift)
  let up := 2 ^ shift < twice ∨ (2 ^ shift = twice ∧ quotient % 2 = 1)
  (if up then quotient + 1 else quotient) * 2 ^ shift

/-- The `float64` that an integer is decoded to. -/
def float64OfInt (n : ℤ) : ℚ := ((n.sign * roundNat n.natAbs : ℤ) : ℚ)

/-- A marshalled string. -/
def ofText (s : Text) : Json := .string (validText s)

/-- A marshalled integer. -/
def ofInt (n : ℤ) : Json := .number (float64OfInt n)

/-- The fields of which none later has the same name. -/
def lastFields : List (Text × Json) → List (Text × Json)
  | [] => []
  | field :: rest =>
    if rest.any fun other => other.1 == field.1 then lastFields rest else field :: lastFields rest

/-- The entries of a map in the order of their keys. -/
def sortedEntries {V : Type*} {m : Finmap fun _ : Text => V} (order : Range m) : List (Text × V) :=
  (order.entries.map fun entry => (entry.1, entry.2)).mergeSort fun a b => decide (a.1 ≤ b.1)

/-- A marshalled map, given its fields in the order of the keys. -/
def objectOf (fields : List (Text × Json)) : Json :=
  .object (lastFields (fields.map fun field => (validText field.1, field.2)))

/-- Assign a field of an object. -/
def setField (name : Text) (value : Json) : List (Text × Json) → List (Text × Json)
  | [] => [(name, value)]
  | field :: rest => if field.1 = name then (name, value) :: rest else field :: setField name value rest

mutual

/-- Replace the fields for which there is a replacement, and go into the others. -/
def Json.rewrite (replace : Text → Json → Option Json) : Json → Json
  | .array items => .array (rewriteItems replace items)
  | .object fields => .object (rewriteFields replace fields)
  | .null => .null
  | .bool b => .bool b
  | .number v => .number v
  | .string s => .string s

/-- Go into the items of an array. -/
def rewriteItems (replace : Text → Json → Option Json) : List Json → List Json
  | [] => []
  | item :: rest => item.rewrite replace :: rewriteItems replace rest

/-- Go through the fields of an object. -/
def rewriteFields (replace : Text → Json → Option Json) : List (Text × Json) → List (Text × Json)
  | [] => []
  | (name, value) :: rest =>
    (name, (replace name value).getD (value.rewrite replace)) :: rewriteFields replace rest

end

/-- Going into the items of an array one by one. -/
@[simp] theorem rewriteItems_eq_map (replace : Text → Json → Option Json) (items : List Json) :
    rewriteItems replace items = items.map (Json.rewrite replace) := by
  induction items with
  | nil => rfl
  | cons item rest ih => rw [rewriteItems, ih, List.map_cons]

/-- A string that is not empty stays so. -/
theorem validText_ne_nil {s : Text} (h : s ≠ []) : validText s ≠ [] := by
  cases s with
  | nil => exact absurd rfl h
  | cons b s =>
    intro hvalid
    rw [validText, runes, runesFrom, encodeRunes, List.flatMap_cons, List.append_eq_nil_iff] at hvalid
    exact encodeRune_ne_nil _ hvalid.1

/-- The order of the keys does not depend on the order in which a map is visited. -/
theorem sortedEntries_eq {V : Type*} {m : Finmap fun _ : Text => V} (first second : Range m) :
    sortedEntries first = sortedEntries second := by
  have hperm : (first.entries.map fun entry => (entry.1, entry.2)).Perm
      (second.entries.map fun entry => (entry.1, entry.2)) := (first.perm second).map _
  have hkeys : ((first.entries.map fun entry => (entry.1, entry.2)).map Prod.fst).Nodup := by
    rw [List.map_map]
    exact first.nodup_keys
  have hsorted (entries : List (Text × V)) :
      (entries.mergeSort fun a b => decide (a.1 ≤ b.1)).Pairwise fun a b => a.1 ≤ b.1 := by
    refine (List.pairwise_mergeSort ?_ ?_ entries).imp of_decide_eq_true
    · intro a b c hab hbc
      exact decide_eq_true (List.le_trans (of_decide_eq_true hab) (of_decide_eq_true hbc))
    · intro a b
      rcases List.le_total a.1 b.1 with h | h <;> simp [h]
  refine List.Perm.eq_of_pairwise ?_ (hsorted _) (hsorted _)
    ((List.mergeSort_perm _ _).trans (hperm.trans (List.mergeSort_perm _ _).symm))
  intro a b ha hb hab hba
  rw [sortedEntries, List.mem_mergeSort] at ha hb
  exact List.inj_on_of_nodup_map hkeys ha (hperm.mem_iff.mpr hb) (List.le_antisymm hab hba)

end GoJson
