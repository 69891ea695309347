import Mathlib.Data.List.Basic

/-!
# Sequences read block by block

A sequence whose blocks end with a marked item is read up to and including the first mark. The
requests of a pipeline and the replies to them are both such sequences.
-/

namespace Machine

variable {Item : Type*}

/-- The first block, with the mark that ends it. -/
def throughFirst (mark : Item → Bool) : List Item → List Item
  | [] => []
  | item :: items => if mark item then [item] else item :: throughFirst mark items

/-- What follows the first block. -/
def afterFirst (mark : Item → Bool) : List Item → List Item
  | [] => []
  | item :: items => if mark item then items else afterFirst mark items

/-- The two parts make up the sequence. -/
theorem throughFirst_append_afterFirst (mark : Item → Bool) (items : List Item) :
    throughFirst mark items ++ afterFirst mark items = items := by
  induction items with
  | nil => rfl
  | cons item items ih =>
    by_cases hmark : mark item = true
    · simp [throughFirst, afterFirst, hmark]
    · simp [throughFirst, afterFirst, hmark, ih]

/-- Reading a block takes away one mark, if there is any. -/
theorem countP_afterFirst (mark : Item → Bool) (items : List Item) :
    (afterFirst mark items).countP mark = items.countP mark - 1 := by
  induction items with
  | nil => rfl
  | cons item items ih =>
    by_cases hmark : mark item = true
    · simp [afterFirst, hmark]
    · simp [afterFirst, hmark, ih]

/-- A block that is complete is read as it stands. -/
theorem afterFirst_block {mark : Item → Bool} {block : List Item} {last : Item}
    (hblock : ∀ item ∈ block, mark item = false) (hlast : mark last = true) (rest : List Item) :
    afterFirst mark (block ++ last :: rest) = rest := by
  induction block with
  | nil => simp [afterFirst, hlast]
  | cons item block ih =>
    have hitem : mark item = false := hblock item List.mem_cons_self
    have hrest := ih fun x hx => hblock x (List.mem_cons_of_mem item hx)
    simpa [afterFirst, hitem] using hrest

/-- Items added behind a mark follow the first block. -/
theorem afterFirst_append_of_find {mark : Item → Bool} {items : List Item} {item : Item}
    (h : items.find? mark = some item) (rest : List Item) :
    afterFirst mark (items ++ rest) = afterFirst mark items ++ rest := by
  induction items with
  | nil => cases h
  | cons first items ih =>
    by_cases hmark : mark first = true
    · simp [afterFirst, hmark]
    · have hrest := ih (by simpa [hmark] using h)
      simpa [afterFirst, hmark] using hrest

/-- Items without a mark belong to the first block of what follows them. -/
theorem afterFirst_append_of_find_none {mark : Item → Bool} {items : List Item}
    (h : items.find? mark = none) (rest : List Item) :
    afterFirst mark (items ++ rest) = afterFirst mark rest := by
  induction items with
  | nil => rfl
  | cons first items ih =>
    have hmark : mark first = false := by simpa using (List.find?_eq_none.mp h) first (by simp)
    have hrest := ih (by simpa [hmark] using h)
    simpa [afterFirst, hmark] using hrest

/-- What follows the first block is part of the sequence. -/
theorem afterFirst_suffix (mark : Item → Bool) (items : List Item) :
    afterFirst mark items <:+ items :=
  ⟨throughFirst mark items, throughFirst_append_afterFirst mark items⟩

/-- If anything follows the first block, the sequence ends as that does. -/
theorem mem_getLast?_of_afterFirst {mark : Item → Bool} {items : List Item} {item : Item}
    (h : item ∈ (afterFirst mark items).getLast?) : item ∈ items.getLast? := by
  rw [← throughFirst_append_afterFirst mark items, List.getLast?_append]
  simp only [Option.mem_def] at h ⊢
  rw [h]
  rfl

/-- A sequence whose last item is its only mark is one block. -/
theorem afterFirst_eq_nil {mark : Item → Bool} {items : List Item} (hcount : items.countP mark ≤ 1)
    (hlast : ∀ item ∈ items.getLast?, mark item = true) : afterFirst mark items = [] := by
  obtain rfl | ⟨block, last, rfl⟩ := items.eq_nil_or_concat
  · rfl
  · have hmark : mark last = true := hlast last (by simp)
    have hblock : block.countP mark = 0 := by simpa [hmark] using hcount
    rw [List.concat_eq_append]
    apply afterFirst_block _ hmark
    intro item hitem
    simpa using List.countP_eq_zero.mp hblock item hitem

end Machine
