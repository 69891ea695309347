import Grunyas.Go.Trim
import Mathlib.Data.List.Chain

/-!
# Trimming, splitting and collapsing encoded text

On the encoding of scalar values the `strings` functions act on the runes: trimming drops white space
at the ends, `strings.Fields` gives the encoded words, and the words joined by single spaces are the
text with every run of white space collapsed (`intercalate_fields`). A cut at a number of bytes leaves
valid UTF-8 exactly if it falls between two runes (`take_encodeRunes`).
-/

namespace GoText

/-- The text is valid UTF-8. -/
def Valid (s : Text) : Prop := ∃ rs : List ℕ, (∀ r ∈ rs, IsScalar r) ∧ s = encodeRunes rs

@[simp] theorem encodeRunes_nil : encodeRunes [] = [] := rfl

@[simp] theorem encodeRunes_cons (r : ℕ) (rs : List ℕ) :
    encodeRunes (r :: rs) = encodeRune r ++ encodeRunes rs := by
  rw [encodeRunes, List.flatMap_cons, encodeRunes]

theorem encodeRunes_eq_nil_iff {rs : List ℕ} : encodeRunes rs = [] ↔ rs = [] := by
  cases rs with
  | nil => simp
  | cons r rs => simp [encodeRune_ne_nil]

/-! ### Trimming and replacing -/

/-- Trimming an encoding on the left drops the leading runes. -/
theorem trimLeftFunc_encodeRunes (p : ℕ → Bool) {rs : List ℕ} (hrs : ∀ r ∈ rs, IsScalar r) :
    trimLeftFunc p (encodeRunes rs) = encodeRunes (rs.dropWhile p) := by
  induction rs with
  | nil => rfl
  | cons r rs ih =>
    rw [List.forall_mem_cons] at hrs
    have hd := decodeRune_encodeRune hrs.1 (encodeRunes rs)
    rw [encodeRunes_cons, trimLeftFunc, List.dropWhile_cons]
    cases hp : p r with
    | true =>
      rw [dropRunes_of_decode (encodeRune_ne_nil r) hd hp, if_pos rfl]
      exact ih hrs.2
    | false =>
      rw [dropRunes_of_not (encodeRune_ne_nil r) hd hp, if_neg Bool.false_ne_true, encodeRunes_cons]

/-- Trimming an encoding on the right drops the trailing white space. -/
theorem trimRightFunc_encodeRunes {rs : List ℕ} (hrs : ∀ r ∈ rs, IsScalar r) :
    trimRightFunc isSpace (encodeRunes rs) = encodeRunes (rs.rdropWhile isSpace) := by
  induction rs using List.reverseRecOn with
  | nil => rfl
  | append_singleton rs r ih =>
    rw [List.forall_mem_append, List.forall_mem_singleton] at hrs
    rw [encodeRunes_append, encodeRunes_cons, encodeRunes_nil, List.append_nil]
    cases hr : isSpace r with
    | true => rw [trimRightFunc_append_encodeRune hr, ih hrs.1, List.rdropWhile_concat_pos _ _ _ hr]
    | false =>
      rw [List.rdropWhile_concat_neg _ _ _ (by simp [hr]), trimRightFunc_of_last, encodeRunes_append,
        encodeRunes_cons, encodeRunes_nil, List.append_nil]
      rw [List.reverse_append, decodeLastRune_encodeRune hrs.2]
      exact hr

/-- Nothing is dropped in front of a list that does not start with white space. -/
theorem dropWhile_of_head? {rs : List ℕ} (h : ∀ r ∈ rs.head?, isSpace r = false) :
    rs.dropWhile isSpace = rs := by
  cases rs with
  | nil => rfl
  | cons r rs => rw [List.dropWhile_cons, if_neg (by simp [h r rfl])]

/-- Behind the white space in front there is none. -/
theorem isSpace_head?_dropWhile (rs : List ℕ) :
    ∀ r ∈ (rs.dropWhile isSpace).head?, isSpace r = false := by
  intro r hr
  have hnot := List.head?_dropWhile_not isSpace rs
  rw [Option.mem_def.mp hr] at hnot
  simpa using hnot

/-- White space dropped at both ends. -/
def trimRunes (rs : List ℕ) : List ℕ := (rs.dropWhile isSpace).rdropWhile isSpace

/-- The members of a trimmed list are members of the list. -/
theorem mem_of_mem_trimRunes {rs : List ℕ} {r : ℕ} (h : r ∈ trimRunes rs) : r ∈ rs := by
  have hfront := List.rdropWhile_prefix isSpace (rs.dropWhile isSpace)
  exact (List.dropWhile_suffix isSpace).subset (hfront.subset h)

/-- Trimming an encoding drops white space at both ends. -/
theorem trimSpace_encodeRunes {rs : List ℕ} (hrs : ∀ r ∈ rs, IsScalar r) :
    trimSpace (encodeRunes rs) = encodeRunes (trimRunes rs) := by
  rw [trimSpace, trimLeftFunc_encodeRunes _ hrs, trimRightFunc_encodeRunes, trimRunes]
  intro r hr
  exact hrs r ((List.dropWhile_suffix isSpace).subset hr)

/-- Replacing one ASCII character by another replaces the runes. -/
theorem replaceByte_encodeRunes {old new : UInt8} (hold : old.toNat < 0x80) (hnew : new.toNat < 0x80)
    {rs : List ℕ} (hrs : ∀ r ∈ rs, IsScalar r) :
    replaceByte old new (encodeRunes rs) =
      encodeRunes (rs.map fun r => if r = old.toNat then new.toNat else r) := by
  have hascii : ∀ b : UInt8, b.toNat < 0x80 → encodeRune b.toNat = [b] := by
    intro b hb
    rw [encodeRune, if_pos hb, UInt8.ofNat_toNat]
  induction rs with
  | nil => rfl
  | cons r rs ih =>
    rw [List.forall_mem_cons] at hrs
    have hrest := ih hrs.2
    rw [replaceByte] at hrest
    rw [encodeRunes_cons, replaceByte, List.map_append, hrest, List.map_cons, encodeRunes_cons]
    congr 1
    by_cases hr : r = old.toNat
    · rw [if_pos hr, hr, hascii old hold, hascii new hnew, List.map_singleton, if_pos rfl]
    · have hkeep : ∀ b ∈ encodeRune r, (if b = old then new else b) = b := by
        intro b hb
        apply if_neg
        rintro rfl
        exact hr (eq_of_mem_encodeRune hrs.1 hb hold)
      rw [if_neg hr, List.map_congr_left hkeep, List.map_id']

/-! ### Splitting at white space -/

/-- The first space of a text that does not start with one is not at its start. -/
theorem indexFunc_ne_zero {s : Text} (hfirst : isSpace (decodeRune s).1 = false) {i : ℕ}
    (h : indexFunc isSpace s = some i) : i ≠ 0 := by
  cases s with
  | nil => cases h
  | cons b s =>
    obtain ⟨head, rest, r, hne, heq, hd⟩ := exists_rune (List.cons_ne_nil b s)
    rw [hd] at hfirst
    rw [heq] at hd h
    rw [indexFunc_rune _ hne hd, if_neg (by simp [hfirst])] at h
    obtain ⟨j, -, rfl⟩ := Option.map_eq_some_iff.mp h
    have hpos := List.length_pos_of_ne_nil hne
    omega

/-- One turn of the splitting; the bound of the loop is immaterial. -/
theorem fields_eq (s : Text) : fields s =
    if trimLeftFunc isSpace s = [] then []
    else match indexFunc isSpace (trimLeftFunc isSpace s) with
      | none => [trimLeftFunc isSpace s]
      | some i => (trimLeftFunc isSpace s).take i :: fields ((trimLeftFunc isSpace s).drop i) := by
  have hshorter : ∀ (s : Text) (i : ℕ), trimLeftFunc isSpace s ≠ [] →
      indexFunc isSpace (trimLeftFunc isSpace s) = some i →
      ((trimLeftFunc isSpace s).drop i).length < s.length := by
    intro s i hne hi
    exact length_drop_lt hne (length_trimLeftFunc_le isSpace s)
      (indexFunc_ne_zero (isSpace_trimLeftFunc s) hi)
  have hturn : ∀ s, (∃ result, ∀ bound, fieldsLoop (bound + 1) s = result) ∨
      ∃ rest : Text, ∃ f : List Text → List Text, rest.length < s.length ∧
        ∀ bound, fieldsLoop (bound + 1) s = f (fieldsLoop bound rest) := by
    intro s
    by_cases hnil : trimLeftFunc isSpace s = []
    · exact Or.inl ⟨[], fun bound => by rw [fieldsLoop, if_pos hnil]⟩
    cases hi : indexFunc isSpace (trimLeftFunc isSpace s) with
    | none => exact Or.inl ⟨[trimLeftFunc isSpace s], fun bound => by rw [fieldsLoop, if_neg hnil, hi]⟩
    | some i =>
      refine Or.inr ⟨_, ((trimLeftFunc isSpace s).take i :: ·), hshorter s i hnil hi, ?_⟩
      intro bound
      rw [fieldsLoop, if_neg hnil, hi]
  rw [fields, fieldsLoop]
  by_cases hnil : trimLeftFunc isSpace s = []
  · rw [if_pos hnil, if_pos hnil]
  rw [if_neg hnil, if_neg hnil]
  cases hi : indexFunc isSpace (trimLeftFunc isSpace s) with
  | none => rfl
  | some i =>
    have hloop := loop_eq_of_length_lt hturn (hshorter s i hnil hi) (Nat.lt_succ_self _)
    exact congrArg _ hloop

/-- The first space of an encoding stands behind the first word. -/
theorem indexFunc_encodeRunes {word rest : List ℕ} (hword : ∀ r ∈ word, IsScalar r ∧ isSpace r = false)
    (hrest : ∀ r ∈ rest.head?, isSpace r = true) :
    indexFunc isSpace (encodeRunes (word ++ rest)) =
      if rest = [] then none else some (encodeRunes word).length := by
  induction word with
  | nil =>
    cases rest with
    | nil => rfl
    | cons r rest =>
      have hr := hrest r rfl
      rw [List.nil_append, encodeRunes_cons, indexFunc_rune isSpace (encodeRune_ne_nil r)
        (decodeRune_encodeRune (isScalar_of_isSpace hr) _), if_pos hr,
        if_neg (List.cons_ne_nil r rest)]
      rfl
  | cons r word ih =>
    rw [List.forall_mem_cons] at hword
    rw [List.cons_append, encodeRunes_cons, indexFunc_rune isSpace (encodeRune_ne_nil r)
      (decodeRune_encodeRune hword.1.1 _), if_neg (by simp [hword.1.2]), ih hword.2]
    split_ifs
    · rfl
    · simp [Nat.add_comm]

/-- White space in front separates nothing. -/
theorem fields_encodeRunes_dropWhile {rs : List ℕ} (hrs : ∀ r ∈ rs, IsScalar r) :
    fields (encodeRunes rs) = fields (encodeRunes (rs.dropWhile isSpace)) := by
  have hdrop : ∀ r ∈ rs.dropWhile isSpace, IsScalar r :=
    fun r hr => hrs r ((List.dropWhile_suffix isSpace).subset hr)
  rw [fields_eq, fields_eq (encodeRunes (rs.dropWhile isSpace)), trimLeftFunc_encodeRunes _ hrs,
    trimLeftFunc_encodeRunes _ hdrop, List.dropWhile_idempotent]

/-- A text that starts with a word is split behind it. -/
theorem fields_encodeRunes_append {word rest : List ℕ} (hne : word ≠ [])
    (hword : ∀ r ∈ word, IsScalar r ∧ isSpace r = false)
    (hrest : ∀ r ∈ rest.head?, isSpace r = true) (hscalar : ∀ r ∈ rest, IsScalar r) :
    fields (encodeRunes (word ++ rest)) = encodeRunes word :: fields (encodeRunes rest) := by
  have hall : ∀ r ∈ word ++ rest, IsScalar r := by
    rw [List.forall_mem_append]
    exact ⟨fun r hr => (hword r hr).1, hscalar⟩
  have hfirst : (word ++ rest).dropWhile isSpace = word ++ rest := by
    apply dropWhile_of_head?
    intro r hr
    rw [List.head?_append_of_ne_nil _ hne] at hr
    exact (hword r (List.mem_of_mem_head? hr)).2
  rw [fields_eq, trimLeftFunc_encodeRunes _ hall, hfirst,
    if_neg (by simp [encodeRunes_eq_nil_iff, hne]), indexFunc_encodeRunes hword hrest]
  cases rest with
  | nil =>
    rw [if_pos rfl, List.append_nil]
    rfl
  | cons r rest =>
    rw [if_neg (List.cons_ne_nil r rest), encodeRunes_append]
    dsimp only
    rw [List.take_left, List.drop_left]

/-! ### Collapsing white space -/

/-- Every run of white space as one space; the flag tells that the list starts within a run. -/
def collapseFrom : Bool → List ℕ → List ℕ
  | _, [] => []
  | inRun, r :: rs =>
    if isSpace r then (if inRun then collapseFrom true rs else 0x20 :: collapseFrom true rs)
    else r :: collapseFrom false rs

/-- The text with every run of white space collapsed to one space. -/
def collapse (s : Text) : Text := encodeRunes (collapseFrom false (runes s))

/-- A word in front is kept. -/
theorem collapseFrom_append_word {word : List ℕ} (hword : ∀ r ∈ word, isSpace r = false)
    (rest : List ℕ) : collapseFrom false (word ++ rest) = word ++ collapseFrom false rest := by
  induction word with
  | nil => rfl
  | cons r word ih =>
    rw [List.forall_mem_cons] at hword
    rw [List.cons_append, collapseFrom, if_neg (by simp [hword.1]), ih hword.2, List.cons_append]

/-- Within a run, its rest is dropped. -/
theorem collapseFrom_true (rs : List ℕ) :
    collapseFrom true rs = collapseFrom false (rs.dropWhile isSpace) := by
  induction rs with
  | nil => rfl
  | cons r rs ih =>
    rw [collapseFrom, List.dropWhile_cons]
    cases hr : isSpace r with
    | true => exact ih
    | false => exact (collapseFrom_append_word (List.forall_mem_singleton.mpr hr) rs).symm

/-- A word and the white space behind it. -/
theorem collapseFrom_append_space {word : List ℕ} (hword : ∀ r ∈ word, isSpace r = false) {space : ℕ}
    (hspace : isSpace space = true) (more : List ℕ) :
    collapseFrom false (word ++ space :: more) =
      word ++ 0x20 :: collapseFrom false (more.dropWhile isSpace) := by
  rw [collapseFrom_append_word hword, collapseFrom, if_pos hspace, collapseFrom_true]
  rfl

/-- More text behind only adds to what is collapsed. -/
theorem collapseFrom_append_front (inRun : Bool) (rs more : List ℕ) :
    collapseFrom inRun rs <+: collapseFrom inRun (rs ++ more) := by
  induction rs generalizing inRun with
  | nil => exact List.nil_prefix
  | cons r rs ih =>
    rw [List.cons_append, collapseFrom, collapseFrom]
    split_ifs
    · exact ih true
    · exact (List.prefix_cons_inj _).mpr (ih true)
    · exact (List.prefix_cons_inj _).mpr (ih false)

/-- Collapsing does not tell one kind of white space from another. -/
theorem collapseFrom_map {f : ℕ → ℕ} (hspace : ∀ r, isSpace (f r) = isSpace r)
    (hkeep : ∀ r, isSpace r = false → f r = r) (inRun : Bool) (rs : List ℕ) :
    collapseFrom inRun (rs.map f) = collapseFrom inRun rs := by
  induction rs generalizing inRun with
  | nil => rfl
  | cons r rs ih =>
    rw [List.map_cons, collapseFrom, collapseFrom, hspace, ih, ih]
    split_ifs with hr
    · rfl
    · rfl
    · rw [hkeep r (by simpa using hr)]

/-- The only white space is single spaces. -/
def Collapsed (rs : List ℕ) : Prop :=
  (∀ r ∈ rs, isSpace r = true → r = 0x20) ∧ rs.IsChain fun r next => ¬ (r = 0x20 ∧ next = 0x20)

theorem collapsed_cons {r : ℕ} {rs : List ℕ} : Collapsed (r :: rs) ↔
    (isSpace r = true → r = 0x20 ∧ 0x20 ∉ rs.head?) ∧ Collapsed rs := by
  have hspace : isSpace 0x20 = true := by decide
  rw [Collapsed, List.forall_mem_cons, List.isChain_cons, Collapsed]
  constructor
  · rintro ⟨⟨hr, hrs⟩, hnext, hchain⟩
    exact ⟨fun h => ⟨hr h, fun hhead => hnext _ hhead ⟨hr h, rfl⟩⟩, hrs, hchain⟩
  · rintro ⟨hr, hrs, hchain⟩
    refine ⟨⟨fun h => (hr h).1, hrs⟩, ?_, hchain⟩
    rintro next hnext ⟨rfl, rfl⟩
    exact (hr hspace).2 hnext

/-- The beginning of a collapsed list is collapsed. -/
theorem Collapsed.of_append {rs more : List ℕ} (h : Collapsed (rs ++ more)) : Collapsed rs :=
  ⟨fun r hr => h.1 r (List.mem_append_left _ hr), (List.isChain_append.mp h.2).1⟩

/-- Collapsing collapses; within a run no space comes first. -/
theorem collapsed_collapseFrom (inRun : Bool) (rs : List ℕ) :
    Collapsed (collapseFrom inRun rs) ∧ (inRun = true → 0x20 ∉ (collapseFrom inRun rs).head?) := by
  induction rs generalizing inRun with
  | nil => exact ⟨⟨List.forall_mem_nil _, List.isChain_nil⟩, fun _ => Option.not_mem_none _⟩
  | cons r rs ih =>
    rw [collapseFrom]
    cases hr : isSpace r with
    | true =>
      cases inRun with
      | true => exact ih true
      | false =>
        refine ⟨collapsed_cons.mpr ⟨fun _ => ⟨rfl, (ih true).2 rfl⟩, (ih true).1⟩, ?_⟩
        exact fun h => absurd h Bool.false_ne_true
    | false =>
      refine ⟨collapsed_cons.mpr ⟨fun h => absurd (hr.symm.trans h) Bool.false_ne_true, (ih false).1⟩, ?_⟩
      rintro - hhead
      rw [Option.mem_some_iff.mp hhead] at hr
      cases hr

/-- A collapsed list is its own collapse. -/
theorem Collapsed.collapseFrom_eq {rs : List ℕ} (h : Collapsed rs) (inRun : Bool)
    (hfirst : inRun = true → 0x20 ∉ rs.head?) : collapseFrom inRun rs = rs := by
  induction rs generalizing inRun with
  | nil => rfl
  | cons r rs ih =>
    rw [collapsed_cons] at h
    rw [collapseFrom]
    cases hr : isSpace r with
    | true =>
      obtain ⟨rfl, hnext⟩ := h.1 hr
      cases inRun with
      | true => exact absurd rfl (hfirst rfl)
      | false => exact congrArg _ (ih h.2 true fun _ => hnext)
    | false => exact congrArg (r :: ·) (ih h.2 false fun hfalse => absurd hfalse Bool.false_ne_true)

/-- The list has no white space at its ends. -/
def Framed (rs : List ℕ) : Prop :=
  (∀ r ∈ rs.head?, isSpace r = false) ∧ ∀ r ∈ rs.getLast?, isSpace r = false

/-- Trimming leaves no white space at the ends. -/
theorem framed_trimRunes (rs : List ℕ) : Framed (trimRunes rs) := by
  constructor
  · intro r hr
    obtain ⟨more, hmore⟩ := List.rdropWhile_prefix isSpace (rs.dropWhile isSpace)
    rw [← trimRunes] at hmore
    apply isSpace_head?_dropWhile rs
    rw [← hmore]
    exact List.mem_head?_append_of_mem_head? hr
  · intro r hr
    obtain ⟨hne, rfl⟩ := List.mem_getLast?_eq_getLast hr
    have hlast := List.rdropWhile_last_not isSpace _ hne
    rwa [Bool.not_eq_true] at hlast

/-- Trimming a list without white space at its ends changes nothing. -/
theorem Framed.trimRunes_eq {rs : List ℕ} (h : Framed rs) : trimRunes rs = rs := by
  rw [trimRunes, dropWhile_of_head? h.1, List.rdropWhile_eq_self_iff]
  intro hne
  rw [Bool.not_eq_true]
  exact h.2 _ (List.getLast_mem_getLast? hne)

/-- A text without white space at its ends is one word, or a word, white space and such a text. -/
theorem Framed.cases {rs : List ℕ} (hne : rs ≠ []) (h : Framed rs) :
    ∃ word rest, rs = word ++ rest ∧ word ≠ [] ∧ (∀ r ∈ word, isSpace r = false) ∧
      (rest = [] ∨ ∃ space more, rest = space :: more ∧ isSpace space = true ∧
        more.dropWhile isSpace ≠ [] ∧ Framed (more.dropWhile isSpace)) := by
  have hsplit := (List.takeWhile_append_dropWhile (p := fun r => !isSpace r) (l := rs)).symm
  refine ⟨rs.takeWhile fun r => !isSpace r, rs.dropWhile fun r => !isSpace r, hsplit, ?_, ?_, ?_⟩
  · cases rs with
    | nil => exact absurd rfl hne
    | cons r rs => simp [h.1 r rfl]
  · intro r hr
    simpa using List.mem_takeWhile_imp hr
  · have hhead := List.head?_dropWhile_not (fun r => !isSpace r) rs
    cases hrest : rs.dropWhile fun r => !isSpace r with
    | nil => exact Or.inl rfl
    | cons space more =>
      rw [hrest] at hsplit hhead
      have hspace : isSpace space = true := by simpa using hhead
      refine Or.inr ⟨space, more, rfl, hspace, ?_, isSpace_head?_dropWhile more, ?_⟩
      · intro hnil
        have hall : ∀ r ∈ space :: more, isSpace r = true :=
          List.forall_mem_cons.mpr ⟨hspace, List.dropWhile_eq_nil_iff.mp hnil⟩
        have hlast := List.getLast_mem_getLast? (List.cons_ne_nil space more)
        have hframe := h.2 _ (hsplit ▸ List.mem_getLast?_append_of_mem_getLast? hlast)
        rw [hall _ (List.getLast_mem _)] at hframe
        cases hframe
      · intro r hr
        obtain ⟨front, hfront⟩ := List.dropWhile_suffix isSpace (l := more)
        apply h.2
        rw [hsplit, ← hfront, ← List.cons_append, ← List.append_assoc]
        exact List.mem_getLast?_append_of_mem_getLast? hr

/-- The words of a text, joined by single spaces, are the text with white space collapsed. -/
theorem intercalate_fields {rs : List ℕ} (hrs : ∀ r ∈ rs, IsScalar r) (hframed : Framed rs) :
    (text " ").intercalate (fields (encodeRunes rs)) = encodeRunes (collapseFrom false rs) := by
  induction hn : rs.length using Nat.strong_induction_on generalizing rs with
  | _ n ih =>
    by_cases hne : rs = []
    · rw [hne]
      rfl
    obtain ⟨word, rest, rfl, hword, hspaces, hrest⟩ := hframed.cases hne
    rw [List.forall_mem_append] at hrs
    have hscalar : ∀ r ∈ word, IsScalar r ∧ isSpace r = false :=
      fun r hr => ⟨hrs.1 r hr, hspaces r hr⟩
    obtain rfl | ⟨space, more, rfl, hspace, hmore, hframed'⟩ := hrest
    · rw [fields_encodeRunes_append hword hscalar (fun _ h => absurd h (Option.not_mem_none _)) hrs.2,
        collapseFrom_append_word hspaces, collapseFrom, List.append_nil]
      exact List.intercalate_singleton
    · have hmoreScalar : ∀ r ∈ more.dropWhile isSpace, IsScalar r := by
        intro r hr
        exact hrs.2 r (List.mem_cons_of_mem _ ((List.dropWhile_suffix isSpace).subset hr))
      have hlength := (List.dropWhile_suffix isSpace (l := more)).length_le
      rw [List.length_append, List.length_cons] at hn
      have hjoin := ih _ (by omega) hmoreScalar hframed' rfl
      have hfields : fields (encodeRunes (more.dropWhile isSpace)) ≠ [] := by
        intro hnil
        rw [hnil, List.intercalate_nil, eq_comm, encodeRunes_eq_nil_iff] at hjoin
        obtain ⟨r, rest, hcons⟩ := List.exists_cons_of_ne_nil hmore
        rw [hcons] at hframed' hjoin
        rw [collapseFrom, if_neg (by simp [hframed'.1 r rfl])] at hjoin
        cases hjoin
      rw [fields_encodeRunes_append hword hscalar (fun r hr => by cases hr; exact hspace) hrs.2,
        fields_encodeRunes_dropWhile hrs.2, List.dropWhile_cons, if_pos hspace,
        List.intercalate_cons_of_ne_nil hfields, hjoin, collapseFrom_append_space hspaces hspace, encodeRunes_append,
        encodeRunes_cons, List.append_assoc]
      rfl

/-! ### Cutting at a number of bytes -/

/-- Valid text is the encoding of its runes. -/
theorem Valid.encodeRunes_runes {s : Text} (h : Valid s) : encodeRunes (runes s) = s := by
  obtain ⟨rs, hrs, rfl⟩ := h
  rw [runes_encodeRunes hrs]

/-- Valid text does not start with a byte that does not decode. -/
theorem Valid.decodeRune_ne {s : Text} (h : Valid s) : decodeRune s ≠ (runeError, 1) := by
  obtain ⟨rs, hrs, rfl⟩ := h
  cases rs with
  | nil => decide
  | cons r rs =>
    rw [encodeRunes_cons, decodeRune_encodeRune (hrs r List.mem_cons_self)]
    intro heq
    obtain ⟨rfl, hlength⟩ := Prod.mk.inj heq
    exact absurd hlength (by decide)

/-- What is behind the first rune of valid text is valid. -/
theorem Valid.of_encodeRune_append {r : ℕ} (hr : IsScalar r) {t : Text} (h : Valid (encodeRune r ++ t)) :
    Valid t := by
  obtain ⟨rs, hrs, heq⟩ := h
  cases rs with
  | nil => exact absurd (List.append_eq_nil_iff.mp heq).1 (encodeRune_ne_nil r)
  | cons q rs =>
    rw [List.forall_mem_cons] at hrs
    have hfirst := decodeRune_encodeRune hr t
    rw [heq, encodeRunes_cons, decodeRune_encodeRune hrs.1] at hfirst
    obtain ⟨rfl, -⟩ := Prod.mk.inj hfirst
    rw [encodeRunes_cons] at heq
    exact ⟨rs, hrs.2, List.append_cancel_left heq⟩

/-- The bytes of a rune behind its first continue it. -/
theorem exists_continuation {r m : ℕ} (hr : IsScalar r) (hpos : m ≠ 0)
    (hm : m < (encodeRune r).length) : ∃ b, (encodeRune r)[m]? = some b ∧ isContinuation b = true := by
  have hd := decodeRune_encodeRune hr []
  obtain ⟨b, he, -⟩ | ⟨b, he, -⟩ | ⟨b, cont, he, -, hcont, -⟩ := rune_cases (encodeRune_ne_nil r) hd
  · rw [he, List.length_singleton] at hm
    omega
  · rw [he, List.length_singleton] at hm
    omega
  · obtain ⟨m, rfl⟩ := Nat.exists_eq_succ_of_ne_zero hpos
    rw [he, List.length_cons] at hm
    have hlt : m < cont.length := by omega
    refine ⟨cont[m], ?_, hcont _ (List.getElem_mem hlt)⟩
    rw [he, List.getElem?_cons_succ, List.getElem?_eq_getElem hlt]

/-- A cut of an encoding falls between two runes, or at a byte that continues one; only the first
leaves valid text. -/
theorem take_encodeRunes {rs : List ℕ} (hrs : ∀ r ∈ rs, IsScalar r) (m : ℕ) :
    (∃ left right, rs = left ++ right ∧ (encodeRunes rs).take m = encodeRunes left ∧
      ∀ b ∈ (encodeRunes rs)[m]?, isContinuation b = false) ∨
    (¬ Valid ((encodeRunes rs).take m) ∧ ∃ b ∈ (encodeRunes rs)[m]?, isContinuation b = true) := by
  induction rs generalizing m with
  | nil => exact Or.inl ⟨[], [], rfl, by simp, by simp⟩
  | cons r rs ih =>
    rw [List.forall_mem_cons] at hrs
    obtain ⟨c, cont, he, hc⟩ := exists_lead hrs.1
    have hd := decodeRune_encodeRune hrs.1 (encodeRunes rs)
    by_cases hm : m = 0
    · refine Or.inl ⟨[], r :: rs, rfl, by simp [hm], ?_⟩
      intro b hb
      rw [hm, encodeRunes_cons, he] at hb
      cases hb
      exact hc
    by_cases hlt : m < (encodeRune r).length
    · refine Or.inr ⟨?_, ?_⟩
      · intro hvalid
        rw [encodeRunes_cons, List.take_append_of_le_length (by omega)] at hvalid
        exact hvalid.decodeRune_ne (decodeRune_take_of_lt hd hlt hm)
      · obtain ⟨b, hb, hcont⟩ := exists_continuation hrs.1 hm hlt
        refine ⟨b, ?_, hcont⟩
        rw [encodeRunes_cons, List.getElem?_append_left hlt]
        exact hb
    · rw [Nat.not_lt] at hlt
      have hbyte : (encodeRunes (r :: rs))[m]? = (encodeRunes rs)[m - (encodeRune r).length]? := by
        rw [encodeRunes_cons, List.getElem?_append_right hlt]
      have htake : (encodeRunes (r :: rs)).take m =
          encodeRune r ++ (encodeRunes rs).take (m - (encodeRune r).length) := by
        rw [encodeRunes_cons, List.take_append, List.take_of_length_le hlt]
      rw [hbyte, htake]
      obtain ⟨left, right, hsplit, hleft, hbound⟩ | ⟨hinvalid, hinside⟩ :=
        ih hrs.2 (m - (encodeRune r).length)
      · exact Or.inl ⟨r :: left, right, by rw [hsplit]; rfl, by rw [hleft, encodeRunes_cons], hbound⟩
      · exact Or.inr ⟨fun hvalid => hinvalid (hvalid.of_encodeRune_append hrs.1), hinside⟩

end GoText
