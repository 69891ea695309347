import Mathlib.Data.Finmap

/-!
# Ranging over a map

Go visits the entries of a map in an order that it leaves open and may change from one loop to
the next. A map is a `Finmap`, and a `Range` is one of the orders in which a loop may visit it.
What a loop computes is stated through `lookup` where the order does not matter; where it does,
`Range.exists_getElem?_filter` says that every order can occur.
-/

namespace GoMap

variable {α : Type*} {β : α → Type*}

/-- One order in which a loop may visit the entries of a map. -/
structure Range (m : Finmap β) where
  entries : List (Sigma β)
  coe_entries : (entries : Multiset (Sigma β)) = m.entries

namespace Range

variable {m : Finmap β}

/-- Every map has an order of visiting. -/
theorem nonempty (m : Finmap β) : Nonempty (Range m) := by
  obtain ⟨entries, hentries⟩ := Quot.exists_rep m.entries
  exact ⟨⟨entries, hentries⟩⟩

/-- Two loops visit the same entries. -/
theorem perm (first second : Range m) : first.entries.Perm second.entries :=
  Multiset.coe_eq_coe.mp (first.coe_entries.trans second.coe_entries.symm)

/-- A rearrangement of what one loop visits is what another may visit. -/
def rearrange (r : Range m) (entries : List (Sigma β)) (h : entries.Perm r.entries) : Range m :=
  ⟨entries, (Multiset.coe_eq_coe.mpr h).trans r.coe_entries⟩

/-- A loop visits the entries of the map. -/
theorem mem_entries [DecidableEq α] (r : Range m) {key : α} {value : β key} :
    ⟨key, value⟩ ∈ r.entries ↔ m.lookup key = some value := by
  rw [← Multiset.mem_coe, r.coe_entries]
  exact Finmap.mem_lookup_iff.symm

/-- A loop visits no key twice. -/
theorem nodup_keys (r : Range m) : (r.entries.map Sigma.fst).Nodup := by
  have hkeys := m.nodupKeys
  rw [← r.coe_entries] at hkeys
  exact Multiset.coe_nodupKeys.mp hkeys

/-- A loop visits no entry twice. -/
theorem nodup (r : Range m) : r.entries.Nodup := List.Nodup.of_map _ r.nodup_keys

/-- A loop visits every key once. -/
theorem eq_of_key_eq [DecidableEq α] (r : Range m) {first second : Sigma β} (hfirst : first ∈ r.entries)
    (hsecond : second ∈ r.entries) (hkey : first.1 = second.1) : first = second := by
  obtain ⟨key, value⟩ := first
  obtain ⟨other, otherValue⟩ := second
  obtain rfl : key = other := hkey
  have hsame := (r.mem_entries.mp hfirst).symm.trans (r.mem_entries.mp hsecond)
  rw [Option.some.inj hsame]

/-- The order that visits the keys as they are given. -/
def ofKeys [DecidableEq α] (visited : List α) (hnodup : visited.Nodup)
    (hkeys : ∀ key, key ∈ visited ↔ key ∈ m) : Range m where
  entries := visited.filterMap fun key => (m.lookup key).map (Sigma.mk key)
  coe_entries := by
    refine (Multiset.Nodup.ext (Multiset.coe_nodup.mpr ?_) m.nodup_entries).mpr fun entry => ?_
    · refine hnodup.filterMap fun first second entry hfirst hsecond => ?_
      obtain ⟨value, -, rfl⟩ := Option.map_eq_some_iff.mp hfirst
      obtain ⟨other, -, hsame⟩ := Option.map_eq_some_iff.mp hsecond
      exact (congrArg Sigma.fst hsame).symm
    · obtain ⟨key, value⟩ := entry
      rw [Multiset.mem_coe, List.mem_filterMap, ← Finmap.mem_lookup_iff]
      constructor
      · intro hvisited
        obtain ⟨other, -, hother⟩ := hvisited
        obtain ⟨found, hfound, hsame⟩ := Option.map_eq_some_iff.mp hother
        cases hsame
        exact hfound
      · intro hlookup
        exact ⟨key, (hkeys key).mpr (Finmap.mem_of_lookup_eq_some hlookup), by rw [hlookup]; rfl⟩

/-- Any entry that satisfies a test can be met at any place among those that do. -/
theorem exists_getElem?_filter [DecidableEq (Sigma β)] (r : Range m) (test : Sigma β → Bool)
    {entry : Sigma β} (hmem : entry ∈ r.entries.filter test) {i : ℕ}
    (hi : i < (r.entries.filter test).length) :
    ∃ other : Range m, (other.entries.filter test)[i]? = some entry := by
  set passing := r.entries.filter test with hpassing
  have hlen : i ≤ (passing.erase entry).length := by
    rw [List.length_erase_of_mem hmem]
    omega
  set moved := (passing.erase entry).insertIdx i entry with hmoved
  have hperm : moved.Perm passing :=
    (List.perm_insertIdx entry (passing.erase entry) hlen).trans (List.perm_cons_erase hmem).symm
  have hall : moved.filter test = moved := by
    refine List.filter_eq_self.mpr fun e he => ?_
    exact List.of_mem_filter (hperm.mem_iff.mp he)
  have hrest : (r.entries.filter (fun e => !test e)).filter test = [] := by
    refine List.filter_eq_nil_iff.mpr fun e he => ?_
    simpa using List.of_mem_filter he
  refine ⟨r.rearrange (moved ++ r.entries.filter (fun e => !test e)) ?_, ?_⟩
  · exact (hperm.append_right _).trans (List.filter_append_perm test r.entries)
  · rw [rearrange, List.filter_append, hall, hrest, List.append_nil, hmoved]
    rw [List.getElem?_insertIdx_self, if_pos hlen]

end Range

/-- What a map has once a value was stored. -/
theorem lookup_insert_eq_some {γ : Type*} [DecidableEq α] {m : Finmap fun _ : α => γ} {key other : α}
    {value otherValue : γ} :
    (m.insert key value).lookup other = some otherValue ↔
      other = key ∧ otherValue = value ∨ other ≠ key ∧ m.lookup other = some otherValue := by
  by_cases hsame : other = key
  · subst hsame
    rw [Finmap.lookup_insert, Option.some.injEq, eq_comm (a := value)]
    simp
  · rw [Finmap.lookup_insert_of_ne _ hsame]
    simp [hsame]

/-- What a map has once a key was deleted. -/
theorem lookup_erase_eq_some {γ : Type*} [DecidableEq α] {m : Finmap fun _ : α => γ} {key other : α}
    {value : γ} :
    (m.erase key).lookup other = some value ↔ other ≠ key ∧ m.lookup other = some value := by
  by_cases hsame : other = key
  · subst hsame
    rw [Finmap.lookup_erase]
    simp
  · rw [Finmap.lookup_erase_ne hsame]
    simp [hsame]

/-- The loop that keeps the one element that satisfies a test and gives up at a second. -/
def soleLoop {γ : Type*} (test : γ → Bool) : Option γ → List γ → Option γ
  | found, [] => found
  | found, x :: rest =>
    if test x then
      match found with
      | some _ => none
      | none => soleLoop test (some x) rest
    else soleLoop test found rest

/-- Once an element was found the loop keeps it only if no other passes. -/
theorem soleLoop_some {γ : Type*} (test : γ → Bool) (found : γ) (l : List γ) :
    soleLoop test (some found) l = if l.filter test = [] then some found else none := by
  induction l with
  | nil => rfl
  | cons x rest ih =>
    by_cases hx : test x = true
    · simp [soleLoop, hx]
    · simp [soleLoop, hx, ih]

/-- The loop finds an element exactly when it is the only one that passes. -/
theorem soleLoop_none_eq_some {γ : Type*} (test : γ → Bool) (l : List γ) (x : γ) :
    soleLoop test none l = some x ↔ l.filter test = [x] := by
  induction l with
  | nil => simp [soleLoop]
  | cons y rest ih =>
    by_cases hy : test y = true
    · rw [soleLoop, if_pos hy, soleLoop_some, List.filter_cons_of_pos hy]
      split_ifs with hrest
      · rw [hrest, Option.some.injEq, List.cons.injEq, and_iff_left rfl]
      · simp [hrest]
    · rw [soleLoop, if_neg hy, List.filter_cons_of_neg hy, ih]

/-- A list without duplicates is a singleton exactly if it has one member. -/
theorem eq_singleton_iff_of_nodup {α : Type*} {l : List α} (h : l.Nodup) {x : α} :
    l = [x] ↔ x ∈ l ∧ ∀ y ∈ l, y = x := by
  constructor
  · rintro rfl
    simp
  · intro hsole
    refine List.perm_singleton.mp ((List.perm_ext_iff_of_nodup h (List.nodup_singleton x)).mpr ?_)
    intro y
    rw [List.mem_singleton]
    exact ⟨hsole.2 y, fun heq => heq ▸ hsole.1⟩

/-- A list without duplicates is longer than one exactly if it has two members. -/
theorem two_le_length_iff_of_nodup {α : Type*} [DecidableEq α] {l : List α} (h : l.Nodup) :
    2 ≤ l.length ↔ ∃ x y, x ∈ l ∧ y ∈ l ∧ x ≠ y := by
  rw [← List.toFinset_card_of_nodup h, ← Nat.lt_iff_add_one_le, Finset.one_lt_card_iff]
  simp only [List.mem_toFinset]

/-- In whatever order the map is visited, the loop finds the only entry that passes. -/
theorem Range.soleLoop_eq_some [DecidableEq α] {m : Finmap β} (r : Range m)
    (test : Sigma β → Bool) {key : α} {value : β key} :
    soleLoop test none r.entries = some ⟨key, value⟩ ↔
      m.lookup key = some value ∧ test ⟨key, value⟩ = true ∧
        ∀ other otherValue, m.lookup other = some otherValue →
          test ⟨other, otherValue⟩ = true → other = key := by
  rw [soleLoop_none_eq_some]
  constructor
  · intro h
    have hmem : ⟨key, value⟩ ∈ r.entries.filter test := by rw [h]; exact List.mem_singleton_self _
    refine ⟨r.mem_entries.mp (List.mem_of_mem_filter hmem), List.of_mem_filter hmem, ?_⟩
    intro other otherValue hother htest
    have hin : ⟨other, otherValue⟩ ∈ r.entries.filter test :=
      List.mem_filter.mpr ⟨r.mem_entries.mpr hother, htest⟩
    rw [h, List.mem_singleton] at hin
    exact congrArg Sigma.fst hin
  · intro hsole
    obtain ⟨hkey, htest, honly⟩ := hsole
    refine (eq_singleton_iff_of_nodup (r.nodup.filter _)).mpr ⟨?_, fun entry hin => ?_⟩
    · exact List.mem_filter.mpr ⟨r.mem_entries.mpr hkey, htest⟩
    · obtain ⟨other, otherValue⟩ := entry
      have hentry := List.mem_of_mem_filter hin
      have hother := honly other otherValue (r.mem_entries.mp hentry) (List.of_mem_filter hin)
      exact r.eq_of_key_eq hentry (r.mem_entries.mpr hkey) hother

/-- A loop whose turns all leave a part of the state alone leaves it alone. -/
theorem foldl_frame {σ γ ρ : Type*} {step : σ → γ → σ} (view : σ → ρ) {l : List γ}
    (hstep : ∀ s, ∀ x ∈ l, view (step s x) = view s) (s : σ) : view (l.foldl step s) = view s := by
  induction l generalizing s with
  | nil => rfl
  | cons x rest ih =>
    rw [List.foldl_cons, ih fun s y hy => hstep s y (List.mem_cons_of_mem _ hy)]
    exact hstep s x List.mem_cons_self

/-- A loop that stores one value under the keys of a list stores it under these keys only. -/
theorem lookup_foldl_insert {α β γ : Type*} [DecidableEq α] (key : γ → α) (value : β) (l : List γ)
    (m : Finmap fun _ : α => β) (k : α) :
    (l.foldl (fun m x => m.insert (key x) value) m).lookup k =
      if k ∈ l.map key then some value else m.lookup k := by
  induction l generalizing m with
  | nil => simp
  | cons x rest ih =>
    rw [List.foldl_cons, ih]
    by_cases hrest : k ∈ rest.map key
    · simp only [List.map_cons, hrest, List.mem_cons, or_true, if_true]
    · by_cases hx : k = key x
      · rw [if_neg hrest, if_pos (by simp [hx]), hx, Finmap.lookup_insert]
      · simp only [List.map_cons, List.mem_cons, hrest, hx, or_self, if_false]
        exact Finmap.lookup_insert_of_ne _ hx

/-- A loop of which one turn only changes a part of the state changes it as that turn does, under an
invariant of the loop. -/
theorem foldl_focus {σ γ ρ : Type*} {step : σ → γ → σ} (I : σ → Prop) (view : σ → ρ)
    (change : ρ → ρ) {l : List γ} {x : γ} (hmem : x ∈ l) (hnodup : l.Nodup)
    (hkeep : ∀ s, ∀ y ∈ l, I s → I (step s y))
    (hother : ∀ s, ∀ y ∈ l, y ≠ x → view (step s y) = view s)
    (hself : ∀ s, I s → view (step s x) = change (view s)) {s : σ} (hs : I s) :
    view (l.foldl step s) = change (view s) := by
  induction l generalizing s with
  | nil => cases hmem
  | cons y rest ih =>
    obtain ⟨hnew, hnodup⟩ := List.nodup_cons.mp hnodup
    rw [List.foldl_cons]
    by_cases hy : y = x
    · subst hy
      rw [foldl_frame view fun s z hz => hother s z (List.mem_cons_of_mem _ hz) fun h => hnew (h ▸ hz)]
      exact hself s hs
    · have hrest := (List.mem_cons.mp hmem).resolve_left (Ne.symm hy)
      rw [ih hrest hnodup (fun s z hz => hkeep s z (List.mem_cons_of_mem _ hz))
          (fun s z hz => hother s z (List.mem_cons_of_mem _ hz)) (hkeep s y List.mem_cons_self hs),
        hother s y List.mem_cons_self hy]

end GoMap
