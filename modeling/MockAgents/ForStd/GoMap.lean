import Mathlib.Data.List.AList
import Mathlib.Data.List.Sort
import Mathlib.Data.String.Basic

/-!
# Go maps

A Go map is modelled by Mathlib's `AList`: an association list whose keys are
distinct. Reads are `lookup`, writes are `insert` and `delete(m, k)` is `erase`.

A `range` loop over a Go map visits the entries in an unspecified order, so a
loop takes a `MapOrder`: any function that returns its entries permuted. A
result proved for every `MapOrder` holds for every iteration order the runtime
may choose.
-/

/-- A finite map from `K` to `V`. -/
abbrev GoMap (K V : Type) := AList fun _ : K => V

/-- The order in which one `range` loop visits the entries of a map. -/
structure MapOrder where
  visit : {α : Type} → List α → List α
  perm : ∀ {α : Type} (l : List α), (visit l).Perm l

/-- The order in which the entries happen to be stored. -/
def MapOrder.stored : MapOrder := ⟨fun l => l, fun _ => .refl _⟩

/-- The reverse of `MapOrder.stored`. -/
def MapOrder.reversed : MapOrder := ⟨fun l => l.reverse, fun l => l.reverse_perm⟩

@[simp] theorem MapOrder.mem_visit (ord : MapOrder) {α : Type} (l : List α) (x : α) :
    x ∈ ord.visit l ↔ x ∈ l :=
  (ord.perm l).mem_iff

namespace GoMap

variable {K V : Type} [DecidableEq K] (m : GoMap K V)

theorem lookup_eq_some_iff (k : K) (v : V) : m.lookup k = some v ↔ ⟨k, v⟩ ∈ m.entries := by
  rw [← AList.mem_lookup_iff, Option.mem_def]

theorem lookup_insert_eq (k k' : K) (v : V) :
    (m.insert k v).lookup k' = if k' = k then some v else m.lookup k' := by
  split
  · rename_i h
    rw [h, AList.lookup_insert]
  · rename_i h
    rw [AList.lookup_insert_ne h]

theorem lookup_erase_eq (k k' : K) :
    (m.erase k).lookup k' = if k' = k then none else m.lookup k' := by
  split
  · rename_i h
    rw [h, AList.lookup_erase]
  · rename_i h
    rw [AList.lookup_erase_ne h]

variable {k : K}

theorem lookup_of_lookup_erase {m : GoMap K V} {k' : K} {v : V}
    (h : (m.erase k).lookup k' = some v) : m.lookup k' = some v := by
  rw [lookup_erase_eq] at h
  split at h
  · cases h
  · exact h

theorem eq_empty_of_lookup {m : GoMap K V} (h : ∀ k, m.lookup k = none) : m = ∅ := by
  refine AList.ext (List.eq_nil_iff_forall_not_mem.mpr ?_)
  rintro ⟨k, v⟩ hmem
  exact nomatch (h k).symm.trans ((lookup_eq_some_iff m k v).mpr hmem)

/-- Two maps with the same reads hold the same entries, up to order. -/
theorem entries_perm_of_lookup_eq (m₁ m₂ : GoMap K V)
    (h : ∀ k, m₁.lookup k = m₂.lookup k) : m₁.entries.Perm m₂.entries := by
  refine List.lookup_ext m₁.nodupKeys m₂.nodupKeys fun k v => ?_
  have hk : m₁.entries.dlookup k = m₂.entries.dlookup k := h k
  rw [hk]

/-- Copying entries with distinct keys into a map, one `m[k] = v` at a time: a
    copied key reads its copied value, every other key reads as before. -/
theorem lookup_foldl_insert (l : List (Σ _ : K, V)) (hnd : l.NodupKeys)
    (m : GoMap K V) (k : K) :
    (l.foldl (fun acc e => acc.insert e.1 e.2) m).lookup k =
      (l.dlookup k).or (m.lookup k) := by
  induction l generalizing m with
  | nil => simp
  | cons e l ih =>
    obtain ⟨k₀, v₀⟩ := e
    rw [List.nodupKeys_cons] at hnd
    rw [List.foldl_cons, ih hnd.2, lookup_insert_eq]
    by_cases hk : k = k₀
    · subst hk
      -- the key does not come again in the tail
      rw [List.dlookup_eq_none.mpr hnd.1]
      simp
    · rw [if_neg hk, List.dlookup_cons_ne _ _ hk]

theorem lookup_copy (ord : MapOrder) (src m : GoMap K V) (k : K) :
    ((ord.visit src.entries).foldl (fun acc e => acc.insert e.1 e.2) m).lookup k =
      (src.lookup k).or (m.lookup k) := by
  have hperm := ord.perm src.entries
  have hnd : (ord.visit src.entries).NodupKeys :=
    (List.perm_nodupKeys hperm).mpr src.nodupKeys
  rw [lookup_foldl_insert _ hnd, List.perm_dlookup k hnd hperm]
  rfl

omit [DecidableEq K] in
theorem length_keys (m : GoMap K V) : m.keys.length = m.entries.length := by
  rw [AList.keys, List.keys, List.length_map]

theorem length_erase (h : (m.lookup k).isSome) :
    (m.erase k).entries.length + 1 = m.entries.length := by
  have hmem : k ∈ m.keys := AList.lookup_isSome.mp h
  rw [← length_keys, ← length_keys, AList.keys_erase, List.length_erase_of_mem hmem]
  have := List.length_pos_of_mem hmem
  omega

theorem length_insert_le (k : K) (v : V) :
    (m.insert k v).entries.length ≤ m.entries.length + 1 := by
  rw [AList.entries_insert, List.length_cons]
  have := (List.kerase_sublist k m.entries).length_le
  omega

theorem length_insert (v : V) (h : (m.lookup k).isSome) :
    (m.insert k v).entries.length = m.entries.length := by
  have hmem : k ∈ m.keys := AList.lookup_isSome.mp h
  rw [← length_keys, ← length_keys, AList.keys_insert, List.length_cons,
    List.length_erase_of_mem hmem]
  have := List.length_pos_of_mem hmem
  omega

variable {α : Type}

/-- Writing one entry for every element of a list, later ones over earlier ones: a key
    is present if some element has it, or if it was there before. -/
theorem isSome_lookup_foldl_insert (key : α → K) (val : α → V) (l : List α) (m : GoMap K V)
    (k : K) :
    ((l.foldl (fun m a => m.insert (key a) (val a)) m).lookup k).isSome ↔
      k ∈ l.map key ∨ (m.lookup k).isSome := by
  induction l generalizing m with
  | nil => simp
  | cons a l ih =>
    rw [List.foldl_cons, ih, lookup_insert_eq, List.map_cons]
    by_cases hk : k = key a
    · simp [hk]
    · simp [hk]

/-- A value read from such a map was written for some element, or was there before. -/
theorem lookup_foldl_insert_eq_some (key : α → K) (val : α → V) (l : List α) (m : GoMap K V)
    {v : V} (h : (l.foldl (fun m a => m.insert (key a) (val a)) m).lookup k = some v) :
    (∃ a ∈ l, key a = k ∧ val a = v) ∨ m.lookup k = some v := by
  induction l generalizing m with
  | nil => exact Or.inr h
  | cons a l ih =>
    obtain ⟨b, hb, hkey, hval⟩ | hm := ih (m.insert (key a) (val a)) h
    · exact Or.inl ⟨b, List.mem_cons_of_mem a hb, hkey, hval⟩
    · rw [lookup_insert_eq] at hm
      split at hm
      · rename_i hk
        exact Or.inl ⟨a, List.mem_cons_self, hk.symm, Option.some.inj hm⟩
      · exact Or.inr hm

/-- Grouping the elements of a list under their keys, in order. -/
theorem lookup_foldl_group (key : α → K) (l : List α) (m : GoMap K (List α)) (k : K) :
    ((l.foldl (fun m a => m.insert (key a) ((m.lookup (key a)).getD [] ++ [a])) m).lookup
      k).getD [] = (m.lookup k).getD [] ++ l.filter fun a => key a = k := by
  induction l generalizing m with
  | nil => simp
  | cons a l ih =>
    rw [List.foldl_cons, ih]
    by_cases hk : k = key a
    · subst hk
      simp
    · have hk' : ¬ key a = k := fun h => hk h.symm
      simp [hk, hk']

/-! ## Maps of maps

A Go `map[K]map[L]V` whose inner maps are created on the first write and dropped
when they become empty. -/

variable {L : Type} [DecidableEq L]

/-- `m[k][l]`, where reading a missing inner map reads nothing. -/
def get₂ (m : GoMap K (GoMap L V)) (k : K) (l : L) : Option V :=
  (m.lookup k).bind fun inner => inner.lookup l

/-- `m[k][l] = v`, creating `m[k]` if needed. -/
def insert₂ (m : GoMap K (GoMap L V)) (k : K) (l : L) (v : V) : GoMap K (GoMap L V) :=
  m.insert k (((m.lookup k).getD ∅).insert l v)

/-- `delete(m[k], l)`, dropping `m[k]` when it becomes empty. -/
def erase₂ (m : GoMap K (GoMap L V)) (k : K) (l : L) : GoMap K (GoMap L V) :=
  match m.lookup k with
  | none => m
  | some inner =>
    if (inner.erase l).entries.isEmpty then m.erase k else m.insert k (inner.erase l)

theorem get₂_eq_some_iff (m : GoMap K (GoMap L V)) (k : K) (l : L) (v : V) :
    get₂ m k l = some v ↔ ∃ inner, ⟨k, inner⟩ ∈ m.entries ∧ ⟨l, v⟩ ∈ inner.entries := by
  simp only [get₂, Option.bind_eq_some_iff, lookup_eq_some_iff]

theorem get₂_insert₂ (m : GoMap K (GoMap L V)) (k k' : K) (l l' : L) (v : V) :
    get₂ (insert₂ m k l v) k' l' = if k' = k ∧ l' = l then some v else get₂ m k' l' := by
  simp only [get₂, insert₂, lookup_insert_eq]
  by_cases hk : k' = k
  · subst hk
    rw [if_pos rfl, Option.bind_some, lookup_insert_eq]
    by_cases hl : l' = l
    · rw [if_pos hl, if_pos ⟨rfl, hl⟩]
    · rw [if_neg hl, if_neg fun h => hl h.2]
      cases m.lookup k' with
      | none => rfl
      | some inner => rfl
  · rw [if_neg hk, if_neg fun h => hk h.1]

theorem get₂_erase₂ (m : GoMap K (GoMap L V)) (k k' : K) (l l' : L) :
    get₂ (erase₂ m k l) k' l' = if k' = k ∧ l' = l then none else get₂ m k' l' := by
  cases hm : m.lookup k with
  | none =>
    simp only [erase₂, hm]
    split
    · rename_i h
      rw [get₂, h.1, hm, Option.bind_none]
    · rfl
  | some inner =>
    -- both branches leave the reads of `inner.erase l` at `k`
    have hread : get₂ (erase₂ m k l) k' l' =
        if k' = k then (inner.erase l).lookup l' else get₂ m k' l' := by
      simp only [erase₂, hm]
      split
      · rename_i hempty
        have hnil : (inner.erase l).entries = [] := List.isEmpty_iff.mp hempty
        have hnone : (inner.erase l).lookup l' = none := by
          rw [AList.lookup, hnil, List.dlookup_nil]
        simp only [get₂, lookup_erase_eq, hnone]
        by_cases hk : k' = k
        · rw [if_pos hk, if_pos hk, Option.bind_none]
        · rw [if_neg hk, if_neg hk]
      · simp only [get₂, lookup_insert_eq]
        by_cases hk : k' = k
        · rw [if_pos hk, if_pos hk, Option.bind_some]
        · rw [if_neg hk, if_neg hk]
    rw [hread]
    by_cases hk : k' = k
    · subst hk
      rw [if_pos rfl, lookup_erase_eq]
      by_cases hl : l' = l
      · rw [if_pos hl, if_pos ⟨rfl, hl⟩]
      · rw [if_neg hl, if_neg fun h => hl h.2, get₂, hm, Option.bind_some]
    · rw [if_neg hk, if_neg fun h => hk h.1]

end GoMap

/-! ## Sorting -/

/-- Go's `sort.Strings`, and `sort.Slice` by a string key. -/
def sortBy {α : Type} (key : α → String) (l : List α) : List α :=
  l.insertionSort fun a b => key a ≤ key b

theorem mem_sortBy {α : Type} (key : α → String) (l : List α) (a : α) :
    a ∈ sortBy key l ↔ a ∈ l :=
  (List.perm_insertionSort (fun a b => key a ≤ key b) l).mem_iff

/-- Sorting forgets the order of its input when no two elements share a key. -/
theorem sortBy_eq_of_perm {α : Type} (key : α → String) {l₁ l₂ : List α}
    (hinj : ∀ a ∈ l₁, ∀ b ∈ l₁, key a = key b → a = b) (h : l₁.Perm l₂) :
    sortBy key l₁ = sortBy key l₂ := by
  have hp₁ := List.perm_insertionSort (fun a b => key a ≤ key b) l₁
  have hp₂ := List.perm_insertionSort (fun a b => key a ≤ key b) l₂
  have hs₁ := List.pairwise_insertionSort (fun a b : α => key a ≤ key b) l₁
  have hs₂ := List.pairwise_insertionSort (fun a b : α => key a ≤ key b) l₂
  refine List.Perm.eq_of_pairwise ?_ hs₁ hs₂ (hp₁.trans (h.trans hp₂.symm))
  intro a b ha hb hab hba
  have hb₁ : b ∈ l₁ := h.mem_iff.mpr (hp₂.mem_iff.mp hb)
  exact hinj a (hp₁.mem_iff.mp ha) b hb₁ (le_antisymm hab hba)
