import Mathlib.Data.List.Lex
import Mathlib.Order.Lattice
import MockAgents.ForStd.Bytes

/-!
# Maps sorted by key

A Go map that is written with its keys in order (`encoding/json`, or `sort.Strings` over
the keys) is modelled by the list of its entries in that order, so that equal maps are
equal lists. `SortedMap.insert` is `m[k] = v`.
-/

/-- The order of bytes. -/
instance instLinearOrderUInt8 : LinearOrder UInt8 where
  le_refl a := UInt8.le_refl a
  le_trans _ _ _ := UInt8.le_trans
  le_antisymm _ _ := UInt8.le_antisymm
  le_total a b := UInt8.le_total a b
  lt_iff_le_not_ge a b := by
    rw [UInt8.lt_iff_toNat_lt, UInt8.le_iff_toNat_le, UInt8.le_iff_toNat_le]
    omega
  toDecidableLE a b := inferInstance

namespace SortedMap

open List (filter_cons_of_neg filter_cons_of_pos mem_cons nil_append pairwise_cons)

variable {κ β γ : Type} [LinearOrder κ]

/-- Write one entry. -/
def insert (k : κ) (v : β) : List (κ × β) → List (κ × β)
  | [] => [(k, v)]
  | e :: m =>
    if k < e.1 then (k, v) :: e :: m
    else if k = e.1 then (k, v) :: m
    else e :: insert k v m

/-- Write entries one after another, from the first. -/
def ofList (l : List (κ × β)) : List (κ × β) := l.foldl (fun m e => insert e.1 e.2 m) []

/-- The keys are in order, and distinct. -/
def Sorted (m : List (κ × β)) : Prop := m.Pairwise fun a b => a.1 < b.1

variable {k : κ} {v : β} {m : List (κ × β)} {e : κ × β}

theorem mem_insert (h : e ∈ insert k v m) : e = (k, v) ∨ e ∈ m := by
  induction m with
  | nil => simpa [insert] using h
  | cons e' m ih =>
    rw [insert] at h
    split at h
    · simpa using h
    · split at h
      · rcases mem_cons.mp h with h | h
        · exact .inl h
        · exact .inr (by simp [h])
      · rcases mem_cons.mp h with h | h
        · exact .inr (by simp [h])
        · rcases ih h with h | h
          · exact .inl h
          · exact .inr (by simp [h])

theorem Sorted.insert (h : Sorted m) (k : κ) (v : β) : Sorted (SortedMap.insert k v m) := by
  induction m with
  | nil => simp [Sorted, SortedMap.insert]
  | cons e m ih =>
    obtain ⟨hhead, htail⟩ := pairwise_cons.mp h
    rw [SortedMap.insert]
    split
    · rename_i hlt
      refine pairwise_cons.mpr ⟨fun e' he' => ?_, h⟩
      rcases mem_cons.mp he' with rfl | he'
      · exact hlt
      · exact lt_trans hlt (hhead e' he')
    · rename_i hnlt
      split
      · rename_i heq
        refine pairwise_cons.mpr ⟨fun e' he' => ?_, htail⟩
        show k < e'.1
        rw [heq]
        exact hhead e' he'
      · rename_i hne
        refine pairwise_cons.mpr ⟨fun e' he' => ?_, ih htail⟩
        rcases mem_insert he' with rfl | he'
        · exact lt_of_le_of_ne (not_lt.mp hnlt) (Ne.symm hne)
        · exact hhead e' he'

theorem Sorted.map (h : Sorted m) (f : β → γ) : Sorted (m.map fun e => (e.1, f e.2)) :=
  List.Pairwise.map _ (fun _ _ hlt => hlt) h

theorem sorted_ofList (l : List (κ × β)) : Sorted (ofList l) := by
  suffices ∀ m, Sorted m → Sorted (l.foldl (fun m e => insert e.1 e.2 m) m) from this [] .nil
  induction l with
  | nil => exact fun m hm => hm
  | cons e l ih => exact fun m hm => ih _ (hm.insert e.1 e.2)

variable {l : List (κ × β)}

theorem mem_ofList (h : e ∈ ofList l) : e ∈ l := by
  suffices ∀ m, e ∈ l.foldl (fun m e => insert e.1 e.2 m) m → e ∈ m ∨ e ∈ l by
    rcases this [] h with h | h
    · cases h
    · exact h
  clear h
  induction l with
  | nil => exact fun m h => .inl h
  | cons e' l ih =>
    intro m h
    rcases ih _ h with h | h
    · rcases mem_insert h with h | h
      · exact .inr (by simp [h])
      · exact .inl h
    · exact .inr (by simp [h])

theorem mem_insert_self (k : κ) (v : β) (m : List (κ × β)) : (k, v) ∈ insert k v m := by
  induction m with
  | nil => simp [insert]
  | cons e m ih =>
    rw [insert]
    split
    · simp
    · split
      · simp
      · simp [ih]

theorem mem_insert_of_ne (h : e ∈ m) (hne : e.1 ≠ k) : e ∈ insert k v m := by
  induction m with
  | nil => cases h
  | cons e' m ih =>
    rw [insert]
    split
    · simp [h]
    · split
      · rename_i heq
        rcases mem_cons.mp h with rfl | h
        · exact absurd heq.symm hne
        · simp [h]
      · rcases mem_cons.mp h with rfl | h
        · simp
        · simp [ih h]

theorem exists_mem_ofList (h : k ∈ l.map Prod.fst) : ∃ v, (k, v) ∈ ofList l := by
  suffices ∀ m : List (κ × β), (∃ v, (k, v) ∈ m) ∨ k ∈ l.map Prod.fst →
      ∃ v, (k, v) ∈ l.foldl (fun m e => insert e.1 e.2 m) m from this [] (.inr h)
  clear h
  induction l with
  | nil => exact fun m h => h.resolve_right (by simp)
  | cons e l ih =>
    intro m h
    apply ih
    by_cases hk : k = e.1
    · exact .inl ⟨e.2, hk ▸ mem_insert_self e.1 e.2 m⟩
    · rcases h with ⟨v, hv⟩ | h
      · exact .inl ⟨v, mem_insert_of_ne hv hk⟩
      · exact .inr (by simpa [hk] using h)

/-- An entry whose key is written once is there at the end. -/
theorem mem_ofList_of_unique (h : e ∈ l) (hunique : ∀ e' ∈ l, e'.1 = e.1 → e' = e) :
    e ∈ ofList l := by
  obtain ⟨v, hv⟩ := exists_mem_ofList (List.mem_map_of_mem h)
  have heq : (e.1, v) = e := hunique _ (mem_ofList hv) rfl
  rwa [heq] at hv

/-- Writing an entry of a sorted list puts it between the smaller and the greater keys. -/
theorem Sorted.insert_eq (h : Sorted m) (k : κ) (v : β) :
    SortedMap.insert k v m =
      m.filter (fun e => e.1 < k) ++ (k, v) :: m.filter (fun e => k < e.1) := by
  induction m with
  | nil => rfl
  | cons e m ih =>
    obtain ⟨hhead, htail⟩ := pairwise_cons.mp h
    rw [SortedMap.insert]
    split
    · rename_i hlt
      have hall : ∀ e' ∈ e :: m, k < e'.1 := by
        intro e' he'
        rcases mem_cons.mp he' with rfl | he'
        · exact hlt
        · exact lt_trans hlt (hhead e' he')
      have hnone : (e :: m).filter (fun e => e.1 < k) = [] :=
        List.filter_eq_nil_iff.mpr fun e' he' => by simpa using le_of_lt (hall e' he')
      have hkeep : (e :: m).filter (fun e => k < e.1) = e :: m :=
        List.filter_eq_self.mpr fun e' he' => by simpa using hall e' he'
      rw [hnone, hkeep, nil_append]
    · split
      · rename_i heq
        have hgreater : ∀ e' ∈ m, k < e'.1 := fun e' he' => heq ▸ hhead e' he'
        have hnone : m.filter (fun e => e.1 < k) = [] :=
          List.filter_eq_nil_iff.mpr fun e' he' => by simpa using le_of_lt (hgreater e' he')
        have hkeep : m.filter (fun e => k < e.1) = m :=
          List.filter_eq_self.mpr fun e' he' => by simpa using hgreater e' he'
        rw [filter_cons_of_neg (by simp [heq]), filter_cons_of_neg (by simp [heq]),
          hnone, hkeep, nil_append]
      · rename_i hnlt hne
        have hlt : e.1 < k := lt_of_le_of_ne (not_lt.mp hnlt) (Ne.symm hne)
        rw [filter_cons_of_pos (by simpa using hlt),
          filter_cons_of_neg (by simpa using le_of_lt hlt), ih htail, List.cons_append]

theorem Sorted.filter_ne (h : Sorted m) (k : κ) :
    m.filter (fun e => e.1 ≠ k) =
      m.filter (fun e => e.1 < k) ++ m.filter (fun e => k < e.1) := by
  induction m with
  | nil => rfl
  | cons e m ih =>
    obtain ⟨hhead, htail⟩ := pairwise_cons.mp h
    rcases lt_trichotomy e.1 k with hlt | heq | hgt
    · rw [filter_cons_of_pos (by simpa using ne_of_lt hlt),
        filter_cons_of_pos (by simpa using hlt),
        filter_cons_of_neg (by simpa using le_of_lt hlt), ih htail, List.cons_append]
    · rw [filter_cons_of_neg (by simp [heq]), filter_cons_of_neg (by simp [heq]),
        filter_cons_of_neg (by simp [heq]), ih htail]
    · have hnone : m.filter (fun e => e.1 < k) = [] :=
        List.filter_eq_nil_iff.mpr fun e' he' => by
          simpa using le_of_lt (lt_trans hgt (hhead e' he'))
      rw [filter_cons_of_pos (by simpa using ne_of_gt hgt),
        filter_cons_of_neg (by simpa using le_of_lt hgt),
        filter_cons_of_pos (by simpa using hgt), ih htail, hnone, nil_append,
        nil_append]

/-- An entry after all others. -/
theorem insert_of_forall_lt (h : ∀ e ∈ m, e.1 < k) : insert k v m = m ++ [(k, v)] := by
  induction m with
  | nil => rfl
  | cons e m ih =>
    have he := h e (by simp)
    have htail := ih fun e' he' => h e' (by simp [he'])
    rw [insert, if_neg (not_lt_of_gt he), if_neg (ne_of_gt he), htail]
    rfl

/-- A sorted list is its own map. -/
theorem ofList_of_sorted (h : Sorted l) : ofList l = l := by
  -- the entries written so far stay in front
  suffices ∀ m, Sorted (m ++ l) → l.foldl (fun m e => insert e.1 e.2 m) m = m ++ l from this [] h
  intro m hm
  induction l generalizing m with
  | nil => simp
  | cons e l ih =>
    have hlt : ∀ e' ∈ m, e'.1 < e.1 := by
      intro e' he'
      exact (List.pairwise_append.mp hm).2.2 e' he' e (by simp)
    have hassoc : m ++ e :: l = m ++ [e] ++ l := by simp
    have htail : Sorted l := (pairwise_cons.mp h).2
    rw [List.foldl_cons, insert_of_forall_lt hlt, hassoc]
    rw [hassoc] at hm
    exact ih htail _ hm

theorem insert_map (f : β → γ) (k : κ) (v : β) (m : List (κ × β)) :
    insert k (f v) (m.map fun e => (e.1, f e.2)) = (insert k v m).map fun e => (e.1, f e.2) := by
  induction m with
  | nil => rfl
  | cons e m ih =>
    simp only [insert, List.map_cons]
    split
    · rfl
    · split
      · rfl
      · rw [ih]
        rfl

/-- Changing the values commutes with writing the entries. -/
theorem ofList_map (f : β → γ) (l : List (κ × β)) :
    ofList (l.map fun e => (e.1, f e.2)) = (ofList l).map fun e => (e.1, f e.2) := by
  suffices ∀ m, (l.map fun e => (e.1, f e.2)).foldl (fun m e => insert e.1 e.2 m)
      (m.map fun e => (e.1, f e.2)) =
      (l.foldl (fun m e => insert e.1 e.2 m) m).map fun e => (e.1, f e.2) from this []
  induction l with
  | nil => exact fun m => rfl
  | cons e l ih =>
    intro m
    have hinsert := insert_map f e.1 e.2 m
    rw [List.map_cons, List.foldl_cons, List.foldl_cons, ← ih, ← hinsert]

end SortedMap
