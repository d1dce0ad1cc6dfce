import Mathlib.Data.List.Nodup
import Mathlib.Data.List.Perm.Subperm

/-!
# Association lists

A map as the list of its entries, read with `List.lookup`. `setEntry` is `m[k] = v`.
-/

namespace List

variable {κ β : Type} {l : List (κ × β)} {k : κ}

/-- Distinct keys that are among as many other keys are all of them. -/
theorem mem_keys_of_length_eq {l' : List (κ × β)} (hnodup : (l.map Prod.fst).Nodup)
    (hlen : l.length = l'.length) (hsub : ∀ k ∈ l.map Prod.fst, k ∈ l'.map Prod.fst)
    (hk : k ∈ l'.map Prod.fst) : k ∈ l.map Prod.fst := by
  have hperm : (l.map Prod.fst).Perm (l'.map Prod.fst) :=
    (subperm_of_subset hnodup hsub).perm_of_length_le (by simp [hlen])
  exact hperm.mem_iff.mpr hk

variable [DecidableEq κ]

/-- Write one entry, in the place of the old one if there is one. -/
def setEntry (k : κ) (v : β) : List (κ × β) → List (κ × β)
  | [] => [(k, v)]
  | e :: l => if e.1 = k then (k, v) :: l else e :: setEntry k v l

/-! ## Reading -/

theorem lookup_cons_eq_ite (e : κ × β) (l : List (κ × β)) (k : κ) :
    (e :: l).lookup k = if k = e.1 then some e.2 else l.lookup k := by
  by_cases hk : k = e.1
  · rw [lookup_cons, beq_iff_eq.mpr hk, if_pos hk]
  · rw [lookup_cons, beq_false_of_ne hk, if_neg hk]

variable {e : κ × β}

theorem lookup_cons_of_ne (h : k ≠ e.1) (l : List (κ × β)) : (e :: l).lookup k = l.lookup k := by
  rw [lookup_cons_eq_ite, if_neg h]

variable {v : β}

theorem mem_of_lookup (h : l.lookup k = some v) : (k, v) ∈ l := by
  induction l with
  | nil => cases h
  | cons e l ih =>
    rw [lookup_cons] at h
    split at h
    · rename_i heq
      obtain rfl := eq_of_beq heq
      cases h
      exact mem_cons_self
    · exact mem_cons_of_mem _ (ih h)

theorem isSome_lookup_iff : (l.lookup k).isSome = true ↔ k ∈ l.map Prod.fst := by
  induction l with
  | nil => simp
  | cons e l ih =>
    by_cases hk : k = e.1
    · simp [hk]
    · simp [hk, lookup_cons_of_ne hk]

theorem lookup_of_mem (hnodup : (l.map Prod.fst).Nodup) (h : (k, v) ∈ l) : l.lookup k = some v := by
  induction l with
  | nil => cases h
  | cons e l ih =>
    rw [map_cons, nodup_cons] at hnodup
    rcases mem_cons.mp h with rfl | h
    · simp
    · have hne : k ≠ e.1 := by
        rintro rfl
        exact hnodup.1 (mem_map.mpr ⟨(e.1, v), h, rfl⟩)
      rw [lookup_cons_of_ne hne]
      exact ih hnodup.2 h

/-! ## Writing -/

theorem mem_of_mem_setEntry (h : e ∈ setEntry k v l) : e = (k, v) ∨ e ∈ l := by
  induction l with
  | nil => exact .inl (mem_singleton.mp h)
  | cons e' l ih =>
    rw [setEntry] at h
    split at h
    · rcases mem_cons.mp h with h | h
      · exact .inl h
      · exact .inr (mem_cons_of_mem _ h)
    · rcases mem_cons.mp h with h | h
      · exact .inr (h ▸ mem_cons_self)
      · exact (ih h).imp_right (mem_cons_of_mem _)

theorem nodup_keys_setEntry (h : (l.map Prod.fst).Nodup) (k : κ) (v : β) :
    ((setEntry k v l).map Prod.fst).Nodup := by
  induction l with
  | nil => simp [setEntry]
  | cons e l ih =>
    rw [map_cons, nodup_cons] at h
    rw [setEntry]
    split
    · rename_i heq
      simpa [← heq] using h
    · rename_i hne
      rw [map_cons, nodup_cons]
      refine ⟨fun hmem => ?_, ih h.2⟩
      obtain ⟨e', he', heq⟩ := mem_map.mp hmem
      rcases mem_of_mem_setEntry he' with rfl | he'
      · exact hne heq.symm
      · exact h.1 (mem_map.mpr ⟨e', he', heq⟩)

end List

