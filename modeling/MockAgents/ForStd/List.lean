import Mathlib.Data.List.Basic

/-!
# Lists

Functions that may fail over a list, the first element with a property, and counting.
-/

namespace List

variable {α β : Type}

/-! ## Functions that may fail -/

variable {f : α → Option β} {l : List α}

theorem mapM_eq_some_map {g : α → β} (h : ∀ a ∈ l, f a = some (g a)) :
    l.mapM f = some (l.map g) := by
  induction l with
  | nil => rfl
  | cons a l ih =>
    rw [mapM_cons, h a (by simp), ih fun x hx => h x (by simp [hx])]
    rfl

theorem exists_mapM_eq_some (h : ∀ a ∈ l, (f a).isSome = true) : ∃ bs, l.mapM f = some bs := by
  induction l with
  | nil => exact ⟨[], rfl⟩
  | cons a l ih =>
    obtain ⟨b, hb⟩ := Option.isSome_iff_exists.mp (h a (by simp))
    obtain ⟨bs, hbs⟩ := ih fun x hx => h x (by simp [hx])
    exact ⟨b :: bs, by rw [mapM_cons, hb, hbs]; rfl⟩

theorem exists_of_mem_mapM {bs : List β} (h : l.mapM f = some bs) {b : β} (hb : b ∈ bs) :
    ∃ a ∈ l, f a = some b := by
  induction l generalizing bs with
  | nil =>
    cases h
    cases hb
  | cons a l ih =>
    rw [mapM_cons] at h
    obtain ⟨b', hb', h⟩ := Option.bind_eq_some_iff.mp h
    obtain ⟨bs', hbs', h⟩ := Option.bind_eq_some_iff.mp h
    cases h
    rcases mem_cons.mp hb with rfl | hb
    · exact ⟨a, mem_cons_self, hb'⟩
    · obtain ⟨a', ha', heq⟩ := ih hbs' hb
      exact ⟨a', mem_cons_of_mem a ha', heq⟩

/-! ## First elements -/

/-- The first element with a property. -/
def IsFirst (P : α → Prop) (l : List α) (a : α) : Prop :=
  ∃ l₁ l₂, l = l₁ ++ a :: l₂ ∧ P a ∧ ∀ b ∈ l₁, ¬ P b

section

variable {P : α → Prop} {l : List α} {a : α}

open Classical in
theorem isFirst_iff_find? : IsFirst P l a ↔ (l.find? fun b => decide (P b)) = some a := by
  rw [find?_eq_some_iff_append]
  constructor
  · rintro ⟨l₁, l₂, hl, hP, hnot⟩
    exact ⟨decide_eq_true hP, l₁, l₂, hl, fun b hb => by simpa using hnot b hb⟩
  · rintro ⟨hP, l₁, l₂, hl, hnot⟩
    exact ⟨l₁, l₂, hl, of_decide_eq_true hP, fun b hb => by simpa using hnot b hb⟩

theorem IsFirst.unique {b : α} (ha : IsFirst P l a) (hb : IsFirst P l b) : a = b :=
  Option.some.inj ((isFirst_iff_find?.mp ha).symm.trans (isFirst_iff_find?.mp hb))

theorem IsFirst.holds (h : IsFirst P l a) : P a := by
  obtain ⟨_, _, _, hP, _⟩ := h
  exact hP

theorem IsFirst.mem (h : IsFirst P l a) : a ∈ l := by
  obtain ⟨l₁, l₂, rfl, _⟩ := h
  simp

theorem exists_isFirst (ha : a ∈ l) (hP : P a) : ∃ b, IsFirst P l b := by
  classical
  have hsome : (l.find? fun b => decide (P b)).isSome :=
    find?_isSome.mpr ⟨a, ha, decide_eq_true hP⟩
  obtain ⟨b, hb⟩ := Option.isSome_iff_exists.mp hsome
  exact ⟨b, isFirst_iff_find?.mpr hb⟩

end

/-! ## Counting -/

/-- A part of a list that is as large as the whole is all of it. -/
theorem imp_of_countP_eq {p q : α → Bool} (himp : ∀ a ∈ l, p a = true → q a = true)
    (h : l.countP p = l.countP q) : ∀ a ∈ l, q a = true → p a = true := by
  induction l with
  | nil => simp
  | cons a l ih =>
    obtain ⟨ha, hl⟩ := forall_mem_cons.mp himp
    have hle : l.countP p ≤ l.countP q := countP_mono_left hl
    rw [countP_cons, countP_cons] at h
    refine forall_mem_cons.mpr ⟨fun hq => ?_, ih hl ?_⟩
    · by_contra hp
      rw [if_neg hp, if_pos hq] at h
      omega
    · split at h <;> split at h
      · omega
      · rename_i hp hq
        exact absurd (ha hp) hq
      · omega
      · omega

end List
