import Mathlib.Data.List.Nodup
import Mathlib.Data.List.Pairwise
import MockAgents.ForStd.Json

/-!
# Decoding an object into a struct

`json.Unmarshal` goes through the members of an object in order. A member that names no
field is skipped, and the first value that does not fit its field is the error, which is
returned after the other members were stored. A field keeps what its members left in it, so
the result depends on the members of each field and on the first error only.
-/

/-- A struct type as the decoder sees it. What a value does to a field may depend on what
    the field holds, whether it fits does not. -/
structure StructType where
  Field : Type
  decEq : DecidableEq Field
  Val : Field → Type
  zero : (f : Field) → Val f
  named : Bytes → Option Field
  /-- The error of a value that does not fit the type of a field. -/
  mismatch : Field → Json → Option String
  store : (f : Field) → Val f → Json → Val f

namespace StructType

instance (T : StructType) : DecidableEq T.Field := T.decEq

abbrev State (T : StructType) : Type := (f : T.Field) → T.Val f

variable (T : StructType)

/-- One member, with the error so far. -/
def member (acc : Option String × T.State) (m : Bytes × Json) : Option String × T.State :=
  match T.named m.1 with
  | none => acc
  | some f =>
    match T.mismatch f m.2 with
    | some err => (acc.1.or (some err), acc.2)
    | none => (acc.1, Function.update acc.2 f (T.store f (acc.2 f) m.2))

/-- Decode the members of an object, given with the strings that their keys stand for. -/
def decode (ms : List (Bytes × Json)) : Except String T.State :=
  let acc := ms.foldl T.member (none, T.zero)
  match acc.1 with
  | some err => .error err
  | none => .ok acc.2

/-! ## What the result depends on -/

def memberError (m : Bytes × Json) : Option String := (T.named m.1).bind (T.mismatch · m.2)

def firstError (ms : List (Bytes × Json)) : Option String := ms.findSome? T.memberError

def values (f : T.Field) (ms : List (Bytes × Json)) : List Json :=
  (ms.filter fun m => T.named m.1 = some f).map (·.2)

/-- What the members leave in a field. -/
def stored (f : T.Field) (ms : List (Bytes × Json)) : T.Val f :=
  (T.values f ms).foldl (T.store f) (T.zero f)

theorem firstError_append (ms ms' : List (Bytes × Json)) :
    T.firstError (ms ++ ms') = (T.firstError ms).or (T.firstError ms') :=
  List.findSome?_append

theorem firstError_cons (m : Bytes × Json) (ms : List (Bytes × Json)) :
    T.firstError (m :: ms) = (T.memberError m).or (T.firstError ms) := by
  rw [firstError, List.findSome?_cons]
  cases T.memberError m <;> rfl

theorem values_append (f : T.Field) (ms ms' : List (Bytes × Json)) :
    T.values f (ms ++ ms') = T.values f ms ++ T.values f ms' := by
  simp [values]

variable {m : Bytes × Json}

theorem values_cons_of_named {f : T.Field} (h : T.named m.1 = some f) (ms : List (Bytes × Json)) :
    T.values f (m :: ms) = m.2 :: T.values f ms := by
  simp [values, h]

theorem values_cons_of_ne {f : T.Field} (h : T.named m.1 ≠ some f) (ms : List (Bytes × Json)) :
    T.values f (m :: ms) = T.values f ms := by
  simp [values, h]

private theorem foldl_member_fst (ms : List (Bytes × Json)) (acc : Option String × T.State) :
    (ms.foldl T.member acc).1 = acc.1.or (T.firstError ms) := by
  induction ms generalizing acc with
  | nil => simp [firstError]
  | cons m ms ih =>
    rw [List.foldl_cons, ih, firstError_cons]
    simp only [member, memberError]
    cases hnamed : T.named m.1 with
    | none => rfl
    | some f =>
      simp only [Option.bind_some]
      cases hfit : T.mismatch f m.2 with
      | none => rfl
      | some err => cases acc.1 <;> rfl

/-- A field holds what its own values leave in it. -/
private theorem foldl_member_snd {ms : List (Bytes × Json)} (h : T.firstError ms = none)
    (acc : Option String × T.State) (f : T.Field) :
    (ms.foldl T.member acc).2 f = (T.values f ms).foldl (T.store f) (acc.2 f) := by
  induction ms generalizing acc with
  | nil => rfl
  | cons m ms ih =>
    obtain ⟨hm, hms⟩ : T.memberError m = none ∧ T.firstError ms = none := by
      simpa [firstError_cons] using h
    rw [List.foldl_cons, ih hms]
    simp only [member]
    cases hnamed : T.named m.1 with
    | none => rw [values_cons_of_ne T (by simp [hnamed])]
    | some g =>
      have hfit : T.mismatch g m.2 = none := by simpa [memberError, hnamed] using hm
      simp only [hfit]
      by_cases hfg : f = g
      · subst hfg
        rw [values_cons_of_named T hnamed, List.foldl_cons, Function.update_self]
      · have hne : T.named m.1 ≠ some f := by
          rw [hnamed]
          exact fun heq => hfg (Option.some.inj heq).symm
        rw [values_cons_of_ne T hne, Function.update_of_ne hfg]

theorem decode_of_error {ms : List (Bytes × Json)} {err : String}
    (h : T.firstError ms = some err) : T.decode ms = .error err := by
  simp [decode, foldl_member_fst, h]

theorem decode_of_none {ms : List (Bytes × Json)} (h : T.firstError ms = none) :
    T.decode ms = .ok fun f => T.stored f ms := by
  have hfields : (ms.foldl T.member (none, T.zero)).2 = fun f => T.stored f ms :=
    funext fun f => foldl_member_snd T h (none, T.zero) f
  simp [decode, foldl_member_fst, h, hfields]

/-- Two objects decode alike if they have the same first error, or none and leave the same
    in every field. -/
theorem decode_eq_iff (ms ms' : List (Bytes × Json)) :
    T.decode ms = T.decode ms' ↔
      T.firstError ms = T.firstError ms' ∧
        (T.firstError ms' = none → ∀ f, T.stored f ms = T.stored f ms') := by
  cases hms : T.firstError ms with
  | some err =>
    cases hms' : T.firstError ms' with
    | some err' => simp [decode_of_error T hms, decode_of_error T hms']
    | none => simp [decode_of_error T hms, decode_of_none T hms']
  | none =>
    cases hms' : T.firstError ms' with
    | some err' => simp [decode_of_none T hms, decode_of_error T hms']
    | none =>
      rw [decode_of_none T hms, decode_of_none T hms', Except.ok.injEq]
      constructor
      · intro heq
        exact ⟨rfl, fun _ f => congrFun heq f⟩
      · rintro ⟨_, heq⟩
        exact funext (heq rfl)

theorem firstError_eq_none_iff (ms : List (Bytes × Json)) :
    T.firstError ms = none ↔ ∀ m ∈ ms, T.memberError m = none :=
  List.findSome?_eq_none_iff

/-! ## Fields that are named once -/

/-- No field is named by two members. -/
def NamedOnce (ms : List (Bytes × Json)) : Prop :=
  ms.Pairwise fun m m' => T.named m.1 = T.named m'.1 → T.named m.1 = none

instance (ms : List (Bytes × Json)) : Decidable (T.NamedOnce ms) :=
  inferInstanceAs (Decidable (ms.Pairwise _))

variable {T} {ms ms' : List (Bytes × Json)} {f : T.Field}

/-- The member that names a field is determined by it. -/
theorem NamedOnce.eq_of_named (h : T.NamedOnce ms) {m' : Bytes × Json} (hm : m ∈ ms)
    (hm' : m' ∈ ms) (hf : T.named m.1 = some f) (hf' : T.named m'.1 = some f) : m = m' := by
  by_contra hne
  have : Std.Symm fun m m' : Bytes × Json =>
      T.named m.1 = T.named m'.1 → T.named m.1 = none :=
    ⟨fun a b hab heq => heq ▸ hab heq.symm⟩
  have hnone := List.Pairwise.forall h hm hm' hne (hf.trans hf'.symm)
  rw [hf] at hnone
  cases hnone

/-- The order of the members does not matter, nor do members that name no field. -/
theorem NamedOnce.values_eq (h : T.NamedOnce ms) (hnodup : ms'.Nodup) (hsub : ms' ⊆ ms)
    (hkeep : ∀ m ∈ ms, T.named m.1 = some f → m ∈ ms') : T.values f ms' = T.values f ms := by
  have hiff : ∀ m, m ∈ ms'.filter (fun m => T.named m.1 = some f) ↔
      m ∈ ms.filter (fun m => T.named m.1 = some f) := by
    intro m
    simp only [List.mem_filter, decide_eq_true_eq]
    exact ⟨fun hm => ⟨hsub hm.1, hm.2⟩, fun hm => ⟨hkeep m hm.1 hm.2, hm.2⟩⟩
  have honce := h.filter fun m => T.named m.1 = some f
  unfold values
  cases hms : ms.filter (fun m => T.named m.1 = some f) with
  | nil =>
    rw [hms] at hiff
    rw [List.eq_nil_iff_forall_not_mem.mpr fun m hm => nomatch (hiff m).mp hm]
  | cons m rest =>
    have hnamed : ∀ m' ∈ m :: rest, m' ∈ ms ∧ T.named m'.1 = some f := by
      intro m' hm'
      rw [← hms] at hm'
      simpa only [List.mem_filter, decide_eq_true_eq] using hm'
    -- a second member would name the field again
    have hrest : rest = [] := by
      cases rest with
      | nil => rfl
      | cons m' rest =>
        rw [hms] at honce
        have hnone := (List.pairwise_cons.mp honce).1 m' (by simp)
          ((hnamed m (by simp)).2.trans (hnamed m' (by simp)).2.symm)
        rw [(hnamed m (by simp)).2] at hnone
        cases hnone
    subst hrest
    rw [hms] at hiff
    rw [List.perm_singleton.mp ((List.perm_ext_iff_of_nodup (hnodup.filter _)
      (List.nodup_singleton m)).mpr hiff)]

variable (T)

/-! ## Changing the values -/

variable {g : Json → Json}

theorem firstError_map {ms : List (Bytes × Json)}
    (hg : ∀ m ∈ ms, ∀ f, T.mismatch f (g m.2) = T.mismatch f m.2) :
    T.firstError (ms.map fun m => (m.1, g m.2)) = T.firstError ms := by
  induction ms with
  | nil => rfl
  | cons m ms ih =>
    rw [List.map_cons, firstError_cons, firstError_cons, ih fun m' hm' => hg m' (by simp [hm'])]
    simp only [memberError, hg m (by simp)]

theorem values_map (g : Json → Json) (f : T.Field) (ms : List (Bytes × Json)) :
    T.values f (ms.map fun m => (m.1, g m.2)) = (T.values f ms).map g := by
  simp [values, List.filter_map, Function.comp_def]

theorem stored_map {f : T.Field} {ms : List (Bytes × Json)}
    (hg : ∀ m ∈ ms, ∀ old, T.store f old (g m.2) = T.store f old m.2) :
    T.stored f (ms.map fun m => (m.1, g m.2)) = T.stored f ms := by
  have hvalues : ∀ v ∈ T.values f ms, ∀ old, T.store f old (g v) = T.store f old v := by
    intro v hv
    obtain ⟨m, hm, rfl⟩ := List.mem_map.mp hv
    exact hg m (List.mem_filter.mp hm).1
  rw [stored, values_map, List.foldl_map]
  exact List.foldl_ext _ _ _ fun old v hv => hvalues v hv old

end StructType
