import Mathlib.Data.Fintype.Card
import Mathlib.Data.Set.Finite.Basic
import Mathlib.Logic.Relation
import Mathlib.Order.WellFounded

/-!
# Cycles of finite directed graphs

A directed graph is its edge relation. On finitely many vertices, having no cycle,
being well-founded and having no nonempty set in which every vertex has a predecessor
are the same; the lemmas here are the steps between them that the correctness of
graph-search algorithms uses.
-/

namespace Relation

variable {V : Type} {E : V → V → Prop}

/-- No vertex reaches itself along one or more edges. -/
def NoCycle (E : V → V → Prop) : Prop := ∀ v, ¬ TransGen E v v

theorem NoCycle.mono {E' : V → V → Prop} (h : NoCycle E) (hsub : ∀ u v, E' u v → E u v) :
    NoCycle E' :=
  fun v hv => h v (TransGen.mono hsub v v hv)

variable {v : V}

/-- An accessible vertex is on no cycle. -/
theorem not_transGen_self_of_acc (h : Acc E v) : ¬ TransGen E v v := by
  intro hv
  have hacc : Acc (TransGen E) v := h.transGen
  -- a cycle through `v` is a descent from `v` to itself
  induction hacc with
  | intro v _ ih => exact ih v hv h hv

theorem acc_of_reflTransGen {u : V} (h : Acc E v) (huv : ReflTransGen E u v) : Acc E u := by
  induction huv using ReflTransGen.head_induction_on with
  | refl => exact h
  | head huw _ ih => exact ih.inv huw

/-- A graph whose edges all start at finitely many vertices and that has no cycle is
    well-founded. -/
theorem NoCycle.wellFounded (h : NoCycle E) {U : Set V} (hfin : U.Finite)
    (hU : ∀ u v, E u v → u ∈ U) : WellFounded E := by
  have hwf : WellFounded fun u v : U => TransGen E u v := by
    have := hfin.to_subtype
    have hirrefl : Std.Irrefl fun u v : U => TransGen E u v := ⟨fun v => h v⟩
    exact Finite.wellFounded_of_trans_of_irrefl _
  have hacc : ∀ v : U, Acc E v := by
    intro v
    induction v using hwf.induction with
    | _ v ih =>
      exact ⟨_, fun u huv => ih ⟨u, hU u v huv⟩ (TransGen.single huv)⟩
  exact ⟨fun v => ⟨v, fun u huv => hacc ⟨u, hU u v huv⟩⟩⟩

variable {S : Set V}

/-- A finite nonempty set in which every vertex has a predecessor contains a cycle. -/
theorem not_noCycle_of_forall_pred (hfin : S.Finite) (hne : S.Nonempty)
    (hpred : ∀ v ∈ S, ∃ u ∈ S, E u v) : ¬ NoCycle E := by
  intro h
  have hinner : NoCycle fun u v => u ∈ S ∧ E u v := h.mono fun _ _ huv => huv.2
  have hwf := hinner.wellFounded hfin fun _ _ huv => huv.1
  obtain ⟨m, hm, hmin⟩ := hwf.has_min S hne
  obtain ⟨u, hu, hum⟩ := hpred m hm
  exact hmin u hu ⟨hu, hum⟩

/-- In such a set every vertex can be reached from a cycle. -/
theorem exists_cycle_reaching (hfin : S.Finite) (hpred : ∀ v ∈ S, ∃ u ∈ S, E u v) (hv : v ∈ S) :
    ∃ u, TransGen E u u ∧ ReflTransGen E u v := by
  by_contra hno
  -- among the vertices above `v` there would be no cycle
  refine not_noCycle_of_forall_pred (E := fun u w => E u w ∧ ReflTransGen E w v)
    (S := { w ∈ S | ReflTransGen E w v }) (hfin.subset fun _ hw => hw.1) ⟨v, hv, .refl⟩ ?_ ?_
  · rintro w ⟨hw, hwv⟩
    obtain ⟨u, hu, huw⟩ := hpred w hw
    exact ⟨u, ⟨hu, .head huw hwv⟩, huw, hwv⟩
  · intro u hu
    obtain ⟨_, _, _, huv⟩ := TransGen.tail'_iff.mp hu
    exact hno ⟨u, TransGen.mono (fun _ _ h => h.1) u u hu, huv⟩

/-- A search that marks a vertex, and unmarks none, has fewer unmarked vertices left. -/
theorem card_filter_lt_of_imp {S : Finset V} {p q : V → Prop} [DecidablePred p] [DecidablePred q]
    (himp : ∀ v, p v → q v) (hv : v ∈ S) (hq : q v) (hp : ¬ p v) :
    (S.filter p).card < (S.filter q).card := by
  have hsub : S.filter p ⊆ S.filter q := Finset.monotone_filter_right S fun v _ => himp v
  refine Finset.card_lt_card ((Finset.ssubset_iff_of_subset hsub).mpr ⟨v, ?_, ?_⟩)
  · exact Finset.mem_filter.mpr ⟨hv, hq⟩
  · exact fun h => hp (Finset.mem_filter.mp h).2

/-- In a well-founded graph every vertex is below one without predecessors. -/
theorem exists_root_reaching (hwf : WellFounded E) (v : V) :
    ∃ r, (∀ u, ¬ E u r) ∧ ReflTransGen E r v := by
  induction v using hwf.induction with
  | _ v ih =>
    by_cases hroot : ∃ u, E u v
    · obtain ⟨u, huv⟩ := hroot
      obtain ⟨r, hr, hru⟩ := ih u huv
      exact ⟨r, hr, hru.tail huv⟩
    · exact ⟨v, fun u huv => hroot ⟨u, huv⟩, ReflTransGen.refl⟩

end Relation
