import Mathlib.Data.List.Induction
import MockAgents.Spec.RegistryIndex

/-!
# The legacy model index

`GetByModel` reads `byModel`, a last-writer-wins map that a write clears when it
points at the agent being removed or replaced. Whatever it returns is a registered
agent that declares the model (`ByModelSound.apply`). It is not complete: clearing the
entry forgets the other agents that declare the model, so a model whose most recent
registrant goes away is answered with nil although another agent still declares it.

`legacyOk_iff_noOrphan` says exactly when this happens: along a run the index is
complete in every state if and only if no step drops the indexed agent of a model
while another agent that declares the model stays.
-/

namespace MockAgents.AgentRegistry

variable (defs : Definitions)

/-- What `GetByModel` promises: nil exactly when no agent declares the model, and
    otherwise a registered agent that declares it. -/
def LegacyOk (r : AgentRegistry) : Prop :=
  ∀ m, m ≠ "" →
    (r.getByModel m = none ↔ ¬ ∃ p ∈ registered r, defs.model p = m) ∧
    ∀ p, r.getByModel m = some p → p ∈ registered r ∧ defs.model p = m

/-! ## What a write adds and drops -/

/-- The agent that a write puts into the registry. -/
def added : Op → Option DefPtr
  | .register p _ => p
  | .registerWithSource p _ _ => p
  | .remove _ _ => none
  | .removeForTenant _ _ _ => none

/-- The agents that a write takes out of the registry. -/
def Dropped (r : AgentRegistry) : Op → DefPtr → Prop
  | .register p _, q => ∃ p', p = some p' ∧ replaced defs r p' = some q
  | .registerWithSource p _ _, q => ∃ p', p = some p' ∧ replaced defs r p' = some q
  | .remove name _, q => Swept r name q
  | .removeForTenant name tenantID _, q => r.getOwnedForTenant name tenantID = some q

variable {r : AgentRegistry}

private theorem mem_registered_of_owned {r' : AgentRegistry} {written : String → String → Prop}
    [∀ t n, Decidable (written t n)] {new : Option DefPtr} {gone : Prop} {s : DefPtr}
    (howned : ∀ n t, r'.getOwnedForTenant n t =
      if written t n then new else r.getOwnedForTenant n t)
    (hnew : new = some s → ∃ t n, written t n)
    (hgone : ∀ t n, r.getOwnedForTenant n t = some s → (gone ↔ written t n)) :
    s ∈ registered r' ↔ new = some s ∨ (s ∈ registered r ∧ ¬ gone) := by
  simp only [mem_registered, howned]
  constructor
  · intro h
    obtain ⟨t, n, hs⟩ := h
    split at hs
    · exact .inl hs
    · rename_i hkey
      exact .inr ⟨⟨t, n, hs⟩, (hgone t n hs).not.mpr hkey⟩
  · intro h
    cases h with
    | inl hs =>
      obtain ⟨t, n, hkey⟩ := hnew hs
      exact ⟨t, n, by rw [if_pos hkey, hs]⟩
    | inr hkept =>
      obtain ⟨⟨t, n, hs⟩, hnot⟩ := hkept
      exact ⟨t, n, by rw [if_neg ((hgone t n hs).not.mp hnot), hs]⟩

/-- An agent that is registered under a key is registered under no other. -/
private theorem owned_iff (hk : Keyed defs r) {s : DefPtr} {t n t' n' : String}
    (hs : r.getOwnedForTenant n t = some s) :
    r.getOwnedForTenant n' t' = some s ↔ t = t' ∧ n = n' := by
  constructor
  · exact hk.key_unique defs hs
  · rintro ⟨rfl, rfl⟩
    exact hs

private theorem mem_registered_register (ord : MapOrder) (hk : Keyed defs r) (p : Option DefPtr)
    (s : DefPtr) :
    s ∈ registered (register defs ord r p) ↔
      p = some s ∨
      (s ∈ registered r ∧ ¬ ∃ p', p = some p' ∧ replaced defs r p' = some s) := by
  cases p with
  | none => simp [register]
  | some p =>
    simp only [Option.some.injEq, exists_eq_left']
    rw [← Option.some.injEq]
    exact mem_registered_of_owned (registerLocked_owned defs ord r p)
      (fun _ => ⟨_, _, rfl, rfl⟩) fun t n hs => owned_iff defs hk hs

/-- The registered agents after a write. -/
theorem mem_registered_apply (hk : Keyed defs r) (op : Op) (s : DefPtr) :
    s ∈ registered (apply defs r op) ↔
      added op = some s ∨ (s ∈ registered r ∧ ¬ Dropped defs r op s) := by
  cases op with
  | register p ord => exact mem_registered_register defs ord hk p s
  | registerWithSource p sourcePath ord =>
    obtain ⟨sources, hr⟩ := registerWithSource_eq defs ord r sourcePath p
    rw [AgentRegistry.apply, hr]
    exact mem_registered_register defs ord hk p s
  | remove name ord =>
    refine mem_registered_of_owned (remove_owned defs ord r name) (fun h => by cases h) ?_
    -- a registered agent has one name only
    intro t n hs
    constructor
    · rintro ⟨t', hs'⟩
      exact (hk.key_unique defs hs hs').2
    · rintro rfl
      exact ⟨t, hs⟩
  | removeForTenant name tenantID ord =>
    exact mem_registered_of_owned (removeForTenant_owned defs ord r name tenantID)
      (fun h => by cases h) fun t n hs => owned_iff defs hk hs

private theorem register_byModel (ord : MapOrder) (r : AgentRegistry) (p : Option DefPtr)
    (m : String) (hm : m ≠ "") (q : DefPtr) :
    (register defs ord r p).byModel.lookup m = some q ↔
      (p = some q ∧ defs.model q = m) ∨
      ((¬ ∃ p', p = some p' ∧ defs.model p' = m) ∧ r.byModel.lookup m = some q ∧
        ¬ ((∃ p', p = some p' ∧ replaced defs r p' = some q) ∧ defs.model q = m)) := by
  cases p with
  | none => simp [register]
  | some p =>
    simp only [register, registerLocked_byModel defs ord r p m hm q, Option.some.injEq,
      exists_eq_left']
    constructor
    · intro h
      cases h with
      | inl hnew => exact .inl ⟨hnew.2.symm, hnew.2 ▸ hnew.1⟩
      | inr hkept => exact .inr hkept
    · intro h
      cases h with
      | inl hnew => exact .inl ⟨hnew.1 ▸ hnew.2, hnew.1.symm⟩
      | inr hkept => exact .inr hkept

/-- The index after a write: it points at the added agent, and an entry of another
    model survives unless its agent is dropped. -/
theorem apply_byModel (r : AgentRegistry) (op : Op) (m : String) (hm : m ≠ "")
    (q : DefPtr) :
    (apply defs r op).byModel.lookup m = some q ↔
      (added op = some q ∧ defs.model q = m) ∨
      ((¬ ∃ p, added op = some p ∧ defs.model p = m) ∧ r.byModel.lookup m = some q ∧
        ¬ (Dropped defs r op q ∧ defs.model q = m)) := by
  cases op with
  | register p ord => exact register_byModel defs ord r p m hm q
  | registerWithSource p sourcePath ord =>
    obtain ⟨sources, hr⟩ := registerWithSource_eq defs ord r sourcePath p
    rw [AgentRegistry.apply, hr]
    exact register_byModel defs ord r p m hm q
  | remove name ord =>
    rw [AgentRegistry.apply, remove_byModel defs ord r name m hm]
    simp [added, Dropped]
  | removeForTenant name tenantID ord =>
    rw [AgentRegistry.apply, removeForTenant_byModel defs ord r name tenantID m hm]
    simp [added, Dropped]

/-! ## Soundness -/

/-- Every `byModel` entry points at a registered agent of its model. -/
def ByModelSound (r : AgentRegistry) : Prop :=
  ∀ m, m ≠ "" → ∀ p, r.byModel.lookup m = some p → p ∈ registered r ∧ defs.model p = m

/-- Every write keeps the entries sound. -/
theorem ByModelSound.apply {r : AgentRegistry} (hk : Keyed defs r)
    (h : ByModelSound defs r) (op : Op) : ByModelSound defs (apply defs r op) := by
  intro m hm q hq
  rw [mem_registered_apply defs hk]
  cases (apply_byModel defs r op m hm q).mp hq with
  | inl hnew => exact ⟨.inl hnew.1, hnew.2⟩
  | inr hkept =>
    obtain ⟨-, hold, hnot⟩ := hkept
    obtain ⟨hreg, hqm⟩ := h m hm q hold
    exact ⟨.inr ⟨hreg, fun hdrop => hnot ⟨hdrop, hqm⟩⟩, hqm⟩

/-! ## Completeness -/

/-- A write that drops the indexed agent of a model either registers another agent of
    that model or drops every agent of that model. -/
def NoOrphan (r : AgentRegistry) (op : Op) : Prop :=
  ∀ m, m ≠ "" → ∀ q, r.getByModel m = some q → Dropped defs r op q →
    (∃ p, added op = some p ∧ defs.model p = m) ∨
    ∀ s ∈ registered r, defs.model s = m → Dropped defs r op s

/-- From a complete index, a write leaves a complete index exactly when it orphans no
    model. -/
theorem legacyOk_apply_iff (hk : Keyed defs r) (h : LegacyOk defs r) (op : Op) :
    LegacyOk defs (apply defs r op) ↔ NoOrphan defs r op := by
  have hsound : ByModelSound defs r := fun m hm p hp => (h m hm).2 p hp
  constructor
  · intro h' m hm q hq hdrop
    by_cases hadd : ∃ p, added op = some p ∧ defs.model p = m
    · exact .inl hadd
    · refine .inr fun s hs hsm => ?_
      -- a surviving `s` would have to be answered, but the entry of `m` was cleared
      by_contra hkeep
      have hs' := (mem_registered_apply defs hk op s).mpr (.inr ⟨hs, hkeep⟩)
      cases hread : (AgentRegistry.apply defs r op).getByModel m with
      | none => exact ((h' m hm).1.mp hread) ⟨s, hs', hsm⟩
      | some q' =>
        cases (apply_byModel defs r op m hm q').mp hread with
        | inl hnew => exact hadd ⟨q', hnew⟩
        | inr hkept =>
          obtain ⟨-, hold, hnot⟩ := hkept
          rw [getByModel, hold] at hq
          cases hq
          exact hnot ⟨hdrop, (hsound m hm q hold).2⟩
  · intro hno m hm
    have hsound' := hsound.apply defs hk op m hm
    refine ⟨⟨fun hnone hex => ?_, fun hex => ?_⟩, hsound'⟩
    · -- no entry for `m`, although `s` declares it
      obtain ⟨s, hs, hsm⟩ := hex
      have hentry : ∀ q, ¬ (AgentRegistry.apply defs r op).byModel.lookup m = some q := by
        intro q hq
        rw [getByModel, hq] at hnone
        cases hnone
      have hadd : ¬ ∃ p, added op = some p ∧ defs.model p = m := by
        intro hadd
        obtain ⟨p, hp⟩ := hadd
        exact hentry p ((apply_byModel defs r op m hm p).mpr (.inl hp))
      -- so `s` was there before, and the index knew an agent `q` of its model
      cases (mem_registered_apply defs hk op s).mp hs with
      | inl hnew => exact hadd ⟨s, hnew, hsm⟩
      | inr hkept =>
        cases hq : r.getByModel m with
        | none => exact ((h m hm).1.mp hq) ⟨s, hkept.1, hsm⟩
        | some q =>
          have hdrop : Dropped defs r op q := by
            by_contra hkeep
            exact hentry q ((apply_byModel defs r op m hm q).mpr
              (.inr ⟨hadd, hq, fun hd => hkeep hd.1⟩))
          cases hno m hm q hq hdrop with
          | inl hp => exact hadd hp
          | inr hall => exact hkept.2 (hall s hkept.1 hsm)
    · cases hread : (AgentRegistry.apply defs r op).getByModel m with
      | none => rfl
      | some q => exact absurd ⟨q, hsound' q hread⟩ hex

theorem legacyOk_newAgentRegistry : LegacyOk defs newAgentRegistry := by
  intro m hm
  refine ⟨⟨fun _ hex => ?_, fun _ => rfl⟩, fun p hp => by cases hp⟩
  obtain ⟨p, hp, -⟩ := hex
  cases hp

/-- `GetByModel` keeps its promise in every state of a run exactly when no step of the
    run orphans a model. -/
theorem legacyOk_iff_noOrphan (ops : List Op) :
    (∀ pre, pre <+: ops → LegacyOk defs (run defs newAgentRegistry pre)) ↔
      ∀ pre op, pre ++ [op] <+: ops → NoOrphan defs (run defs newAgentRegistry pre) op := by
  have hkeyed : ∀ pre, Keyed defs (run defs newAgentRegistry pre) :=
    fun pre => ((indexed_newAgentRegistry defs).run defs pre).keyed
  have hsnoc : ∀ pre op, run defs newAgentRegistry (pre ++ [op]) =
      apply defs (run defs newAgentRegistry pre) op := by
    intro pre op
    rw [run, List.foldl_append]
    rfl
  constructor
  · intro hall pre op hpre
    have hpre' : pre <+: ops := (List.prefix_append pre [op]).trans hpre
    have hafter := hall (pre ++ [op]) hpre
    rw [hsnoc] at hafter
    exact (legacyOk_apply_iff defs (hkeyed pre) (hall pre hpre') op).mp hafter
  · intro hno pre
    -- induction on the executed prefix, last write first
    induction pre using List.reverseRecOn with
    | nil => intro _; exact legacyOk_newAgentRegistry defs
    | append_singleton pre op ih =>
      intro hpre
      have hpre' : pre <+: ops := (List.prefix_append pre [op]).trans hpre
      rw [hsnoc]
      exact (legacyOk_apply_iff defs (hkeyed pre) (ih hpre') op).mpr (hno pre op hpre)

/-! ## The failing run -/

/-- Two global agents that declare the model `m`. -/
def sharedModelDefs : Definitions := fun p =>
  if p = 0 then { metadata := { name := "alpha" }, spec := { model := "m" } }
  else { metadata := { name := "bravo" }, spec := { model := "m" } }

/-- Register both agents, then remove the one registered last. -/
def sharedModelRun : List Op :=
  [.register (some 0) .stored, .register (some 1) .stored, .remove "bravo" .stored]

/-- After the run `alpha` is registered and declares `m`, but `GetByModel` answers nil. -/
theorem sharedModel_not_legacyOk :
    ¬ ∀ (defs : Definitions) (ops : List Op), LegacyOk defs (run defs newAgentRegistry ops) := by
  intro h
  have hm := (h sharedModelDefs sharedModelRun "m" (by decide)).1
  have hnone : (run sharedModelDefs newAgentRegistry sharedModelRun).getByModel "m" = none := by
    decide
  have hreg : 0 ∈ registered (run sharedModelDefs newAgentRegistry sharedModelRun) := by
    decide
  exact (hm.mp hnone) ⟨0, hreg, by decide⟩

end MockAgents.AgentRegistry
