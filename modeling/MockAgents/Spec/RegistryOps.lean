import MockAgents.Engine.AgentRegistry

/-!
# What the registry operations do

One lemma per operation and table: how `Register`, `Remove` and `RemoveForTenant`
change the agents a tenant owns, the legacy index `byModel`, and which buckets of
`byModelTenant` they rebuild. Everything else about the registry is derived from
these lemmas, so no later proof unfolds an operation.
-/

namespace MockAgents.AgentRegistry

variable (defs : Definitions)

/-! ## Rebuilds -/

variable (ord : MapOrder) (r : AgentRegistry) (name tenantID m : String)

/-- Rebuilding the buckets of a list of models. -/
def reindex (ord : MapOrder) (r : AgentRegistry) (ms : List String) : AgentRegistry :=
  ms.foldl (rebuildModelBucket defs ord) r

/-- Rebuilding writes `byModelTenant` only. -/
theorem reindex_eq (ms : List String) :
    ∃ byModelTenant, reindex defs ord r ms = { r with byModelTenant := byModelTenant } := by
  induction ms generalizing r with
  | nil => exact ⟨_, rfl⟩
  | cons m ms ih =>
    obtain ⟨b, hb⟩ : ∃ b, rebuildModelBucket defs ord r m = { r with byModelTenant := b } := by
      simp only [rebuildModelBucket]
      split
      · exact ⟨_, rfl⟩
      · split <;> exact ⟨_, rfl⟩
    rw [reindex, List.foldl_cons, hb]
    exact ih _

variable (ms : List String)

@[simp] theorem reindex_agents : (reindex defs ord r ms).agents = r.agents := by
  obtain ⟨_, h⟩ := reindex_eq defs ord r ms
  rw [h]

@[simp] theorem reindex_byModel : (reindex defs ord r ms).byModel = r.byModel := by
  obtain ⟨_, h⟩ := reindex_eq defs ord r ms
  rw [h]

@[simp] theorem reindex_sources : (reindex defs ord r ms).sources = r.sources := by
  obtain ⟨_, h⟩ := reindex_eq defs ord r ms
  rw [h]

@[simp] theorem rebuildModelBucket_agents : (rebuildModelBucket defs ord r m).agents = r.agents :=
  reindex_agents defs ord r [m]

/-- Clearing an index entry: an entry survives unless it is the entry of the
    definition's own model and points at the definition. -/
theorem unindex_eq_some_iff (byModel : GoMap String DefPtr) (p : DefPtr) (m : String)
    (q : DefPtr) :
    (unindex defs byModel p).lookup m = some q ↔
      byModel.lookup m = some q ∧ ¬ (m ≠ "" ∧ q = p ∧ defs.model q = m) := by
  simp only [unindex]
  split
  · -- the entry of the model points at `p`, so it is erased
    rename_i hp
    rw [GoMap.lookup_erase_eq]
    by_cases hm : m = defs.model p
    · subst hm
      rw [if_pos rfl, hp.2]
      simp only [reduceCtorEq, Option.some.injEq, false_iff]
      rintro ⟨rfl, hkeep⟩
      exact hkeep ⟨hp.1, rfl, rfl⟩
    · rw [if_neg hm]
      refine (and_iff_left ?_).symm
      rintro ⟨-, rfl, rfl⟩
      exact hm rfl
  · -- nothing is erased, and no entry has the excluded form
    rename_i hp
    refine ⟨fun hq => ⟨hq, ?_⟩, fun h => h.1⟩
    rintro ⟨hm, rfl, rfl⟩
    exact hp ⟨hm, hq⟩

/-! ## Register -/

def replaced (r : AgentRegistry) (p : DefPtr) : Option DefPtr :=
  r.getOwnedForTenant (defs.name p) (defs.owner p)

/-- The models whose buckets a registration rebuilds. -/
def registerModels (r : AgentRegistry) (p : DefPtr) : List String :=
  match replaced defs r p with
  | none => [defs.model p]
  | some q =>
    if defs.model q ≠ "" ∧ defs.model q ≠ defs.model p then [defs.model p, defs.model q]
    else [defs.model p]

theorem registerLocked_eq_reindex (p : DefPtr) :
    ∃ byModel,
      registerLocked defs ord r p =
        reindex defs ord
          { r with agents := r.agents.insert₂ (defs.owner p) (defs.name p) p, byModel := byModel }
          (registerModels defs r p) ∧
      byModel =
        (let cleared := match replaced defs r p with
          | some q => unindex defs r.byModel q
          | none => r.byModel
        if defs.model p ≠ "" then cleared.insert (defs.model p) p else cleared) := by
  simp only [registerLocked, registerModels, replaced, getOwnedForTenant]
  -- the replaced agent decides whether one bucket or two are rebuilt
  cases hq : r.agents.get₂ (defs.owner p) (defs.name p) with
  | none => simp [reindex]
  | some q =>
    simp only
    split <;> simp [reindex]

/-- Registering changes one owned agent. -/
theorem registerLocked_owned (p : DefPtr) (n t : String) :
    (registerLocked defs ord r p).getOwnedForTenant n t =
      if t = defs.owner p ∧ n = defs.name p then some p else r.getOwnedForTenant n t := by
  obtain ⟨byModel, hr, -⟩ := registerLocked_eq_reindex defs ord r p
  rw [hr, getOwnedForTenant, reindex_agents, GoMap.get₂_insert₂]
  rfl

/-- Registering points `byModel` at the new agent; another entry survives unless it
    points at the replaced agent. -/
theorem registerLocked_byModel (p : DefPtr) (m : String) (hm : m ≠ "") (q : DefPtr) :
    (registerLocked defs ord r p).byModel.lookup m = some q ↔
      (defs.model p = m ∧ q = p) ∨
      (defs.model p ≠ m ∧ r.byModel.lookup m = some q ∧
        ¬ (replaced defs r p = some q ∧ defs.model q = m)) := by
  obtain ⟨byModel, hr, hb⟩ := registerLocked_eq_reindex defs ord r p
  -- first the clearing of the replaced agent, then the insertion
  have hcleared : ((match replaced defs r p with
      | some q' => unindex defs r.byModel q'
      | none => r.byModel) : GoMap String DefPtr).lookup m = some q ↔
      r.byModel.lookup m = some q ∧ ¬ (replaced defs r p = some q ∧ defs.model q = m) := by
    cases hq : replaced defs r p with
    | none => simp
    | some q' =>
      rw [unindex_eq_some_iff]
      simp [hm, eq_comm]
  rw [hr, reindex_byModel]
  simp only [hb]
  by_cases hp : defs.model p = m
  · rw [if_pos (hp ▸ hm), hp]
    simp [eq_comm]
  · simp only [hp, false_and, ne_eq, not_false_eq_true, true_and, false_or]
    rw [← hcleared]
    split
    · rw [AList.lookup_insert_ne (Ne.symm hp)]
    · rfl

theorem registerWithSource_eq (sourcePath : String) (p : Option DefPtr) :
    ∃ sources, registerWithSource defs ord r sourcePath p =
      { register defs ord r p with sources := sources } := by
  cases p with
  | none => exact ⟨r.sources, rfl⟩
  | some p =>
    simp only [registerWithSource, register]
    split
    · exact ⟨_, rfl⟩
    · exact ⟨_, rfl⟩

/-- `RegisterWithSource` changes one owned agent. -/
theorem registerWithSource_owned (sourcePath : String) (p : DefPtr) (n t : String) :
    (registerWithSource defs ord r sourcePath (some p)).getOwnedForTenant n t =
      if t = defs.owner p ∧ n = defs.name p then some p else r.getOwnedForTenant n t := by
  obtain ⟨sources, hr⟩ := registerWithSource_eq defs ord r sourcePath (some p)
  rw [hr, ← registerLocked_owned]
  rfl

/-- `RegisterWithSource` records one file. -/
theorem registerWithSource_source {sourcePath : String} (h : sourcePath ≠ "") (p : DefPtr)
    (n t : String) :
    (registerWithSource defs ord r sourcePath (some p)).source n t =
      if t = defs.owner p ∧ n = defs.name p then sourcePath else r.source n t := by
  obtain ⟨byModel, hr, -⟩ := registerLocked_eq_reindex defs ord r p
  simp only [registerWithSource, if_pos h, source, GoMap.get₂_insert₂, hr, reindex_sources]
  split <;> rfl

/-! ## Remove -/

/-- The agents that `Remove name` deletes. -/
def Swept (r : AgentRegistry) (name : String) (p : DefPtr) : Prop :=
  ∃ t, r.getOwnedForTenant name t = some p

section Sweep

variable (name : String)

/-- `p` is the agent called `name` in one of the buckets `l`. -/
def SweptFrom (l : List (Σ _ : String, GoMap String DefPtr)) (p : DefPtr) : Prop :=
  ∃ e ∈ l, e.2.lookup name = some p

theorem sweptFrom_cons (e : Σ _ : String, GoMap String DefPtr)
    (l : List (Σ _ : String, GoMap String DefPtr)) (p : DefPtr) :
    SweptFrom name (e :: l) p ↔ e.2.lookup name = some p ∨ SweptFrom name l p := by
  simp [SweptFrom]

/-- The sweep loop, from any state of its local variables. -/
def sweepLoop (l : List (Σ _ : String, GoMap String DefPtr)) (st : Sweep) : Sweep :=
  l.foldl (fun st e => sweepOwner defs name st e.1 e.2) st

variable (l : List (Σ _ : String, GoMap String DefPtr)) (st : Sweep)

theorem sweepLoop_byModelTenant :
    (sweepLoop defs name l st).registry.byModelTenant = st.registry.byModelTenant := by
  induction l generalizing st with
  | nil => rfl
  | cons e l ih =>
    rw [sweepLoop, List.foldl_cons, ← sweepLoop, ih]
    simp only [sweepOwner]
    split <;> rfl

theorem sweepLoop_get₂ (t n : String) (q : DefPtr) :
    (sweepLoop defs name l st).registry.agents.get₂ t n = some q ↔
      st.registry.agents.get₂ t n = some q ∧
        ¬ (n = name ∧ ∃ e ∈ l, e.1 = t ∧ (e.2.lookup name).isSome) := by
  induction l generalizing st with
  | nil => simp [sweepLoop]
  | cons e l ih =>
    rw [sweepLoop, List.foldl_cons, ← sweepLoop, ih]
    simp only [sweepOwner, List.exists_mem_cons_iff]
    cases hp : e.2.lookup name with
    | none => simp
    | some p =>
      simp only [GoMap.get₂_erase₂, Option.isSome_some, and_true]
      -- this step erases one name of one owner
      by_cases hcase : t = e.1 ∧ n = name
      · simp [hcase]
      · rw [if_neg hcase]
        have hne : ¬ (n = name ∧ e.1 = t) := fun h => hcase ⟨h.2.symm, h.1⟩
        rw [and_or_left]
        simp [hne]

theorem sweepLoop_byModel (m : String) (q : DefPtr) :
    (sweepLoop defs name l st).registry.byModel.lookup m = some q ↔
      st.registry.byModel.lookup m = some q ∧
        ¬ (m ≠ "" ∧ SweptFrom name l q ∧ defs.model q = m) := by
  induction l generalizing st with
  | nil => simp [sweepLoop, SweptFrom]
  | cons e l ih =>
    rw [sweepLoop, List.foldl_cons, ← sweepLoop, ih]
    simp only [sweepOwner, sweptFrom_cons]
    cases hp : e.2.lookup name with
    | none => simp
    | some p =>
      simp only [unindex_eq_some_iff, Option.some.injEq, and_assoc]
      -- an entry is cleared by this step or by a later one
      rw [eq_comm (a := p)]
      tauto

theorem sweepLoop_models (m : String) :
    m ∈ (sweepLoop defs name l st).models ↔
      m ∈ st.models ∨ m ≠ "" ∧ ∃ p, SweptFrom name l p ∧ defs.model p = m := by
  induction l generalizing st with
  | nil => simp [sweepLoop, SweptFrom]
  | cons e l ih =>
    rw [sweepLoop, List.foldl_cons, ← sweepLoop, ih]
    simp only [sweepOwner, sweptFrom_cons]
    cases hp : e.2.lookup name with
    | none => simp
    | some p =>
      -- this step adds the model of the deleted agent, if it has one
      have hmem : m ∈ (if defs.model p ≠ "" then st.models.insert (defs.model p) ()
          else st.models) ↔ m ∈ st.models ∨ m ≠ "" ∧ defs.model p = m := by
        split
        · rename_i hne
          rw [AList.mem_insert]
          constructor
          · rintro (rfl | h)
            · exact .inr ⟨hne, rfl⟩
            · exact .inl h
          · rintro (h | ⟨-, rfl⟩)
            · exact .inr h
            · exact .inl rfl
        · rename_i hempty
          refine ⟨.inl, fun h => h.resolve_right ?_⟩
          rintro ⟨hm, rfl⟩
          exact hempty hm
      simp only [hmem, Option.some.injEq, or_and_right, exists_or, exists_eq_left', or_assoc,
        and_or_left]

theorem sweepLoop_found :
    (sweepLoop defs name l st).found = true ↔ st.found = true ∨ ∃ p, SweptFrom name l p := by
  induction l generalizing st with
  | nil => simp [sweepLoop, SweptFrom]
  | cons e l ih =>
    rw [sweepLoop, List.foldl_cons, ← sweepLoop, ih]
    simp only [sweepOwner, sweptFrom_cons]
    cases hp : e.2.lookup name with
    | none => simp
    | some p => simp

theorem sweptFrom_visit (ord : MapOrder) (r : AgentRegistry) (p : DefPtr) :
    SweptFrom name (ord.visit r.agents.entries) p ↔ Swept r name p := by
  simp only [SweptFrom, Swept, MapOrder.mem_visit, getOwnedForTenant, GoMap.get₂_eq_some_iff,
    GoMap.lookup_eq_some_iff]
  constructor
  · rintro ⟨⟨t, byName⟩, he, hp⟩
    exact ⟨t, byName, he, hp⟩
  · rintro ⟨t, byName, he, hp⟩
    exact ⟨⟨t, byName⟩, he, hp⟩

end Sweep

theorem remove_notFound (h : ¬ ∃ p, Swept r name p) :
    remove defs ord r name = (r, some (.notFound name)) := by
  have hnone : ∀ e ∈ ord.visit r.agents.entries, e.2.lookup name = none := by
    intro e he
    cases hp : e.2.lookup name with
    | none => rfl
    | some p => exact absurd ⟨p, (sweptFrom_visit name ord r p).mp ⟨e, he, hp⟩⟩ h
  -- no bucket holds the name, so every iteration continues
  have hsweep : sweep defs ord r name = ⟨r, ∅, false⟩ := by
    rw [sweep]
    generalize ord.visit r.agents.entries = l at hnone
    induction l with
    | nil => rfl
    | cons e l ih =>
      rw [List.foldl_cons, sweepOwner, hnone e (by simp)]
      exact ih fun e' he' => hnone e' (by simp [he'])
  simp [remove, hsweep]

theorem sweep_byModelTenant : (sweep defs ord r name).registry.byModelTenant = r.byModelTenant :=
  sweepLoop_byModelTenant defs name _ _

/-- A successful `Remove` sweeps the agent tables, then rebuilds the buckets of the
    swept models. -/
theorem remove_eq_reindex (h : ∃ p, Swept r name p) :
    ∃ ms, remove defs ord r name = (reindex defs ord (sweep defs ord r name).registry ms, none) ∧
      ∀ m, m ∈ ms ↔ m ≠ "" ∧ ∃ p, Swept r name p ∧ defs.model p = m := by
  obtain ⟨p, hp⟩ := h
  have hfound : (sweep defs ord r name).found = true :=
    (sweepLoop_found defs name _ _).mpr (.inr ⟨p, (sweptFrom_visit name ord r p).mpr hp⟩)
  refine ⟨(ord.visit (sweep defs ord r name).models.entries).map fun e => e.1, ?_, ?_⟩
  · rw [remove, hfound, reindex, List.foldl_map]
    rfl
  · intro m
    have hm := sweepLoop_models defs name (ord.visit r.agents.entries) ⟨r, ∅, false⟩ m
    simp only [AList.notMem_empty, false_or, sweptFrom_visit] at hm
    rw [← hm, AList.mem_keys]
    simp only [AList.keys, List.keys, List.mem_map, MapOrder.mem_visit]
    rfl

theorem remove_owned (n t : String) :
    (remove defs ord r name).1.getOwnedForTenant n t =
      if n = name then none else r.getOwnedForTenant n t := by
  by_cases h : ∃ p, Swept r name p
  · obtain ⟨ms, hr, -⟩ := remove_eq_reindex defs ord r name h
    rw [hr]
    -- compare the two tables agent by agent
    refine Option.ext fun q => ?_
    rw [getOwnedForTenant, reindex_agents, sweep, ← sweepLoop, sweepLoop_get₂]
    split
    · rename_i hn
      subst hn
      simp only [true_and, MapOrder.mem_visit, reduceCtorEq, iff_false, not_and, not_not]
      intro hq
      obtain ⟨byName, he, hx⟩ := (GoMap.get₂_eq_some_iff _ _ _ _).mp hq
      refine ⟨⟨t, byName⟩, he, rfl, ?_⟩
      rw [(GoMap.lookup_eq_some_iff byName n q).mpr hx]
      rfl
    · rename_i hn
      simp [hn, getOwnedForTenant]
  · rw [remove_notFound defs ord r name h]
    split
    · rename_i hn
      subst hn
      cases hq : r.getOwnedForTenant n t with
      | none => rfl
      | some q => exact absurd ⟨q, t, hq⟩ h
    · rfl

theorem remove_byModel (hm : m ≠ "") (q : DefPtr) :
    (remove defs ord r name).1.byModel.lookup m = some q ↔
      r.byModel.lookup m = some q ∧ ¬ (Swept r name q ∧ defs.model q = m) := by
  by_cases h : ∃ p, Swept r name p
  · obtain ⟨ms, hr, -⟩ := remove_eq_reindex defs ord r name h
    rw [hr, reindex_byModel, sweep, ← sweepLoop, sweepLoop_byModel, sweptFrom_visit]
    simp [hm]
  · rw [remove_notFound defs ord r name h]
    exact (and_iff_left fun hq => h ⟨q, hq.1⟩).symm

/-! ## RemoveForTenant -/

variable {p : DefPtr}

theorem removeForTenant_eq_reindex (h : r.getOwnedForTenant name tenantID = some p) :
    removeForTenant defs ord r name tenantID =
      (reindex defs ord
        { r with
          agents := r.agents.erase₂ tenantID name
          byModel := unindex defs r.byModel p
          sources := r.sources.erase₂ tenantID name } [defs.model p], none) := by
  rw [getOwnedForTenant] at h
  simp [removeForTenant, h, reindex]

theorem removeForTenant_notFound (h : r.getOwnedForTenant name tenantID = none) :
    removeForTenant defs ord r name tenantID =
      (r, some (.notFoundForTenant name tenantID)) := by
  rw [getOwnedForTenant] at h
  simp [removeForTenant, h]

/-- `RemoveForTenant` takes the name from one owner. -/
theorem removeForTenant_owned (n t : String) :
    (removeForTenant defs ord r name tenantID).1.getOwnedForTenant n t =
      if t = tenantID ∧ n = name then none else r.getOwnedForTenant n t := by
  cases hp : r.getOwnedForTenant name tenantID with
  | none =>
    rw [removeForTenant_notFound defs ord r name tenantID hp]
    split
    · rename_i h
      rw [h.1, h.2, hp]
    · rfl
  | some p =>
    rw [removeForTenant_eq_reindex defs ord r name tenantID hp, getOwnedForTenant,
      reindex_agents, GoMap.get₂_erase₂]
    rfl

theorem removeForTenant_source (h : r.getOwnedForTenant name tenantID = some p) (n t : String) :
    (removeForTenant defs ord r name tenantID).1.source n t =
      if t = tenantID ∧ n = name then "" else r.source n t := by
  rw [removeForTenant_eq_reindex defs ord r name tenantID h, source, reindex_sources,
    GoMap.get₂_erase₂]
  split <;> rfl

theorem removeForTenant_byModel (hm : m ≠ "") (q : DefPtr) :
    (removeForTenant defs ord r name tenantID).1.byModel.lookup m = some q ↔
      r.byModel.lookup m = some q ∧
        ¬ (r.getOwnedForTenant name tenantID = some q ∧ defs.model q = m) := by
  cases hp : r.getOwnedForTenant name tenantID with
  | none =>
    rw [removeForTenant_notFound defs ord r name tenantID hp]
    simp
  | some p =>
    rw [removeForTenant_eq_reindex defs ord r name tenantID hp, reindex_byModel,
      unindex_eq_some_iff]
    simp [hm, eq_comm]

/-! ## Keys -/

/-- Agents are stored under their own owner and name. -/
def Keyed (r : AgentRegistry) : Prop :=
  ∀ t n p, r.getOwnedForTenant n t = some p → defs.owner p = t ∧ defs.name p = n

/-- An agent sits under one key only. -/
theorem Keyed.key_unique {r : AgentRegistry} (h : Keyed defs r) {t t' n n' : String}
    (hp : r.getOwnedForTenant n t = some p) (hp' : r.getOwnedForTenant n' t' = some p) :
    t = t' ∧ n = n' := by
  obtain ⟨hown, hname⟩ := h t n p hp
  obtain ⟨hown', hname'⟩ := h t' n' p hp'
  exact ⟨hown.symm.trans hown', hname.symm.trans hname'⟩

theorem keyed_newAgentRegistry : Keyed defs newAgentRegistry := by
  intro t n p hp
  cases hp

theorem Keyed.registerLocked {r : AgentRegistry} (h : Keyed defs r) (ord : MapOrder)
    (p : DefPtr) : Keyed defs (registerLocked defs ord r p) := by
  intro t n q hq
  rw [registerLocked_owned] at hq
  split at hq
  · rename_i hkey
    cases hq
    exact ⟨hkey.1.symm, hkey.2.symm⟩
  · exact h t n q hq

theorem Keyed.remove (h : Keyed defs r) : Keyed defs (remove defs ord r name).1 := by
  intro t n p hp
  rw [remove_owned] at hp
  split at hp
  · cases hp
  · exact h t n p hp

theorem Keyed.removeForTenant (h : Keyed defs r) :
    Keyed defs (removeForTenant defs ord r name tenantID).1 := by
  intro t n p hp
  rw [removeForTenant_owned] at hp
  split at hp
  · cases hp
  · exact h t n p hp

end MockAgents.AgentRegistry
