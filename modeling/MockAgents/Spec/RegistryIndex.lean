import Mathlib.Data.List.MinMax
import MockAgents.Spec.RegistryOps

/-!
# The tenant-aware model index

After any sequence of writes the index `byModelTenant` answers what a scan of all
registered agents would answer. The invariant `Indexed` says so for every model;
a write changes which agents declare a model for at most the models whose buckets
it rebuilds (`reindex_indexed`), so each operation restores the invariant.
-/

namespace MockAgents.AgentRegistry

variable (defs : Definitions)

/-! ## The scan -/

/-- All registered agents, in the order the maps store them. -/
def registered (r : AgentRegistry) : List DefPtr :=
  r.agents.entries.flatMap fun e => e.2.entries.map fun x => x.2

/-- The smallest-named registered agent that declares `m` and is owned by `t`. -/
def scanOwned (r : AgentRegistry) (m t : String) : Option DefPtr :=
  ((registered r).filter fun p => defs.model p = m ∧ defs.owner p = t).argmin defs.name

/-- What a scan answers: the tenant's own agent, else the global one. -/
def scan (r : AgentRegistry) (m t : String) : Option DefPtr :=
  (scanOwned defs r m t).or (scanOwned defs r m "")

theorem mem_registered (r : AgentRegistry) (p : DefPtr) :
    p ∈ registered r ↔ ∃ t n, r.getOwnedForTenant n t = some p := by
  simp only [registered, getOwnedForTenant, GoMap.get₂_eq_some_iff, List.mem_flatMap,
    List.mem_map]
  constructor
  · rintro ⟨⟨t, byName⟩, he, ⟨n, q⟩, hx, rfl⟩
    exact ⟨t, n, byName, he, hx⟩
  · rintro ⟨t, n, byName, he, hx⟩
    exact ⟨⟨t, byName⟩, he, ⟨n, p⟩, hx, rfl⟩

/-! ## The invariant -/

/-- `p` is registered under owner `t` and name `n`, and declares model `m`. -/
def Declares (r : AgentRegistry) (m t n : String) (p : DefPtr) : Prop :=
  r.getOwnedForTenant n t = some p ∧ defs.model p = m

/-- `p` has the smallest name among the agents of `t` that declare `m`. -/
structure Winner (r : AgentRegistry) (m t : String) (p : DefPtr) : Prop where
  declares : ∃ n, Declares defs r m t n p
  least : ∀ n q, Declares defs r m t n q → defs.name p ≤ defs.name q

/-- The index bucket of model `m` holds the winner of every owner, and exists only
    if some agent declares `m`. -/
structure IndexedAt (r : AgentRegistry) (m : String) : Prop where
  slot : ∀ t p, r.byModelTenant.get₂ m t = some p ↔ Winner defs r m t p
  entry : (r.byModelTenant.lookup m).isSome ↔ ∃ t n p, Declares defs r m t n p

structure Indexed (r : AgentRegistry) : Prop where
  keyed : Keyed defs r
  noEmptyModel : r.byModelTenant.lookup "" = none
  bucket : ∀ m, m ≠ "" → IndexedAt defs r m

variable {r : AgentRegistry} {m t : String}

theorem Winner.unique (hk : Keyed defs r) {p q : DefPtr} (hp : Winner defs r m t p)
    (hq : Winner defs r m t q) : p = q := by
  obtain ⟨n, hn⟩ := hp.declares
  obtain ⟨n', hn'⟩ := hq.declares
  -- each has the least name, so the names agree, and so do the keys
  have hname : defs.name p = defs.name q :=
    le_antisymm (hp.least n' q hn') (hq.least n p hn)
  have hnn : n = n' := by
    rw [← (hk t n p hn.1).2, ← (hk t n' q hn'.1).2, hname]
  have hsame := hn'.1
  rw [← hnn, hn.1] at hsame
  exact Option.some.inj hsame

theorem winner_congr {r' : AgentRegistry}
    (hdecl : ∀ n p, Declares defs r' m t n p ↔ Declares defs r m t n p) (p : DefPtr) :
    Winner defs r' m t p ↔ Winner defs r m t p := by
  constructor
  · rintro ⟨⟨n, hn⟩, hleast⟩
    exact ⟨⟨n, (hdecl n p).mp hn⟩, fun n' q hq => hleast n' q ((hdecl n' q).mpr hq)⟩
  · rintro ⟨⟨n, hn⟩, hleast⟩
    exact ⟨⟨n, (hdecl n p).mpr hn⟩, fun n' q hq => hleast n' q ((hdecl n' q).mp hq)⟩

theorem IndexedAt.of_declares_iff {r' : AgentRegistry} (h : IndexedAt defs r m)
    (hbucket : r'.byModelTenant.lookup m = r.byModelTenant.lookup m)
    (hdecl : ∀ t n p, Declares defs r' m t n p ↔ Declares defs r m t n p) :
    IndexedAt defs r' m := by
  constructor
  · intro t p
    rw [winner_congr defs (hdecl t), ← h.slot, GoMap.get₂, GoMap.get₂, hbucket]
  · rw [hbucket, h.entry]
    simp [hdecl]

/-! ## One rebuild -/

/-- The (owner, definition) pairs that `rebuildModelBucket` visits, in order. -/
private def visited (ord : MapOrder) (agents : GoMap String (GoMap String DefPtr)) :
    List (String × DefPtr) :=
  (ord.visit agents.entries).flatMap fun e => (ord.visit e.2.entries).map fun x => (e.1, x.2)

variable (ord : MapOrder)

private theorem mem_visited (agents : GoMap String (GoMap String DefPtr)) (t : String)
    (p : DefPtr) : (t, p) ∈ visited ord agents ↔ ∃ n, agents.get₂ t n = some p := by
  simp only [visited, GoMap.get₂_eq_some_iff, List.mem_flatMap, List.mem_map,
    MapOrder.mem_visit, Prod.mk.injEq]
  constructor
  · rintro ⟨⟨t', byName⟩, he, ⟨n, q⟩, hx, rfl, rfl⟩
    exact ⟨n, byName, he, hx⟩
  · rintro ⟨n, byName, he, hx⟩
    exact ⟨⟨t, byName⟩, he, ⟨n, p⟩, hx, rfl, rfl⟩

private theorem collectOwners_eq (agents : GoMap String (GoMap String DefPtr)) (m : String) :
    collectOwners defs ord agents m =
      (visited ord agents).foldl (fun acc e => claimSlot defs m e.1 acc e.2) ∅ := by
  simp only [collectOwners, claimBucket, visited, List.foldl_flatMap, List.foldl_map]

/-- Visiting one pair: the owner's slot takes the smaller name, as `List.argmin`
    does, and every other slot stays. -/
private theorem claimSlot_lookup (m owner t : String) (acc : GoMap String DefPtr)
    (p : DefPtr) :
    (claimSlot defs m owner acc p).lookup t =
      if owner = t ∧ defs.model p = m then
        List.argAux (fun b c => defs.name b < defs.name c) (acc.lookup t) p
      else acc.lookup t := by
  simp only [claimSlot]
  by_cases hm : defs.model p = m
  · by_cases ht : owner = t
    · subst ht
      rw [if_neg (not_not_intro hm), if_pos ⟨rfl, hm⟩]
      cases hcur : acc.lookup owner with
      | none => exact AList.lookup_insert acc
      | some cur =>
        -- the slot keeps the smaller of the two names
        simp only [List.argAux]
        split
        · exact AList.lookup_insert acc
        · exact hcur
    · rw [if_neg (not_not_intro hm), if_neg fun h => ht h.1]
      split
      · exact AList.lookup_insert_ne (Ne.symm ht)
      · split
        · exact AList.lookup_insert_ne (Ne.symm ht)
        · rfl
  · rw [if_pos hm, if_neg fun h => hm h.2]

/-- Visiting a list of pairs folds `List.argmin` over each owner's share of it. -/
private theorem claim_foldl_lookup (m t : String) (l : List (String × DefPtr))
    (acc : GoMap String DefPtr) :
    (l.foldl (fun acc e => claimSlot defs m e.1 acc e.2) acc).lookup t =
      ((l.filter fun e => e.1 = t ∧ defs.model e.2 = m).map fun e => e.2).foldl
        (List.argAux fun b c => defs.name b < defs.name c) (acc.lookup t) := by
  induction l generalizing acc with
  | nil => rfl
  | cons e l ih =>
    rw [List.foldl_cons, ih, claimSlot_lookup]
    by_cases he : e.1 = t ∧ defs.model e.2 = m
    · rw [if_pos he, List.filter_cons_of_pos (by simpa using he), List.map_cons,
        List.foldl_cons]
    · rw [if_neg he, List.filter_cons_of_neg (by simpa using he)]

/-- `List.argmin` by name over the agents of `t` that declare `m`, listed in any
    order, picks the winner. -/
private theorem argmin_eq_some_iff (hk : Keyed defs r) (m t : String) (l : List DefPtr)
    (hl : ∀ p, p ∈ l ↔ ∃ n, Declares defs r m t n p) (p : DefPtr) :
    l.argmin defs.name = some p ↔ Winner defs r m t p := by
  -- the minimum is a winner, and there is only one
  have hwin : ∀ q, l.argmin defs.name = some q → Winner defs r m t q := by
    intro q hq
    refine ⟨(hl q).mp (List.argmin_mem hq), fun n a ha => ?_⟩
    exact List.le_of_mem_argmin ((hl a).mpr ⟨n, ha⟩) hq
  constructor
  · exact hwin p
  · intro hp
    cases hq : l.argmin defs.name with
    | none =>
      have hmem := (hl p).mpr hp.declares
      rw [List.argmin_eq_none.mp hq] at hmem
      cases hmem
    | some q => rw [Winner.unique defs hk (hwin q hq) hp]

/-- A rebuild collects the winner of every owner. -/
theorem collectOwners_lookup (hk : Keyed defs r) (ord : MapOrder) (m t : String) (p : DefPtr) :
    (collectOwners defs ord r.agents m).lookup t = some p ↔ Winner defs r m t p := by
  rw [collectOwners_eq, claim_foldl_lookup]
  refine argmin_eq_some_iff defs hk m t _ (fun q => ?_) p
  simp only [List.mem_map, List.mem_filter, decide_eq_true_eq, Declares, getOwnedForTenant]
  constructor
  · rintro ⟨⟨t', q'⟩, ⟨hmem, rfl, hm⟩, rfl⟩
    obtain ⟨n, hn⟩ := (mem_visited ord r.agents t' q').mp hmem
    exact ⟨n, hn, hm⟩
  · rintro ⟨n, hn, hm⟩
    exact ⟨(t, q), ⟨(mem_visited ord r.agents t q).mpr ⟨n, hn⟩, rfl, hm⟩, rfl⟩

/-- The scan finds the winner too. -/
theorem scanOwned_eq_some_iff (hk : Keyed defs r) (m t : String) (p : DefPtr) :
    scanOwned defs r m t = some p ↔ Winner defs r m t p := by
  refine argmin_eq_some_iff defs hk m t _ (fun q => ?_) p
  simp only [List.mem_filter, decide_eq_true_eq, mem_registered, Declares]
  constructor
  · rintro ⟨⟨t', n, hn⟩, hm, hown⟩
    rw [(hk t' n q hn).1] at hown
    exact ⟨n, hown ▸ hn, hm⟩
  · rintro ⟨n, hn, hm⟩
    exact ⟨⟨t, n, hn⟩, hm, (hk t n q hn).1⟩

theorem rebuildModelBucket_lookup_ne (r : AgentRegistry) {m' : String} (h : m' = "" ∨ m' ≠ m) :
    (rebuildModelBucket defs ord r m).byModelTenant.lookup m' = r.byModelTenant.lookup m' := by
  simp only [rebuildModelBucket]
  split
  · rfl
  · rename_i hm
    have hne : m' ≠ m := by
      rcases h with rfl | h
      · exact Ne.symm hm
      · exact h
    split
    · exact AList.lookup_erase_ne hne
    · exact AList.lookup_insert_ne hne

/-- The bucket after a rebuild reads as the collected owners, and is dropped when
    there are none. -/
private theorem rebuildModelBucket_lookup (r : AgentRegistry) (hm : m ≠ "") :
    (rebuildModelBucket defs ord r m).byModelTenant.lookup m =
      if (collectOwners defs ord r.agents m).entries.isEmpty then none
      else some (collectOwners defs ord r.agents m) := by
  simp only [rebuildModelBucket, if_neg hm]
  split
  · exact AList.lookup_erase m _
  · exact AList.lookup_insert _

theorem Declares.exists_winner (hk : Keyed defs r) {n : String} {p : DefPtr}
    (h : Declares defs r m t n p) : ∃ q, Winner defs r m t q := by
  cases hq : scanOwned defs r m t with
  | none =>
    have hmem : p ∈ (registered r).filter fun p => defs.model p = m ∧ defs.owner p = t := by
      have hreg := (mem_registered r p).mpr ⟨t, n, h.1⟩
      simpa [hreg] using ⟨h.2, (hk t n p h.1).1⟩
    rw [List.argmin_eq_none.mp hq] at hmem
    cases hmem
  | some q => exact ⟨q, (scanOwned_eq_some_iff defs hk m t q).mp hq⟩

/-- A rebuild leaves its bucket correct. -/
theorem rebuildModelBucket_indexedAt (hk : Keyed defs r) (hm : m ≠ "") :
    IndexedAt defs (rebuildModelBucket defs ord r m) m := by
  have hdecl : ∀ t n p, Declares defs (rebuildModelBucket defs ord r m) m t n p ↔
      Declares defs r m t n p := by
    simp [Declares, getOwnedForTenant]
  have hlookup := rebuildModelBucket_lookup defs ord r hm
  have howners := collectOwners_lookup defs hk ord m
  by_cases hempty : (collectOwners defs ord r.agents m).entries.isEmpty
  · -- no owner: the bucket is dropped, and nobody declares `m`
    rw [if_pos hempty] at hlookup
    have hno : ∀ t p, ¬ Winner defs r m t p := by
      intro t p hw
      have hp := (howners t p).mpr hw
      rw [GoMap.lookup_eq_some_iff, List.isEmpty_iff.mp hempty] at hp
      cases hp
    constructor
    · intro t p
      rw [GoMap.get₂, hlookup, winner_congr defs (hdecl t)]
      simpa using hno t p
    · rw [hlookup]
      simp only [hdecl]
      constructor
      · intro h; cases h
      · rintro ⟨t, n, p, hp⟩
        obtain ⟨q, hq⟩ := hp.exists_winner defs hk
        exact absurd hq (hno t q)
  · -- the bucket is what was collected
    rw [if_neg hempty] at hlookup
    constructor
    · intro t p
      rw [GoMap.get₂, hlookup, Option.bind_some, howners, winner_congr defs (hdecl t)]
    · rw [hlookup]
      simp only [hdecl]
      refine ⟨fun _ => ?_, fun _ => rfl⟩
      -- the first collected owner declares `m`
      cases he : (collectOwners defs ord r.agents m).entries with
      | nil => rw [he] at hempty; exact absurd rfl hempty
      | cons e rest =>
        have hmem : (collectOwners defs ord r.agents m).lookup e.1 = some e.2 := by
          rw [GoMap.lookup_eq_some_iff, he]
          exact List.mem_cons_self
        obtain ⟨n, hn⟩ := ((howners e.1 e.2).mp hmem).declares
        exact ⟨e.1, n, e.2, hn⟩

/-! ## A sequence of rebuilds -/

/-- A write may break the buckets of the models `ms`; rebuilding these restores the
    whole index. -/
theorem reindex_indexed (ms : List String) (hk : Keyed defs r)
    (hnoEmpty : r.byModelTenant.lookup "" = none)
    (hbucket : ∀ m, m ≠ "" → m ∉ ms → IndexedAt defs r m) :
    Indexed defs (reindex defs ord r ms) := by
  induction ms generalizing r with
  | nil => exact ⟨hk, hnoEmpty, fun m hm => hbucket m hm (by simp)⟩
  | cons m₀ ms ih =>
    -- the rebuilt bucket becomes correct, and the others keep what they had
    have hk' : Keyed defs (rebuildModelBucket defs ord r m₀) := by
      intro t n p
      rw [getOwnedForTenant, rebuildModelBucket_agents]
      exact hk t n p
    refine ih hk' ?_ ?_
    · rw [rebuildModelBucket_lookup_ne defs ord r (.inl rfl), hnoEmpty]
    · intro m hm hnotin
      by_cases hm₀ : m = m₀
      · subst hm₀
        exact rebuildModelBucket_indexedAt defs ord hk hm
      · -- a rebuild of another model does not change who declares `m`
        refine (hbucket m hm (by simp [hm₀, hnotin])).of_declares_iff defs ?_ ?_
        · exact rebuildModelBucket_lookup_ne defs ord r (.inr hm₀)
        · simp [Declares, getOwnedForTenant]

/-! ## Every write keeps the index -/

theorem indexed_newAgentRegistry : Indexed defs newAgentRegistry := by
  refine ⟨keyed_newAgentRegistry defs, rfl, fun m _ => ⟨fun t p => ?_, ?_⟩⟩
  · constructor
    · intro h; cases h
    · rintro ⟨⟨n, hn⟩, -⟩
      cases hn.1
  · constructor
    · intro h; cases h
    · rintro ⟨t, n, p, hp⟩
      cases hp.1

theorem Indexed.with_sources (h : Indexed defs r) (sources : GoMap String (GoMap String String)) :
    Indexed defs { r with sources := sources } :=
  ⟨h.keyed, h.noEmptyModel, fun m hm =>
    (h.bucket m hm).of_declares_iff defs rfl fun _ _ _ => Iff.rfl⟩

theorem Indexed.registerLocked {r : AgentRegistry} (h : Indexed defs r) (ord : MapOrder)
    (p : DefPtr) : Indexed defs (registerLocked defs ord r p) := by
  have hkeyed := h.keyed.registerLocked defs ord p
  have howned := registerLocked_owned defs ord r p
  obtain ⟨byModel, hr, -⟩ := registerLocked_eq_reindex defs ord r p
  rw [hr] at hkeyed howned ⊢
  simp only [getOwnedForTenant, reindex_agents] at howned
  refine reindex_indexed defs ord _ (by simpa [Keyed, getOwnedForTenant] using hkeyed)
    h.noEmptyModel ?_
  intro m hm hnotin
  refine (h.bucket m hm).of_declares_iff defs rfl fun t n q => ?_
  -- neither the new agent nor the one it replaces declares `m`
  have hnew : defs.model p ≠ m := by
    rintro rfl
    apply hnotin
    simp only [registerModels]
    split
    · simp
    · split <;> simp
  have hold : ∀ q', replaced defs r p = some q' → defs.model q' ≠ m := by
    rintro q' hq' rfl
    apply hnotin
    simp only [registerModels, hq']
    rw [if_pos ⟨hm, Ne.symm hnew⟩]
    simp
  simp only [Declares, getOwnedForTenant, howned]
  split
  · rename_i hkey
    obtain ⟨rfl, rfl⟩ := hkey
    constructor
    · rintro ⟨hq, hqm⟩
      cases hq
      exact absurd hqm hnew
    · rintro ⟨hq, hqm⟩
      exact absurd hqm (hold q hq)
  · rfl

theorem Indexed.remove {r : AgentRegistry} (h : Indexed defs r) (ord : MapOrder)
    (name : String) : Indexed defs (remove defs ord r name).1 := by
  by_cases hfound : ∃ p, Swept r name p
  · have hkeyed := h.keyed.remove defs ord r name
    have howned := remove_owned defs ord r name
    obtain ⟨ms, hr, hms⟩ := remove_eq_reindex defs ord r name hfound
    rw [hr] at hkeyed howned ⊢
    simp only [getOwnedForTenant, reindex_agents] at howned
    have hbmt : (sweep defs ord r name).registry.byModelTenant = r.byModelTenant :=
      sweep_byModelTenant defs ord r name
    refine reindex_indexed defs ord ms (by simpa [Keyed, getOwnedForTenant] using hkeyed)
      (hbmt ▸ h.noEmptyModel) ?_
    intro m hm hnotin
    refine (h.bucket m hm).of_declares_iff defs (by rw [hbmt]) fun t n q => ?_
    -- a swept agent of model `m` would have put `m` on the list
    simp only [Declares, getOwnedForTenant, howned]
    split
    · rename_i hn
      subst hn
      simp only [reduceCtorEq, false_and, false_iff, not_and]
      intro hq hqm
      exact hnotin ((hms m).mpr ⟨hm, q, ⟨t, hq⟩, hqm⟩)
    · rfl
  · rw [remove_notFound defs ord r name hfound]
    exact h

theorem Indexed.removeForTenant {r : AgentRegistry} (h : Indexed defs r) (ord : MapOrder)
    (name tenantID : String) : Indexed defs (removeForTenant defs ord r name tenantID).1 := by
  cases hp : r.getOwnedForTenant name tenantID with
  | none =>
    rw [removeForTenant_notFound defs ord r name tenantID hp]
    exact h
  | some p =>
    have hkeyed := h.keyed.removeForTenant defs ord r name tenantID
    have howned := removeForTenant_owned defs ord r name tenantID
    rw [removeForTenant_eq_reindex defs ord r name tenantID hp] at hkeyed howned ⊢
    simp only [getOwnedForTenant, reindex_agents] at howned
    refine reindex_indexed defs ord _ (by simpa [Keyed, getOwnedForTenant] using hkeyed)
      h.noEmptyModel ?_
    intro m hm hnotin
    refine (h.bucket m hm).of_declares_iff defs rfl fun t n q => ?_
    -- the removed agent does not declare `m`, as `m` is not rebuilt
    simp only [Declares, getOwnedForTenant, howned]
    split
    · rename_i hkey
      obtain ⟨rfl, rfl⟩ := hkey
      simp only [reduceCtorEq, false_and, false_iff, not_and]
      intro hq hqm
      rw [getOwnedForTenant, hq] at hp
      cases hp
      simp [hqm] at hnotin
    · rfl

/-- Every write keeps the index. -/
theorem Indexed.apply {r : AgentRegistry} (h : Indexed defs r) (op : Op) :
    Indexed defs (apply defs r op) := by
  have hregister : ∀ ord p, Indexed defs (register defs ord r p) := by
    intro ord p
    cases p with
    | none => exact h
    | some p => exact h.registerLocked defs ord p
  cases op with
  | register p ord => exact hregister ord p
  | registerWithSource p sourcePath ord =>
    obtain ⟨sources, hr⟩ := registerWithSource_eq defs ord r sourcePath p
    rw [AgentRegistry.apply, hr]
    exact (hregister ord p).with_sources defs sources
  | remove name ord => exact h.remove defs ord name
  | removeForTenant name tenantID ord => exact h.removeForTenant defs ord name tenantID

/-- The index is correct after any sequence of writes. -/
theorem Indexed.run {r : AgentRegistry} (h : Indexed defs r) (ops : List Op) :
    Indexed defs (run defs r ops) := by
  induction ops generalizing r with
  | nil => exact h
  | cons op ops ih => exact ih (h.apply defs op)

/-! ## The index refines the scan -/

theorem Indexed.getByModelForTenant_eq (h : Indexed defs r) (hm : m ≠ "") (t : String) :
    r.getByModelForTenant m t = scan defs r m t := by
  -- every slot holds what the scan of its owner finds
  have hslot : ∀ t', r.byModelTenant.get₂ m t' = scanOwned defs r m t' := by
    intro t'
    refine Option.ext fun p => ?_
    rw [(h.bucket m hm).slot, scanOwned_eq_some_iff defs h.keyed]
  rw [scan, ← hslot, ← hslot]
  simp only [getByModelForTenant, GoMap.get₂]
  cases r.byModelTenant.lookup m with
  | none => rfl
  | some owners =>
    simp only [Option.bind_some]
    cases owners.lookup t with
    | none => rfl
    | some p => rfl

/-- After any sequence of writes on an empty registry, `GetByModelForTenant` answers
    what a scan of all registered agents answers, and `byModelTenant` has an entry for
    exactly the models that some registered agent declares. -/
theorem getByModelForTenant_eq_scan (ops : List Op) :
    (∀ m t, m ≠ "" →
      (run defs newAgentRegistry ops).getByModelForTenant m t =
        scan defs (run defs newAgentRegistry ops) m t) ∧
    ∀ m, ((run defs newAgentRegistry ops).byModelTenant.lookup m).isSome ↔
      m ≠ "" ∧ ∃ p ∈ registered (run defs newAgentRegistry ops), defs.model p = m := by
  have h := (indexed_newAgentRegistry defs).run defs ops
  refine ⟨fun m t hm => h.getByModelForTenant_eq defs hm t, fun m => ?_⟩
  by_cases hm : m = ""
  · subst hm
    simp [h.noEmptyModel]
  · rw [(h.bucket m hm).entry]
    simp only [mem_registered, Declares]
    constructor
    · rintro ⟨t, n, p, hp, hpm⟩
      exact ⟨hm, p, ⟨t, n, hp⟩, hpm⟩
    · rintro ⟨-, p, ⟨t, n, hp⟩, hpm⟩
      exact ⟨t, n, p, hp, hpm⟩

/-- Three agents for one model: two of a tenant, and a global one. -/
def threeForModel : Definitions := fun p =>
  if p = 0 then { metadata := { name := "zeta", tenantID := "ten_a" }, spec := { model := "m" } }
  else if p = 1 then
    { metadata := { name := "mid", tenantID := "ten_a" }, spec := { model := "m" } }
  else { metadata := { name := "alpha" }, spec := { model := "m" } }

/-- The tenant resolves its smallest name, not the smaller global one. -/
theorem getByModelForTenant_threeForModel :
    "m" ≠ "" ∧
    (run threeForModel newAgentRegistry
        [.register (some 0) .stored, .register (some 1) .reversed,
          .register (some 2) .stored]).getByModelForTenant "m" "ten_a" =
      scan threeForModel
        (run threeForModel newAgentRegistry
          [.register (some 0) .stored, .register (some 1) .reversed,
            .register (some 2) .stored]) "m" "ten_a" ∧
    (run threeForModel newAgentRegistry
        [.register (some 0) .stored, .register (some 1) .reversed,
          .register (some 2) .stored]).getByModelForTenant "m" "ten_a" = some 1 :=
  ⟨by decide, (getByModelForTenant_eq_scan threeForModel _).1 "m" "ten_a" (by decide),
    by decide⟩

end MockAgents.AgentRegistry
