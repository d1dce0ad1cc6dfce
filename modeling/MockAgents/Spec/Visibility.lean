import MockAgents.Spec.RegistryIndex

/-!
# What a tenant sees of the registry

Every tenant-scoped read of the registry depends only on the agents owned by the tenant
and on the global ones.
-/

namespace MockAgents.AgentRegistry

variable (defs : Definitions)

/-- Tenant `t` owns the same agents in both registries, and so does the global owner. -/
structure SeenAlike (t : String) (r r' : AgentRegistry) : Prop where
  own : ∀ n, r.getOwnedForTenant n t = r'.getOwnedForTenant n t
  global : ∀ n, r.getOwnedForTenant n "" = r'.getOwnedForTenant n ""

theorem getForTenant_eq (r : AgentRegistry) (n t : String) :
    r.getForTenant n t = (r.getOwnedForTenant n t).or (r.getOwnedForTenant n "") := by
  unfold getForTenant getOwnedForTenant
  cases hown : r.agents.get₂ t n with
  | some p => rfl
  | none =>
    simp only [Option.none_or]
    split
    · rfl
    · rename_i ht
      rw [← not_ne_iff.mp ht, hown]

/-- A visible agent has the name under which it is found. -/
theorem name_of_getForTenant {r : AgentRegistry} (hk : Keyed defs r) {n t : String}
    {p : DefPtr} (h : r.getForTenant n t = some p) : defs.name p = n := by
  rw [getForTenant_eq, Option.or_eq_some_iff] at h
  cases h with
  | inl hown => exact (hk t n p hown).2
  | inr hglobal => exact (hk "" n p hglobal.2).2

/-- The merged listing of a tenant, as a map. -/
theorem mergedForTenantLocked_lookup (ord : MapOrder) (r : AgentRegistry) (t n : String) :
    (r.mergedForTenantLocked ord t).lookup n = r.getForTenant n t := by
  have hinner : ∀ o, (((r.agents.lookup o).getD ∅).lookup n) = r.getOwnedForTenant n o := by
    intro o
    rw [getOwnedForTenant, GoMap.get₂]
    cases r.agents.lookup o <;> rfl
  rw [getForTenant_eq]
  simp only [mergedForTenantLocked]
  split
  · rw [GoMap.lookup_copy, GoMap.lookup_copy, hinner, hinner]
    simp
  · rename_i ht
    rw [GoMap.lookup_copy, hinner, not_ne_iff.mp ht]
    simp

theorem mem_listForTenant (ord : MapOrder) (r : AgentRegistry) (t : String) (p : DefPtr) :
    p ∈ r.listForTenant defs ord t ↔ ∃ n, r.getForTenant n t = some p := by
  simp only [listForTenant, mem_sortBy, List.mem_map, MapOrder.mem_visit]
  constructor
  · rintro ⟨⟨n, q⟩, he, hq⟩
    rw [← GoMap.lookup_eq_some_iff, mergedForTenantLocked_lookup] at he
    exact ⟨n, hq ▸ he⟩
  · rintro ⟨n, hn⟩
    rw [← mergedForTenantLocked_lookup ord, GoMap.lookup_eq_some_iff] at hn
    exact ⟨⟨n, p⟩, hn, rfl⟩

/-- No agent is listed twice: it is listed under its own name. -/
theorem nodup_listForTenant {r : AgentRegistry} (hk : Keyed defs r) (ord : MapOrder)
    (t : String) : (r.listForTenant defs ord t).Nodup := by
  refine (List.perm_insertionSort _ _).nodup_iff.mpr (List.Nodup.of_map defs.name ?_)
  have hnames : ((ord.visit (r.mergedForTenantLocked ord t).entries).map (·.2)).map defs.name =
      (ord.visit (r.mergedForTenantLocked ord t).entries).map (·.1) := by
    rw [List.map_map]
    refine List.map_congr_left fun e he => name_of_getForTenant defs hk (n := e.1) (t := t) ?_
    rw [MapOrder.mem_visit, ← GoMap.lookup_eq_some_iff, mergedForTenantLocked_lookup] at he
    exact he
  rw [hnames]
  exact ((ord.perm _).map _).nodup_iff.mpr (r.mergedForTenantLocked ord t).nodupKeys

private theorem slot_congr {r r' : AgentRegistry} (h : Indexed defs r) (h' : Indexed defs r')
    {t : String} (hown : ∀ n, r.getOwnedForTenant n t = r'.getOwnedForTenant n t)
    {m : String} (hm : m ≠ "") : r.byModelTenant.get₂ m t = r'.byModelTenant.get₂ m t := by
  have hdecl : ∀ n p, Declares defs r m t n p ↔ Declares defs r' m t n p := by
    intro n p
    rw [Declares, Declares, hown]
  apply Option.ext
  intro p
  rw [(h.bucket m hm).slot, (h'.bucket m hm).slot, winner_congr defs hdecl]

theorem getByModelForTenant_eq_get₂ (r : AgentRegistry) (m t : String) :
    r.getByModelForTenant m t =
      (r.byModelTenant.get₂ m t).or (r.byModelTenant.get₂ m "") := by
  unfold getByModelForTenant GoMap.get₂
  cases r.byModelTenant.lookup m with
  | none => rfl
  | some owners =>
    simp only [Option.bind_some]
    cases owners.lookup t <;> rfl

namespace SeenAlike

variable {t : String} {r r' : AgentRegistry}

section

variable (h : SeenAlike t r r')
include h

theorem getForTenant (n : String) : r.getForTenant n t = r'.getForTenant n t := by
  rw [getForTenant_eq, getForTenant_eq, h.own, h.global]

theorem getByModelForTenant (hr : Indexed defs r) (hr' : Indexed defs r') {m : String}
    (hm : m ≠ "") : r.getByModelForTenant m t = r'.getByModelForTenant m t := by
  rw [getByModelForTenant_eq_get₂, getByModelForTenant_eq_get₂,
    slot_congr defs hr hr' h.own hm, slot_congr defs hr hr' h.global hm]

/-- The two merged listings hold the same entries, up to order. -/
private theorem visit_perm (ord : MapOrder) :
    (ord.visit (r.mergedForTenantLocked ord t).entries).Perm
      (ord.visit (r'.mergedForTenantLocked ord t).entries) := by
  have hentries := GoMap.entries_perm_of_lookup_eq (r.mergedForTenantLocked ord t)
    (r'.mergedForTenantLocked ord t) (by
      intro n
      rw [mergedForTenantLocked_lookup, mergedForTenantLocked_lookup, h.getForTenant])
  exact (ord.perm _).trans (hentries.trans (ord.perm _).symm)

theorem listNamesForTenant (ord : MapOrder) :
    r.listNamesForTenant ord t = r'.listNamesForTenant ord t :=
  sortBy_eq_of_perm _ (fun _ _ _ _ hab => hab) ((h.visit_perm ord).map _)

theorem listForTenant (hr : Keyed defs r) (ord : MapOrder) :
    r.listForTenant defs ord t = r'.listForTenant defs ord t := by
  refine sortBy_eq_of_perm defs.name ?_ ((h.visit_perm ord).map _)
  -- a listed agent is listed under its own name
  have hname : ∀ p ∈ (ord.visit (r.mergedForTenantLocked ord t).entries).map (·.2),
      r.getForTenant (defs.name p) t = some p := by
    intro p hp
    obtain ⟨⟨n, q⟩, he, rfl⟩ := List.mem_map.mp hp
    rw [MapOrder.mem_visit, ← GoMap.lookup_eq_some_iff, mergedForTenantLocked_lookup] at he
    rw [name_of_getForTenant defs hr he]
    exact he
  intro p hp q hq hpq
  have h₁ := hname p hp
  rw [hpq, hname q hq] at h₁
  exact (Option.some.inj h₁).symm

end

end SeenAlike

end MockAgents.AgentRegistry
