import MockAgents.ForStd.Goroutines
import MockAgents.ForStd.Trace
import MockAgents.Quota.Enforcer

/-!
# Quota overrides

`PUT /api/v1/tenants/{id}/quota` stores an override and then applies it to the live enforcer. The
two steps have no common lock: of two requests for one tenant, the one that stores first may apply
last, and the enforcer then keeps the older override. In every run in which an override is stored
only while no other one of its tenant waits to be applied, the two agree in the end.
-/

namespace MockAgents

/-- A request, with the error text of a body that is not decoded. -/
structure QuotaPut where
  id : String
  body : Except String QuotaConfig

inductive QuotaAnswer where
  | error (status : Nat) (message : String)
  | ok (tenantID : String) (limits : QuotaConfig)

/-- `SetTenantQuota` up to the call of the store. -/
def QuotaPut.check (r : QuotaPut) : Except QuotaAnswer QuotaConfig :=
  if r.id = "" then .error (.error 400 "missing tenant id")
  else
    match r.body with
    | .error err => .error (.error 400 ("invalid JSON: " ++ err))
    | .ok cfg =>
      if cfg.ratePerSec < 0 ∨ cfg.rateBurst < 0 ∨ cfg.monthlySpendUSD < 0 then
        .error (.error 400 "quota values must be non-negative")
      else .ok cfg

/-- Where a request is. -/
inductive QuotaPc where
  | persist (id : String) (cfg : QuotaConfig)
  | apply (id : String) (cfg : QuotaConfig)
  | done (answer : QuotaAnswer)

/-- Whether an override of the tenant is stored and not yet applied. -/
def QuotaPc.applies (id : String) : QuotaPc → Bool
  | .apply id' _ => id' = id
  | _ => false

def QuotaPc.isDone : QuotaPc → Bool
  | .done _ => true
  | _ => false

/-- The tables `tenants` and `tenant_quotas`, the enforcer and the requests. -/
structure QuotaSystem where
  tenants : List String
  stored : GoMap String QuotaConfig := ∅
  enforcer : Enforcer
  puts : List QuotaPc := []

inductive QuotaEvent where
  | put (r : QuotaPut)
  /-- The next step of a request; the store may fail. -/
  | advance (i : Nat) (fails : Bool)

namespace QuotaSystem

def advance (s : QuotaSystem) (i : Nat) (fails : Bool) : QuotaPc → Option QuotaSystem
  | .persist id cfg =>
    if id ∉ s.tenants then
      some { s with puts := s.puts.set i (.done (.error 404 "tenant not found")) }
    else if fails then
      some { s with puts := s.puts.set i (.done (.error 500 "internal error")) }
    else some { s with stored := s.stored.insert id cfg, puts := s.puts.set i (.apply id cfg) }
  | .apply id cfg =>
    some { s with
      enforcer := s.enforcer.setOverride id cfg, puts := s.puts.set i (.done (.ok id cfg)) }
  | .done _ => none

def step (s : QuotaSystem) : QuotaEvent → Option QuotaSystem
  | .put r =>
    let pc := match r.check with
      | .ok cfg => .persist r.id cfg
      | .error answer => .done answer
    some { s with puts := s.puts ++ [pc] }
  | .advance i fails => s.puts[i]?.bind (s.advance i fails)

/-- The override in force of every tenant is the stored one. -/
def Agrees (s : QuotaSystem) : Prop :=
  ∀ id, s.enforcer.overrides.lookup id = s.stored.lookup id

/-- The condition on a step: what is stored of the tenant has been applied. -/
def appliesFirst (s : QuotaSystem) : QuotaEvent → Bool
  | .put _ => true
  | .advance i _ =>
    match s.puts[i]? with
    | some (.persist id _) => s.puts.all fun pc => !pc.applies id
    | _ => true

/-! ## Every interleaving -/

/-- A waiting override is the stored one, and a tenant that waits for none agrees. -/
structure Sound (s : QuotaSystem) : Prop where
  named : ∀ id cfg, .persist id cfg ∈ s.puts ∨ .apply id cfg ∈ s.puts → id ≠ ""
  waits : ∀ id cfg, .apply id cfg ∈ s.puts → s.stored.lookup id = some cfg
  agrees : ∀ id, (∀ cfg, .apply id cfg ∉ s.puts) →
    s.enforcer.overrides.lookup id = s.stored.lookup id

variable {s s' : QuotaSystem} {i : Nat} {fails : Bool} {pc : QuotaPc}

/-- A request that has nothing left to apply returns. -/
theorem Sound.finish {answer : QuotaAnswer} (h : s.Sound) (hpc : s.puts[i]? = some pc)
    (happly : ∀ id cfg, pc ≠ .apply id cfg) :
    { s with puts := s.puts.set i (.done answer) }.Sound := by
  -- the other requests are the same before and after the step
  obtain ⟨rest, hperm, hperm'⟩ := List.exists_perm_set hpc
  have hrest : ∀ pc', pc' ∈ s.puts.set i (.done answer) → (∀ a, pc' ≠ .done a) →
      pc' ∈ s.puts := by
    intro pc' hmem hne
    rw [(hperm' _).mem_iff, List.mem_cons] at hmem
    rw [hperm.mem_iff]
    exact List.mem_cons_of_mem _ (hmem.resolve_left (hne answer))
  refine ⟨?_, ?_, ?_⟩
  · rintro id cfg (hmem | hmem)
    · exact h.named id cfg (.inl (hrest _ hmem (by simp)))
    · exact h.named id cfg (.inr (hrest _ hmem (by simp)))
  · exact fun id cfg hmem => h.waits id cfg (hrest _ hmem (by simp))
  · refine fun id hnone => h.agrees id fun cfg hmem => hnone cfg ?_
    rw [hperm.mem_iff, List.mem_cons] at hmem
    rw [(hperm' _).mem_iff]
    exact List.mem_cons_of_mem _ (hmem.resolve_left (happly id cfg).symm)

/-- An override is stored while no other one of its tenant waits. -/
theorem Sound.store {id : String} {cfg : QuotaConfig} (h : s.Sound)
    (hpc : s.puts[i]? = some (.persist id cfg)) (hfirst : s.appliesFirst (.advance i fails)) :
    { s with stored := s.stored.insert id cfg,
             puts := s.puts.set i (.apply id cfg) }.Sound := by
  obtain ⟨rest, hperm, hperm'⟩ := List.exists_perm_set hpc
  obtain ⟨hnamed, hwaits, hagrees⟩ := h
  simp only [appliesFirst, hpc, List.all_eq_true, hperm.mem_iff] at hfirst
  simp only [hperm.mem_iff, List.mem_cons] at hnamed hwaits hagrees
  refine ⟨?_, ?_, ?_⟩ <;> simp only [(hperm' _).mem_iff, List.mem_cons]
  · grind
  · -- the one that waits for this tenant is the new one
    intro id' cfg' hmem
    rw [GoMap.lookup_insert_eq]
    grind [QuotaPc.applies]
  · -- the tenant has one that waits now
    intro id' hnone
    have hne : id' ≠ id := fun heq => hnone cfg (.inl (by rw [heq]))
    rw [GoMap.lookup_insert_eq, if_neg hne]
    exact hagrees id' (by grind)

/-- The stored override is applied. -/
theorem Sound.apply {id : String} {cfg : QuotaConfig} {answer : QuotaAnswer} (h : s.Sound)
    (hpc : s.puts[i]? = some (.apply id cfg)) :
    { s with enforcer := s.enforcer.setOverride id cfg,
             puts := s.puts.set i (.done answer) }.Sound := by
  obtain ⟨rest, hperm, hperm'⟩ := List.exists_perm_set hpc
  obtain ⟨hnamed, hwaits, hagrees⟩ := h
  simp only [hperm.mem_iff, List.mem_cons] at hnamed hwaits hagrees
  have hid : id ≠ "" := hnamed id cfg (by simp)
  refine ⟨?_, ?_, ?_⟩ <;> simp only [(hperm' _).mem_iff, List.mem_cons]
  · grind
  · grind
  · intro id' hnone
    rw [Enforcer.setOverride, if_neg hid, GoMap.lookup_insert_eq]
    split
    · rename_i heq
      rw [heq, hwaits id cfg (by simp)]
    · exact hagrees id' (by grind)

theorem Sound.advance (h : s.Sound) (hpc : s.puts[i]? = some pc)
    (hfirst : s.appliesFirst (.advance i fails)) (hstep : s.advance i fails pc = some s') :
    s'.Sound := by
  cases pc with
  | persist id cfg =>
    simp only [QuotaSystem.advance] at hstep
    split at hstep
    · cases hstep
      exact h.finish hpc (by simp)
    · split at hstep <;> cases hstep
      · exact h.finish hpc (by simp)
      · exact h.store hpc hfirst
  | apply id cfg =>
    cases hstep
    exact h.apply hpc
  | done => cases hstep

theorem Sound.step {ev : QuotaEvent} (h : s.Sound) (hfirst : s.appliesFirst ev)
    (hstep : s.step ev = some s') : s'.Sound := by
  cases ev with
  | put r =>
    cases hstep
    obtain ⟨hnamed, hwaits, hagrees⟩ := h
    constructor <;> grind [QuotaPut.check]
  | advance i fails =>
    obtain ⟨pc, hpc, hadvance⟩ := Option.bind_eq_some_iff.mp hstep
    exact h.advance hpc hfirst hadvance

/-- In every run in which an override is stored only while no other one of its tenant waits, the
    overrides in force are the stored ones once all requests have returned. -/
theorem agrees_of_appliesFirst {s₀ : QuotaSystem} {events : List QuotaEvent} (hstart : s₀.Agrees)
    (hputs : s₀.puts = []) (hsteps : AllSteps step (fun s ev => s.appliesFirst ev) s₀ events)
    (hrun : runOption step s₀ events = some s) (hdone : s.puts.all (·.isDone) = true) :
    s.Agrees := by
  have hinit : s₀.Sound := by constructor <;> simp [hputs, hstart _]
  have hs : s.Sound := runOption_inv_of_allSteps step _ Sound
    (fun s ev s' hfirst hstep hs => hs.step hfirst hstep) hsteps hrun hinit
  refine fun id => hs.agrees id fun cfg hmem => ?_
  cases List.all_eq_true.mp hdone _ hmem

/-- A request for the tenant `t`. -/
def demoPut (burst : Int) : QuotaEvent := .put ⟨"t", .ok { rateBurst := burst }⟩

def demoQuotas : QuotaSystem := { tenants := ["t"], enforcer := { defaults := {} } }

def oneByOne : List QuotaEvent :=
  [demoPut 1, demoPut 2, .advance 0 false, .advance 0 false, .advance 1 false, .advance 1 false]

theorem oneByOne_agrees : ∃ s, runOption step demoQuotas oneByOne = some s ∧ s.Agrees ∧
    (s.stored.lookup "t").map (·.rateBurst) = some 2 := by
  obtain ⟨s, hs, hdone, hstored⟩ : ∃ s, runOption step demoQuotas oneByOne = some s ∧
      s.puts.all (·.isDone) = true ∧ (s.stored.lookup "t").map (·.rateBurst) = some 2 := by
    decide
  exact ⟨s, hs, agrees_of_appliesFirst (fun _ => rfl) rfl (by decide) hs hdone, hstored⟩

/-- The request that stores first applies last. -/
def crossed : List QuotaEvent :=
  [demoPut 1, demoPut 2, .advance 0 false, .advance 1 false, .advance 1 false, .advance 0 false]

theorem crossed_not_agrees : ∃ s, runOption step demoQuotas crossed = some s ∧
    s.puts.all (·.isDone) = true ∧ ¬ s.Agrees := by
  obtain ⟨s, hs, hdone, hne⟩ : ∃ s, runOption step demoQuotas crossed = some s ∧
      s.puts.all (·.isDone) = true ∧ (s.enforcer.overrides.lookup "t").map (·.rateBurst) ≠
        (s.stored.lookup "t").map (·.rateBurst) := by decide
  exact ⟨s, hs, hdone, fun hagrees => hne (by rw [hagrees "t"])⟩

end QuotaSystem

end MockAgents
