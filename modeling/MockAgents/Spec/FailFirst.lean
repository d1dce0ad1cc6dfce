import Mathlib.Data.Int.SuccPred
import MockAgents.ForStd.Goroutines
import MockAgents.Spec.ChaosIsolation

/-!
# Faults of the first requests

Calls of `Before` for all agents, in any interleaving of their lock regions: the limiter, the
error counter and the connection counter. A call is decided by its last check. Nothing is decided
at the connection counter until `errors.fail_first` calls have failed at the error counter, so
that in the order of the decisions the injected errors come first and the connection faults next.

The counters are keyed by the agent's name. The requests to an agent are counted together with
those to another tenant's agent of this name, and then neither gets the faults configured for it.
-/

namespace MockAgents

open ChaosInjector (beforeConnection beforeErrors injectedError shouldTrigger)

/-- The check that a call of `Before` makes next. -/
inductive BeforePc where
  | limiter
  | errors
  | connection
  | returned
  deriving DecidableEq

/-- The injector and the calls. `decided` has the results of the calls that the limiter
    admitted, in the order of their last checks. -/
structure ChaosSystem where
  injector : ChaosInjector := .newChaosInjector
  calls : List (AgentDefinition × BeforePc) := []
  decided : List (ChaosRequest × Option ChaosError) := []

/-- A call of `Before` begins, or makes its next check. -/
inductive ChaosEvent where
  | call (agent : AgentDefinition)
  | check (i : Nat) (draws : ChaosDraws)

/-- `errors.fail_first`. -/
def ChaosConfig.failErrors (cfg : ChaosConfig) : Int := (cfg.errors.map (·.failFirst)).getD 0

/-- `connection.fail_first`. -/
def ChaosConfig.failConns (cfg : ChaosConfig) : Int := (cfg.connection.map (·.failFirst)).getD 0

/-- Faults are configured by `fail_first` only. -/
def ChaosConfig.FailsFirst (cfg : ChaosConfig) : Prop :=
  (∀ x ∈ cfg.errors, x.rate = 0 ∧ 0 ≤ x.failFirst) ∧
    ∀ x ∈ cfg.connection, x.rate = 0 ∧ 0 ≤ x.failFirst

/-- The result that is configured for the `k`th admitted request. -/
def ChaosConfig.configured (cfg : ChaosConfig) (k : Nat) (draws : ChaosDraws) :
    Option ChaosError :=
  if k < cfg.failErrors then cfg.errors.map (injectedError · draws.statusPick)
  else if k < cfg.failErrors + cfg.failConns then
    cfg.connection.map fun cc => { connection := if cc.mode = "" then "empty" else cc.mode }
  else none

namespace ChaosSystem

/-- The next check of the `i`th call. Each one is a region of its own under the lock. -/
def check (s : ChaosSystem) (i : Nat) (agent : AgentDefinition) (cfg : ChaosConfig)
    (draws : ChaosDraws) : BeforePc → Option ChaosSystem
  | .limiter =>
    let r := s.injector.beforeRateLimit agent.metadata.name cfg draws
    some { s with
      injector := r.1
      calls := s.calls.set i (agent, if r.2.isSome then .returned else .errors) }
  | .errors =>
    let r := s.injector.beforeErrors agent.metadata.name cfg draws
    some (if r.2.isSome then
        ⟨r.1, s.calls.set i (agent, .returned), s.decided ++ [(⟨agent, draws⟩, r.2)]⟩
      else ⟨r.1, s.calls.set i (agent, .connection), s.decided⟩)
  | .connection =>
    let r := s.injector.beforeConnection agent.metadata.name cfg draws
    some ⟨r.1, s.calls.set i (agent, .returned), s.decided ++ [(⟨agent, draws⟩, r.2)]⟩
  | .returned => none

/-- One step. An agent without a chaos section has no checks. -/
def step (s : ChaosSystem) : ChaosEvent → Option ChaosSystem
  | .call agent => some { s with calls := s.calls ++ [(agent, .limiter)] }
  | .check i draws =>
    s.calls[i]?.bind fun call =>
      (chaosFor call.1).bind fun cfg => s.check i call.1 cfg draws call.2

variable (agent : AgentDefinition) (cfg : ChaosConfig)

/-- The decisions for an agent. -/
def decisionsFor (s : ChaosSystem) : List (ChaosRequest × Option ChaosError) :=
  s.decided.filter fun d => d.1.resolvedTo agent.metadata.tenantID agent.metadata.name

/-- A same-named agent has another owner and counts no fault that this agent counts. -/
def Separate (other : AgentDefinition) : Prop :=
  other.metadata.name = agent.metadata.name →
    other.metadata.tenantID ≠ agent.metadata.tenantID ∧
      ∀ kind, kind ≠ .rateLimit → ¬(agent.counts kind = true ∧ other.counts kind = true)

/-- A request is made to the agent itself or to one that shares no counter with it. -/
def NoSharedCounter (_ : ChaosSystem) : ChaosEvent → Prop
  | .call other => other = agent ∨ Separate agent other
  | .check _ _ => True

/-- How often the two counters were bumped; a counter without a limit is not looked at. -/
def errorCount (c : ChaosInjector) : Int :=
  if 0 < cfg.failErrors then (c.errorCounts.lookup agent.metadata.name).getD 0 else 0

@[inherit_doc errorCount]
def connCount (c : ChaosInjector) : Int :=
  if 0 < cfg.failConns then (c.connCounts.lookup agent.metadata.name).getD 0 else 0

/-- The counters and the decisions for an agent so far. -/
structure Counted (s : ChaosSystem) : Prop where
  calls : ∀ call ∈ s.calls, call.1 = agent ∨ Separate agent call.1
  /-- A call that was not failed at the error counter came after all that were. -/
  counts : 0 ≤ errorCount agent cfg s.injector ∧
    (errorCount agent cfg s.injector < cfg.failErrors →
      (s.decisionsFor agent).length = errorCount agent cfg s.injector) ∧
    (cfg.failErrors ≤ errorCount agent cfg s.injector →
      cfg.failErrors ≤ (s.decisionsFor agent).length) ∧
    (0 < cfg.failConns → connCount agent cfg s.injector =
      (s.decisionsFor agent).length - min (errorCount agent cfg s.injector) cfg.failErrors)
  passed : (agent, .connection) ∈ s.calls → cfg.failErrors ≤ errorCount agent cfg s.injector
  decided : ∀ k d, (s.decisionsFor agent)[k]? = some d → d.2 = cfg.configured k d.1.draws

variable {agent cfg} {c c' : ChaosInjector} {draws : ChaosDraws}

/-- The error count depends on the agent's entry of the error counter. -/
theorem errorCount_congr
    (h : 0 < cfg.failErrors → ChaosInjector.SameEntry .errors agent.metadata.name c' c) :
    errorCount agent cfg c' = errorCount agent cfg c := by
  rw [errorCount, errorCount]
  split
  · rename_i hpos
    rw [show AList.lookup _ c'.errorCounts = _ from h hpos]
  · rfl

@[inherit_doc errorCount_congr]
theorem connCount_congr
    (h : 0 < cfg.failConns → ChaosInjector.SameEntry .connection agent.metadata.name c' c) :
    connCount agent cfg c' = connCount agent cfg c := by
  rw [connCount, connCount]
  split
  · rename_i hpos
    rw [show AList.lookup _ c'.connCounts = _ from h hpos]
  · rfl

/-- The error counter is bumped if it has a limit, and the call fails up to this limit. -/
theorem beforeErrors_eq (agent : AgentDefinition) (c : ChaosInjector) (draws : ChaosDraws)
    (h : cfg.FailsFirst) :
    errorCount agent cfg (c.beforeErrors agent.metadata.name cfg draws).1 =
        errorCount agent cfg c + (if 0 < cfg.failErrors then 1 else 0) ∧
      (c.beforeErrors agent.metadata.name cfg draws).2 =
        if errorCount agent cfg c < cfg.failErrors then
          cfg.errors.map (injectedError · draws.statusPick)
        else none := by
  obtain ⟨_, _, _ | x, _, _⟩ := cfg
  · simp [beforeErrors, ChaosConfig.failErrors, errorCount]
  · have hrate : x.rate = 0 := (h.1 x rfl).1
    by_cases hpos : 0 < x.failFirst
    · simp [beforeErrors, ChaosConfig.failErrors, ChaosInjector.maybeInjectError,
        shouldTrigger, hpos, errorCount]
    · simp [beforeErrors, ChaosConfig.failErrors, hrate, hpos, errorCount]

@[inherit_doc beforeErrors_eq]
theorem beforeConnection_eq (agent : AgentDefinition) (c : ChaosInjector) (draws : ChaosDraws)
    (h : cfg.FailsFirst) :
    connCount agent cfg (c.beforeConnection agent.metadata.name cfg draws).1 =
        connCount agent cfg c + (if 0 < cfg.failConns then 1 else 0) ∧
      (c.beforeConnection agent.metadata.name cfg draws).2 =
        if connCount agent cfg c < cfg.failConns ∧ 0 < cfg.failConns then
          cfg.connection.map fun cc => { connection := if cc.mode = "" then "empty" else cc.mode }
        else none := by
  obtain ⟨_, _, _, _, _ | x⟩ := cfg
  · simp [beforeConnection, ChaosConfig.failConns, connCount]
  · have hrate : x.rate = 0 := (h.2 x rfl).1
    by_cases hpos : 0 < x.failFirst
    · simp [beforeConnection, ChaosConfig.failConns,
        ChaosInjector.maybeInjectConnectionFault, shouldTrigger, hpos, connCount]
    · simp [beforeConnection, ChaosConfig.failConns, hrate, hpos, connCount]

theorem FailsFirst.nonneg (h : cfg.FailsFirst) : 0 ≤ cfg.failErrors ∧ 0 ≤ cfg.failConns := by
  obtain ⟨_, _, errors, _, connection⟩ := cfg
  cases errors <;> cases connection <;>
    simp_all [ChaosConfig.FailsFirst, ChaosConfig.failErrors, ChaosConfig.failConns]

/-- A fault with a limit is one that the agent counts. -/
theorem counts_of_fail (hcfg : chaosFor agent = some cfg) :
    (0 < cfg.failErrors → agent.counts .errors = true) ∧
      (0 < cfg.failConns → agent.counts .connection = true) := by
  obtain ⟨_, _, errors, _, connection⟩ := cfg
  cases errors <;> cases connection <;>
    simp [AgentDefinition.counts, hcfg, ChaosConfig.counts, ChaosConfig.failErrors,
      ChaosConfig.failConns]

variable {s s' : ChaosSystem} {ev : ChaosEvent} {i : Nat}

/-! ## Requests to other agents -/

section Others

variable {other : AgentDefinition} {cfg' : ChaosConfig}

/-- A check for another agent leaves the counters of this one alone. -/
theorem Separate.counts_eq (h : Separate agent other) (hcfg : chaosFor agent = some cfg)
    (hother : chaosFor other = some cfg') {kind : FaultKind}
    {f : ChaosInjector → ChaosInjector × Option ChaosError}
    (hf : ChaosInjector.WorksOn kind other.metadata.name (cfg'.counts kind) f) :
    errorCount agent cfg (f c).1 = errorCount agent cfg c ∧
      connCount agent cfg (f c).1 = connCount agent cfg c := by
  have hsame : ∀ k, k ≠ .rateLimit → agent.counts k = true →
      ChaosInjector.SameEntry k agent.metadata.name (f c).1 c := by
    intro k hk hcounts
    refine hf.sameEntry ?_ c
    by_cases hname : other.metadata.name = agent.metadata.name
    · have hnot : other.counts k = false := by simpa [hcounts] using (h hname).2 k hk
      exact .inr (by simpa [AgentDefinition.counts, hother] using hnot)
    · exact .inl (Ne.symm hname)
  obtain ⟨herrors, hconns⟩ := counts_of_fail hcfg
  exact ⟨errorCount_congr fun hpos => hsame _ (by simp) (herrors hpos),
    connCount_congr fun hpos => hsame _ (by simp) (hconns hpos)⟩

theorem Separate.not_resolvedTo (h : Separate agent other) :
    (ChaosRequest.mk other draws).resolvedTo agent.metadata.tenantID agent.metadata.name =
      false := by
  rw [Bool.eq_false_iff, ne_eq, ChaosRequest.resolvedTo_iff]
  exact fun ⟨hid, hname⟩ => (h hname).1 hid

theorem Separate.decisionsFor_snoc (h : Separate agent other) {out : Option ChaosError}
    {calls : List (AgentDefinition × BeforePc)} :
    (ChaosSystem.mk c calls (s.decided ++ [(⟨other, draws⟩, out)])).decisionsFor agent =
      s.decisionsFor agent := by
  simp [decisionsFor, h.not_resolvedTo]

/-- What another agent's check does, as far as this one is concerned. -/
theorem check_other (h : Separate agent other) (hcfg : chaosFor agent = some cfg)
    (hother : chaosFor other = some cfg') {pc : BeforePc}
    (hstep : s.check i other cfg' draws pc = some s') :
    errorCount agent cfg s'.injector = errorCount agent cfg s.injector ∧
      connCount agent cfg s'.injector = connCount agent cfg s.injector ∧
      s'.decisionsFor agent = s.decisionsFor agent ∧
      ∃ pc', s'.calls = s.calls.set i (other, pc') := by
  cases pc with
  | limiter =>
    cases hstep
    obtain ⟨herr, hconn⟩ := h.counts_eq (c := s.injector) hcfg hother
      (ChaosInjector.beforeRateLimit_worksOn _ cfg' draws)
    exact ⟨herr, hconn, rfl, _, rfl⟩
  | errors =>
    cases hstep
    obtain ⟨herr, hconn⟩ := h.counts_eq (c := s.injector) hcfg hother
      (ChaosInjector.beforeErrors_worksOn _ cfg' draws)
    split
    · exact ⟨herr, hconn, h.decisionsFor_snoc, _, rfl⟩
    · exact ⟨herr, hconn, rfl, _, rfl⟩
  | connection =>
    cases hstep
    obtain ⟨herr, hconn⟩ := h.counts_eq (c := s.injector) hcfg hother
      (ChaosInjector.beforeConnection_worksOn _ cfg' draws)
    exact ⟨herr, hconn, h.decisionsFor_snoc, _, rfl⟩
  | returned => cases hstep

end Others

/-! ## Requests to the agent -/

theorem decisionsFor_snoc {out : Option ChaosError}
    {calls : List (AgentDefinition × BeforePc)} :
    (ChaosSystem.mk c calls (s.decided ++ [(⟨agent, draws⟩, out)])).decisionsFor agent =
      s.decisionsFor agent ++ [(⟨agent, draws⟩, out)] := by
  simp [decisionsFor, ChaosRequest.resolvedTo]

/-- A decision is the next one of the configured ones. -/
theorem Counted.snoc (h : Counted agent cfg s) {d : ChaosRequest × Option ChaosError}
    (hout : d.2 = cfg.configured (s.decisionsFor agent).length d.1.draws) (k : Nat)
    (d' : ChaosRequest × Option ChaosError)
    (hk : (s.decisionsFor agent ++ [d])[k]? = some d') :
    d'.2 = cfg.configured k d'.1.draws := by
  rcases List.getElem?_snoc_cases hk with ⟨rfl, rfl⟩ | hk
  · exact hout
  · exact h.decided k d' hk

/-- A check for the agent itself. -/
theorem Counted.check (h : Counted agent cfg s) (hfirst : cfg.FailsFirst) {pc : BeforePc}
    (hpc : s.calls[i]? = some (agent, pc)) (hstep : s.check i agent cfg draws pc = some s') :
    Counted agent cfg s' := by
  have hcounts := h.counts
  have hcalls : ∀ {pc'}, ∀ call ∈ s.calls.set i (agent, pc'),
      call.1 = agent ∨ Separate agent call.1 := by
    intro pc' call hmem
    rcases List.mem_or_eq_of_mem_set hmem with hmem | rfl
    · exact h.calls call hmem
    · exact .inl rfl
  have hset : ∀ {pc'}, pc' ≠ .connection → (agent, .connection) ∈ s.calls.set i (agent, pc') →
      cfg.failErrors ≤ errorCount agent cfg s.injector := by
    intro pc' hne hmem
    rcases List.mem_or_eq_of_mem_set hmem with hmem | heq
    · exact h.passed hmem
    · exact absurd (Prod.mk.inj heq).2.symm hne
  cases pc with
  | limiter =>
    cases hstep
    have hframe := (ChaosInjector.beforeRateLimit_worksOn agent.metadata.name cfg draws).frame
      s.injector
    have herr : errorCount agent cfg
        (s.injector.beforeRateLimit agent.metadata.name cfg draws).1 = _ :=
      errorCount_congr fun _ => hframe .errors _ (.inl (by simp))
    have hconn : connCount agent cfg
        (s.injector.beforeRateLimit agent.metadata.name cfg draws).1 = _ :=
      connCount_congr fun _ => hframe .connection _ (.inl (by simp))
    refine ⟨hcalls, ?_, ?_, h.decided⟩
    · simp only [herr, hconn]
      exact hcounts
    · simp only [herr]
      exact hset (by split <;> simp)
  | errors =>
    obtain ⟨herr, hout⟩ := beforeErrors_eq agent s.injector draws hfirst
    have hconn : connCount agent cfg
        (s.injector.beforeErrors agent.metadata.name cfg draws).1 = _ :=
      connCount_congr fun _ => (ChaosInjector.beforeErrors_worksOn _ cfg draws).frame
        s.injector .connection _ (.inl (by simp))
    cases hstep
    split
    · -- the counter has not come to its limit
      rename_i hfails
      have hlt : errorCount agent cfg s.injector < cfg.failErrors := by
        by_contra hge
        simp [hout, hge] at hfails
      refine ⟨hcalls, ?_, ?_, ?_⟩
      · rw [decisionsFor_snoc]
        simp only [herr, hconn, List.length_append, List.length_singleton]
        split <;> omega
      · intro hmem
        have := hset (by simp) hmem
        omega
      · rw [decisionsFor_snoc]
        refine h.snoc ?_
        rw [hout, ChaosConfig.configured, if_pos (by omega), if_pos (by omega)]
    · -- the limit is passed, and the call goes on to the connection counter
      rename_i hpasses
      have hge : cfg.failErrors ≤ errorCount agent cfg s.injector := by
        by_contra hlt
        rw [hout, if_pos (by omega)] at hpasses
        have hnone : cfg.failErrors = 0 := by simp_all [ChaosConfig.failErrors]
        omega
      refine ⟨hcalls, ?_, ?_, h.decided⟩
      · simp only [herr, hconn, decisionsFor] at hcounts ⊢
        split <;> omega
      · simp only [herr]
        split <;> omega
  | connection =>
    cases hstep
    obtain ⟨hconn, hout⟩ := beforeConnection_eq agent s.injector draws hfirst
    have herr : errorCount agent cfg
        (s.injector.beforeConnection agent.metadata.name cfg draws).1 = _ :=
      errorCount_congr fun _ => (ChaosInjector.beforeConnection_worksOn _ cfg draws).frame
        s.injector .errors _ (.inl (by simp))
    have hfailed := h.passed (List.mem_of_getElem? hpc)
    refine ⟨hcalls, ?_, ?_, ?_⟩
    · rw [decisionsFor_snoc]
      simp only [herr, hconn, List.length_append, List.length_singleton]
      split <;> omega
    · simp only [herr]
      exact hset (by simp)
    · rw [decisionsFor_snoc]
      refine h.snoc ?_
      rw [hout, ChaosConfig.configured,
        if_neg (show ¬ ((s.decisionsFor agent).length : Int) < cfg.failErrors by omega)]
      exact if_congr (by omega) rfl rfl
  | returned => cases hstep

theorem Counted.step (h : Counted agent cfg s) (hcfg : chaosFor agent = some cfg)
    (hfirst : cfg.FailsFirst) (hev : NoSharedCounter agent s ev) (hstep : s.step ev = some s') :
    Counted agent cfg s' := by
  cases ev with
  | call other =>
    cases hstep
    refine { h with
      calls := fun call hmem => ?_
      passed := fun hmem => h.passed (by simpa using hmem) }
    rcases List.mem_append.mp hmem with hmem | hmem
    · exact h.calls call hmem
    · obtain rfl := List.mem_singleton.mp hmem
      exact hev
  | check i draws =>
    obtain ⟨⟨other, pc⟩, hpc, hstep⟩ := Option.bind_eq_some_iff.mp hstep
    obtain ⟨cfg', hother, hstep⟩ := Option.bind_eq_some_iff.mp hstep
    rcases h.calls _ (List.mem_of_getElem? hpc) with rfl | hsep
    · obtain rfl := Option.some.inj (hcfg.symm.trans hother)
      exact h.check hfirst hpc hstep
    · -- a call of another agent counts elsewhere
      obtain ⟨herr, hconn, hdecisions, pc', hcalls⟩ := check_other hsep hcfg hother hstep
      refine ⟨fun call hmem => ?_, ?_, fun hmem => ?_, ?_⟩
      · rw [hcalls] at hmem
        rcases List.mem_or_eq_of_mem_set hmem with hmem | rfl
        · exact h.calls call hmem
        · exact .inr hsep
      · rw [herr, hconn, hdecisions]
        exact h.counts
      · rw [hcalls] at hmem
        rw [herr]
        rcases List.mem_or_eq_of_mem_set hmem with hmem | heq
        · exact h.passed hmem
        · obtain ⟨rfl, -⟩ := Prod.mk.inj heq
          exact absurd rfl (hsep rfl).1
      · rw [hdecisions]
        exact h.decided

/-- In every interleaving, the requests to an agent that the limiter admits get what is
    configured for their place, if no other agent shares its counters: first the injected errors,
    then the connection faults, then neither. -/
theorem run_configured {events : List ChaosEvent} (hcfg : chaosFor agent = some cfg)
    (hfirst : cfg.FailsFirst) (hsteps : AllSteps step (NoSharedCounter agent) {} events)
    (hrun : runOption step {} events = some s) {k : Nat} {d : ChaosRequest × Option ChaosError}
    (h : (s.decisionsFor agent)[k]? = some d) : d.2 = cfg.configured k d.1.draws := by
  have hstart : Counted agent cfg {} := by
    have hpos := FailsFirst.nonneg hfirst
    refine ⟨by simp, ?_, by simp, by simp [decisionsFor]⟩
    simp [errorCount, connCount, ChaosInjector.newChaosInjector, decisionsFor, hpos]
  have hend := runOption_inv_of_allSteps step _ (Counted agent cfg)
    (fun _ _ _ hev hstep hinv => hinv.step hcfg hfirst hev hstep) hsteps hrun hstart
  exact hend.decided k d h

/-- Each agent fails its first request. -/
def failsOnce : ChaosConfig := { errors := some { failFirst := 1 } }

/-- The two requests to `a`'s agent overlap with one to `b`'s, which counts another fault. -/
def overlapping : List ChaosEvent :=
  [.call (botOf "a" failsOnce).agent,
    .call (botOf "b" { connection := some { mode := "reset", failFirst := 1 } }).agent,
    .call (botOf "a" failsOnce).agent] ++ [0, 1, 2, 0, 1, 2, 2, 1].map (ChaosEvent.check · {})

theorem overlapping_configured :
    ∃ s, runOption step {} overlapping = some s ∧
      (s.decisionsFor (botOf "a" failsOnce).agent).length = 2 ∧
      ∀ k d, (s.decisionsFor (botOf "a" failsOnce).agent)[k]? = some d →
        d.2 = failsOnce.configured k d.1.draws := by
  obtain ⟨s, hrun, hlen⟩ : ∃ s, runOption step {} overlapping = some s ∧
      (s.decisionsFor (botOf "a" failsOnce).agent).length = 2 := by decide
  refine ⟨s, hrun, hlen, fun k d h => run_configured rfl
    (by simp [failsOnce, ChaosConfig.FailsFirst]) (.of_forall fun ev hev s => ?_) hrun h⟩
  simp only [overlapping, List.mem_append, List.mem_cons, List.not_mem_nil, or_false,
    List.mem_map] at hev
  rcases hev with (rfl | rfl | rfl) | ⟨i, _, rfl⟩
  · exact .inl rfl
  · refine .inr fun _ => ⟨by decide, fun kind _ => ?_⟩
    cases kind <;> decide
  · exact .inl rfl
  · trivial

/-- The requests to `a`'s agent and to `b`'s are counted together: the first request to `b`'s
    agent is the second one counted, and gets no error. -/
theorem sharedCounter_not_configured :
    ∃ s, runOption step {} ([.call (botOf "a" failsOnce).agent,
        .call (botOf "b" failsOnce).agent] ++
        [0, 0, 1, 1, 1].map (ChaosEvent.check · {})) = some s ∧
      (s.decisionsFor (botOf "b" failsOnce).agent).map (·.2) = [none] ∧
      failsOnce.configured 0 {} ≠ none := by
  decide

end ChaosSystem

end MockAgents
