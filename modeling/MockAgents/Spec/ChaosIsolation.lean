import MockAgents.ForStd.Trace
import MockAgents.Engine.Chaos

/-!
# Isolation of chaos decisions between same-named agents

The registry lets two tenants own agents of one name, but the injector keys its
windows and counters by the name alone. A run is isolated when the decisions for an
agent are those of the run that holds only its own requests. This holds when
same-named agents of different owners never count the same kind of fault, and fails
as soon as two of them do.
-/

namespace MockAgents

/-- The kinds of fault that keep a count or a window. -/
inductive FaultKind where
  | rateLimit
  | errors
  | connection
  deriving DecidableEq

/-- The configuration makes `Before` count requests for this kind of fault. -/
def ChaosConfig.counts (cfg : ChaosConfig) : FaultKind → Bool
  | .rateLimit => cfg.rateLimit.any fun rl => decide (rl.requests > 0 ∧ rl.windowMs > 0)
  | .errors => cfg.errors.any fun e => decide (e.failFirst > 0)
  | .connection => cfg.connection.any fun cc => decide (cc.failFirst > 0)

/-- The agent's effective chaos section counts this kind of fault. -/
def AgentDefinition.counts (agent : AgentDefinition) (kind : FaultKind) : Bool :=
  (chaosFor agent).any (·.counts kind)

/-- A request, after resolution: its agent and what `Before` draws for it. -/
structure ChaosRequest where
  agent : AgentDefinition
  draws : ChaosDraws := {}

namespace ChaosRequest

/-- The request resolved to the agent that `owner` holds under `name`. -/
def resolvedTo (owner name : String) (q : ChaosRequest) : Bool :=
  q.agent.metadata.tenantID == owner && q.agent.metadata.name == name

def step (c : ChaosInjector) (q : ChaosRequest) : ChaosInjector × Option ChaosError :=
  c.before q.agent q.draws

def decisions (run : List ChaosRequest) : List (ChaosRequest × Option ChaosError) :=
  trace step ChaosInjector.newChaosInjector run

end ChaosRequest

/-- Every agent gets the decisions it would get if only its own requests were made. -/
def ChaosIsolated (run : List ChaosRequest) : Prop :=
  ∀ owner name,
    (ChaosRequest.decisions run).filter (fun e => e.1.resolvedTo owner name) =
      ChaosRequest.decisions (run.filter (ChaosRequest.resolvedTo owner name))

/-- No two requests of the run resolve to same-named agents of different owners that
    count the same kind of fault. -/
def NoSharedCounter (run : List ChaosRequest) : Prop :=
  ∀ q₁ ∈ run, ∀ q₂ ∈ run, q₁.agent.metadata.name = q₂.agent.metadata.name →
    q₁.agent.metadata.tenantID ≠ q₂.agent.metadata.tenantID →
    ∀ kind, ¬(q₁.agent.counts kind = true ∧ q₂.agent.counts kind = true)

namespace ChaosInjector

/-- Two injectors hold the same entry for `name` in the map of this kind of fault. -/
def SameEntry (kind : FaultKind) (name : String) (c d : ChaosInjector) : Prop :=
  match kind with
  | .rateLimit => c.buckets.lookup name = d.buckets.lookup name
  | .errors => c.errorCounts.lookup name = d.errorCounts.lookup name
  | .connection => c.connCounts.lookup name = d.connCounts.lookup name

theorem SameEntry.refl (kind : FaultKind) (name : String) (c : ChaosInjector) :
    SameEntry kind name c c := by
  cases kind <;> rfl

variable {name : String} {c d : ChaosInjector} {kind : FaultKind}

theorem SameEntry.symm (h : SameEntry kind name c d) : SameEntry kind name d c := by
  cases kind <;> exact Eq.symm h

theorem SameEntry.trans {e : ChaosInjector} (h₁ : SameEntry kind name c d)
    (h₂ : SameEntry kind name d e) : SameEntry kind name c e := by
  cases kind <;> exact Eq.trans h₁ h₂

/-! ## What a step works on -/

/-- The step reads and writes the agent's entry of this kind, and nothing if it does not
    count. -/
structure WorksOn (kind : FaultKind) (agentName : String) (counts : Bool)
    (f : ChaosInjector → ChaosInjector × Option ChaosError) : Prop where
  frame : ∀ c k name, k ≠ kind ∨ name ≠ agentName ∨ counts = false →
    SameEntry k name (f c).1 c
  reads : ∀ c d, (counts = true → SameEntry kind agentName c d) →
    (f c).2 = (f d).2 ∧
      (SameEntry kind agentName c d → SameEntry kind agentName (f c).1 (f d).1)

variable {agentName : String}

theorem worksOn_skip {counts : Bool} : WorksOn kind agentName counts fun c => (c, none) :=
  ⟨fun c k name _ => .refl k name c, fun _ _ _ => ⟨rfl, id⟩⟩

/-- A trigger that does not count leaves its counter alone; one that counts reads and
    writes the entry of its own name. -/
theorem shouldTrigger_local (agentName : String) (rate : Rat) (failFirst : Int)
    (draw : Rat) :
    (∀ m name, name ≠ agentName ∨ decide (failFirst > 0) = false →
      (shouldTrigger agentName rate failFirst draw m).1.lookup name = m.lookup name) ∧
    ∀ m₁ m₂, (decide (failFirst > 0) = true → m₁.lookup agentName = m₂.lookup agentName) →
      (shouldTrigger agentName rate failFirst draw m₁).2 =
          (shouldTrigger agentName rate failFirst draw m₂).2 ∧
        (m₁.lookup agentName = m₂.lookup agentName →
          (shouldTrigger agentName rate failFirst draw m₁).1.lookup agentName =
            (shouldTrigger agentName rate failFirst draw m₂).1.lookup agentName) := by
  unfold shouldTrigger
  by_cases hpos : failFirst > 0
  · simp only [hpos, if_true]
    exact ⟨fun m name h => AList.lookup_insert_ne (by simpa using h),
      fun m₁ m₂ h => by simp [h (by simp)]⟩
  · simp [hpos]

theorem beforeRateLimit_worksOn (agentName : String) (cfg : ChaosConfig)
    (draws : ChaosDraws) :
    WorksOn .rateLimit agentName (cfg.counts .rateLimit)
      (beforeRateLimit · agentName cfg draws) := by
  unfold beforeRateLimit
  cases hrl : cfg.rateLimit with
  | none => exact worksOn_skip
  | some rl =>
    by_cases hon : rl.requests > 0 ∧ rl.windowMs > 0
    · have hcounts : cfg.counts .rateLimit = true := by simp [ChaosConfig.counts, hrl, hon]
      simp only [hon.1, if_true, checkRateLimit, if_neg (not_le.mpr hon.2), hcounts]
      refine ⟨fun c k name h => ?_, fun c d h => ?_⟩
      · -- this step writes `buckets` and neither of the two counters
        cases k with
        | rateLimit =>
          have hne : name ≠ agentName := by simpa using h
          show AList.lookup name _ = _
          cases c.buckets.lookup agentName with
          | none => exact AList.lookup_insert_ne hne
          | some bucket => simp only; split <;> exact AList.lookup_insert_ne hne
        | errors | connection => rfl
      · have hread : c.buckets.lookup agentName = d.buckets.lookup agentName := h rfl
        simp only [SameEntry, hread]
        cases d.buckets.lookup agentName with
        | none => simp
        | some bucket => simp only; split <;> simp
    · simp only
      split
      · have hwindow : rl.windowMs ≤ 0 := by omega
        simp only [checkRateLimit, if_pos hwindow]
        exact worksOn_skip
      · exact worksOn_skip

theorem beforeErrors_worksOn (agentName : String) (cfg : ChaosConfig)
    (draws : ChaosDraws) :
    WorksOn .errors agentName (cfg.counts .errors) (beforeErrors · agentName cfg draws) := by
  unfold beforeErrors
  cases he : cfg.errors with
  | none => exact worksOn_skip
  | some e =>
    have hcounts : cfg.counts .errors = decide (e.failFirst > 0) := by
      simp [ChaosConfig.counts, he]
    obtain ⟨hframe, hreads⟩ := shouldTrigger_local agentName e.rate e.failFirst draws.errorDraw
    simp only [hcounts]
    split
    · refine ⟨fun c k name h => ?_, fun c d h => ?_⟩
      · cases k with
        | errors => exact hframe _ _ (by simpa using h)
        | rateLimit | connection => rfl
      · obtain ⟨hfires, hnext⟩ := hreads _ _ h
        exact ⟨by simp only [maybeInjectError, hfires], hnext⟩
    · exact worksOn_skip

theorem beforeConnection_worksOn (agentName : String) (cfg : ChaosConfig)
    (draws : ChaosDraws) :
    WorksOn .connection agentName (cfg.counts .connection)
      (beforeConnection · agentName cfg draws) := by
  unfold beforeConnection
  cases hcc : cfg.connection with
  | none => exact worksOn_skip
  | some cc =>
    have hcounts : cfg.counts .connection = decide (cc.failFirst > 0) := by
      simp [ChaosConfig.counts, hcc]
    obtain ⟨hframe, hreads⟩ := shouldTrigger_local agentName cc.rate cc.failFirst draws.connDraw
    simp only [hcounts]
    split
    · refine ⟨fun c k name h => ?_, fun c d h => ?_⟩
      · cases k with
        | connection => exact hframe _ _ (by simpa using h)
        | rateLimit | errors => rfl
      · obtain ⟨hfires, hnext⟩ := hreads _ _ h
        exact ⟨by simp only [maybeInjectConnectionFault, hfires], hnext⟩
    · exact worksOn_skip

/-! ## What `Before` leaves alone -/

variable {next : ChaosInjector → ChaosInjector × Option ChaosError}

theorem andThen_sameEntry {r : ChaosInjector × Option ChaosError}
    (hr : SameEntry kind name r.1 c) (hnext : ∀ d, SameEntry kind name (next d).1 d) :
    SameEntry kind name (andThen r next).1 c := by
  obtain ⟨d, err⟩ := r
  cases err with
  | some e => exact hr
  | none => exact (hnext d).trans hr

variable {cfg : ChaosConfig} {f : ChaosInjector → ChaosInjector × Option ChaosError}

theorem WorksOn.sameEntry {k : FaultKind}
    (hf : WorksOn kind agentName (cfg.counts kind) f)
    (h : name ≠ agentName ∨ cfg.counts k = false) (c : ChaosInjector) :
    SameEntry k name (f c).1 c := by
  refine hf.frame c k name ?_
  by_cases hk : k = kind
  · exact .inr (hk ▸ h)
  · exact .inl hk

/-- `Before` writes an entry only under the agent's own name, and only for a kind of
    fault that the agent counts. -/
theorem before_sameEntry (c : ChaosInjector) (agent : AgentDefinition) (draws : ChaosDraws)
    (kind : FaultKind) (name : String)
    (h : name ≠ agent.metadata.name ∨ agent.counts kind = false) :
    SameEntry kind name (c.before agent draws).1 c := by
  unfold before
  cases hcfg : chaosFor agent with
  | none => exact SameEntry.refl kind name c
  | some cfg =>
    have h' : name ≠ agent.metadata.name ∨ cfg.counts kind = false := by
      simpa [AgentDefinition.counts, hcfg] using h
    exact andThen_sameEntry ((beforeRateLimit_worksOn _ cfg draws).sameEntry h' c) fun d =>
      andThen_sameEntry ((beforeErrors_worksOn _ cfg draws).sameEntry h' d) fun e =>
        (beforeConnection_worksOn _ cfg draws).sameEntry h' e

/-! ## What `Before` reads -/

/-- The two injectors agree on the entries of `name` for every kind in `K`. -/
def Agree (K : FaultKind → Prop) (name : String) (c d : ChaosInjector) : Prop :=
  ∀ kind, K kind → SameEntry kind name c d

/-- Two results with the same decision and agreeing injectors. -/
def SameResult (K : FaultKind → Prop) (name : String)
    (x y : ChaosInjector × Option ChaosError) : Prop :=
  x.2 = y.2 ∧ Agree K name x.1 y.1

variable {K : FaultKind → Prop}

theorem andThen_sameResult {x y : ChaosInjector × Option ChaosError}
    (h : SameResult K name x y)
    (hnext : ∀ c d, Agree K name c d → SameResult K name (next c) (next d)) :
    SameResult K name (andThen x next) (andThen y next) := by
  obtain ⟨c, err⟩ := x
  obtain ⟨d, err'⟩ := y
  obtain ⟨herr, hagree⟩ := h
  subst herr
  cases err with
  | some e => exact ⟨rfl, hagree⟩
  | none => exact hnext c d hagree

theorem WorksOn.sameResult (hf : WorksOn kind name (cfg.counts kind) f)
    (hK : ∀ kind, cfg.counts kind = true → K kind) (h : Agree K name c d) :
    SameResult K name (f c) (f d) := by
  obtain ⟨hout, hnext⟩ := hf.reads c d fun hcounts => h kind (hK kind hcounts)
  refine ⟨hout, fun k hk => ?_⟩
  by_cases heq : k = kind
  · exact heq ▸ hnext (h kind (heq ▸ hk))
  · exact ((hf.frame c k name (.inl heq)).trans (h k hk)).trans (hf.frame d k name (.inl heq)).symm

/-- `Before` reads nothing but the entries under the agent's own name for the kinds of
    fault that it counts. -/
theorem before_sameResult (agent : AgentDefinition) (draws : ChaosDraws)
    (hK : ∀ kind, agent.counts kind = true → K kind) (h : Agree K agent.metadata.name c d) :
    SameResult K agent.metadata.name (c.before agent draws) (d.before agent draws) := by
  unfold before
  cases hcfg : chaosFor agent with
  | none => exact ⟨rfl, h⟩
  | some cfg =>
    have hK' : ∀ kind, cfg.counts kind = true → K kind :=
      fun kind hk => hK kind (by simpa [AgentDefinition.counts, hcfg] using hk)
    exact andThen_sameResult ((beforeRateLimit_worksOn _ cfg draws).sameResult hK' h)
      fun _ _ h => andThen_sameResult ((beforeErrors_worksOn _ cfg draws).sameResult hK' h)
        fun _ _ h => (beforeConnection_worksOn _ cfg draws).sameResult hK' h

end ChaosInjector

/-! ## Runs -/

theorem ChaosRequest.resolvedTo_iff (owner name : String) (q : ChaosRequest) :
    q.resolvedTo owner name = true ↔
      q.agent.metadata.tenantID = owner ∧ q.agent.metadata.name = name := by
  simp [ChaosRequest.resolvedTo]

def countedIn (run : List ChaosRequest) (owner name : String) (kind : FaultKind) : Prop :=
  ∃ q ∈ run, q.resolvedTo owner name = true ∧ q.agent.counts kind = true

/-- If no counter is shared between same-named agents of different owners, every
    agent's decisions depend only on the requests made to it. -/
theorem isolated_of_noSharedCounter (run : List ChaosRequest) (h : NoSharedCounter run) :
    ChaosIsolated run := by
  intro owner name
  -- the full and the purged run agree on the entries that the kept requests count
  apply trace_filter_eq ChaosRequest.step (ChaosRequest.resolvedTo owner name)
    (ChaosInjector.Agree (countedIn run owner name) name)
  · -- a kept request reads and writes only entries on which the two runs agree
    intro c d q hq hkeep hagree
    obtain ⟨_, hname⟩ := (q.resolvedTo_iff owner name).mp hkeep
    have hK : ∀ kind, q.agent.counts kind = true → countedIn run owner name kind :=
      fun kind hk => ⟨q, hq, hkeep, hk⟩
    rw [← hname] at hagree ⊢
    exact ChaosInjector.before_sameResult q.agent q.draws (by rwa [hname]) hagree
  · -- a purged request leaves those entries alone
    intro c d q hq hpurged hagree kind hkind
    have hframe : name ≠ q.agent.metadata.name ∨ q.agent.counts kind = false := by
      by_cases hname : name = q.agent.metadata.name
      · -- a same-named agent: it has another owner, so it does not count this kind
        obtain ⟨q', hq', hkept, hcounts⟩ := hkind
        obtain ⟨howner', hname'⟩ := (q'.resolvedTo_iff owner name).mp hkept
        have howner : q'.agent.metadata.tenantID ≠ q.agent.metadata.tenantID := by
          intro heq
          have hq'' := (q.resolvedTo_iff owner name).mpr ⟨by rw [← heq, howner'], hname.symm⟩
          simp [hq''] at hpurged
        have := h q' hq' q hq (by rw [hname', hname]) howner kind
        exact Or.inr (by simpa [hcounts] using this)
      · exact Or.inl hname
    exact (ChaosInjector.before_sameEntry c q.agent q.draws kind name hframe).trans
      (hagree kind hkind)
  · exact fun kind _ => ChaosInjector.SameEntry.refl kind name _

def botOf (tenant : String) (cfg : ChaosConfig) : ChaosRequest where
  agent := {
    metadata := { name := "bot", tenantID := tenant }
    spec := { behavior := { chaos := some cfg } } }

/-- Two tenants' `bot` agents that count different kinds of fault. -/
def separateFailFirst : List ChaosRequest :=
  [botOf "a" { errors := some { failFirst := 1 } },
    botOf "b" { connection := some { mode := "reset", failFirst := 1 } }]

/-- Two tenants' `bot` agents, each set to fail its first request. -/
def sharedFailFirst : List ChaosRequest :=
  [botOf "a" { errors := some { failFirst := 1 } },
    botOf "b" { errors := some { failFirst := 1 } }]

theorem separateFailFirst_noSharedCounter : NoSharedCounter separateFailFirst := by
  intro q₁ h₁ q₂ h₂ _ howner kind
  simp only [separateFailFirst, List.mem_cons, List.not_mem_nil, or_false] at h₁ h₂
  obtain h₁ | h₁ := h₁ <;> obtain h₂ | h₂ := h₂ <;> subst h₁ <;> subst h₂
  · exact absurd rfl howner
  · cases kind <;> decide
  · cases kind <;> decide
  · exact absurd rfl howner

theorem separateFailFirst_isolated : ChaosIsolated separateFailFirst :=
  isolated_of_noSharedCounter separateFailFirst separateFailFirst_noSharedCounter

/-- The first request to tenant `b`'s agent is admitted after a request to tenant `a`'s
    agent, but gets the injected 500 on its own. -/
theorem sharedFailFirst_not_isolated : ¬ ChaosIsolated sharedFailFirst := by
  intro h
  have hb := congrArg (List.map Prod.snd) (h "b" "bot")
  revert hb
  decide

end MockAgents
