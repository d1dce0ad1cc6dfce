import Mathlib.Data.List.Basic

/-!
# Runs of a state machine and purged runs

The trace of a deterministic state machine pairs every operation with its output.
`trace_filter_eq` is the unwinding rule for noninterference: if a relation between
the states of two runs survives every kept operation, with equal outputs, and every
purged operation of the first run, then purging a run does not change the outputs
of the kept operations. `EveryStep` restricts a run to steps that meet a condition.

For machines whose events are not always enabled, `runOption` runs a partial step
function and `runOption_inv` is the invariant rule. `AllSteps` says that every step of
a run meets a condition on the state before it.
-/

universe u v w

variable {S : Type u} {Op : Type v} {Out : Type w}

/-- Whether a run ends, and in a state with a property. -/
instance Option.decidableExistsEqSome {α : Type u} (o : Option α) (p : α → Prop)
    [DecidablePred p] : Decidable (∃ a, o = some a ∧ p a) :=
  inferInstanceAs (Decidable (∃ a ∈ o, p a))

/-- The operations of a run, each with its output. -/
def trace (step : S → Op → S × Out) : S → List Op → List (Op × Out)
  | _, [] => []
  | s, op :: ops => (op, (step s op).2) :: trace step (step s op).1 ops

/-- Every step of the run from `s` meets `P` in the state before it. -/
def EveryStep (step : S → Op → S × Out) (P : S → Op → Prop) : S → List Op → Prop
  | _, [] => True
  | s, op :: ops => P s op ∧ EveryStep step P (step s op).1 ops

instance EveryStep.decidable (step : S → Op → S × Out) (P : S → Op → Prop)
    [∀ s op, Decidable (P s op)] :
    (s : S) → (ops : List Op) → Decidable (EveryStep step P s ops)
  | _, [] => isTrue trivial
  | s, op :: ops =>
    have := EveryStep.decidable step P (step s op).1 ops
    inferInstanceAs (Decidable (P s op ∧ EveryStep step P (step s op).1 ops))

/-- If `P` keeps an invariant and implies `Q` under it, then it does so along a run. -/
theorem EveryStep.imp {step : S → Op → S × Out} {P Q : S → Op → Prop} (Inv : S → Prop)
    (hstep : ∀ s op, P s op → Inv s → Q s op ∧ Inv (step s op).1) {s : S} {ops : List Op}
    (hP : EveryStep step P s ops) (h : Inv s) : EveryStep step Q s ops := by
  induction ops generalizing s with
  | nil => trivial
  | cons op ops ih =>
    obtain ⟨hQ, hnext⟩ := hstep s op hP.1 h
    exact ⟨hQ, ih hP.2 hnext⟩

theorem EveryStep.and_of_forall {step : S → Op → S × Out} {P : S → Op → Prop} {Q : Op → Prop}
    {s : S} {ops : List Op} (hP : EveryStep step P s ops) (hQ : ∀ op ∈ ops, Q op) :
    EveryStep step (fun s op => Q op ∧ P s op) s ops := by
  induction ops generalizing s with
  | nil => trivial
  | cons op ops ih =>
    exact ⟨⟨hQ op (by simp), hP.1⟩, ih hP.2 fun op' hop' => hQ op' (by simp [hop'])⟩

/-- The unwinding rule for a run whose steps all meet `P`. `R` relates a state of the full
    run to a state of the purged run. -/
theorem trace_filter_eq_of_everyStep (step : S → Op → S × Out) (keep : Op → Bool)
    (R : S → S → Prop) (P : S → Op → Prop) (ops : List Op)
    (hkeep : ∀ s t op, op ∈ ops → P s op → keep op = true → R s t →
      (step s op).2 = (step t op).2 ∧ R (step s op).1 (step t op).1)
    (hpurge : ∀ s t op, op ∈ ops → P s op → keep op = false → R s t → R (step s op).1 t)
    {s t : S} (hP : EveryStep step P s ops) (h : R s t) :
    (trace step s ops).filter (fun e => keep e.1) = trace step t (ops.filter keep) := by
  induction ops generalizing s t with
  | nil => rfl
  | cons op ops ih =>
    have ih' := @ih (fun s t op hop => hkeep s t op (by simp [hop]))
      (fun s t op hop => hpurge s t op (by simp [hop]))
    cases hk : keep op with
    | true =>
      obtain ⟨hout, hnext⟩ := hkeep s t op (by simp) hP.1 hk h
      rw [trace, List.filter_cons_of_pos (by simpa using hk),
        List.filter_cons_of_pos (by simpa using hk), trace, hout, ih' hP.2 hnext]
    | false =>
      have hnext := hpurge s t op (by simp) hP.1 hk h
      rw [trace, List.filter_cons_of_neg (by simpa using hk),
        List.filter_cons_of_neg (by simpa using hk), ih' hP.2 hnext]

/-- The unwinding rule. `R` relates a state of the full run to a state of the purged
    run. -/
theorem trace_filter_eq (step : S → Op → S × Out) (keep : Op → Bool) (R : S → S → Prop)
    (ops : List Op)
    (hkeep : ∀ s t op, op ∈ ops → keep op = true → R s t →
      (step s op).2 = (step t op).2 ∧ R (step s op).1 (step t op).1)
    (hpurge : ∀ s t op, op ∈ ops → keep op = false → R s t → R (step s op).1 t)
    {s t : S} (h : R s t) :
    (trace step s ops).filter (fun e => keep e.1) = trace step t (ops.filter keep) := by
  have htrivial : ∀ (ops : List Op) (s : S), EveryStep step (fun _ _ => True) s ops := by
    intro ops
    induction ops with
    | nil => exact fun _ => trivial
    | cons op ops ih => exact fun s => ⟨trivial, ih _⟩
  exact trace_filter_eq_of_everyStep step keep R _ ops (fun s t op hop _ => hkeep s t op hop)
    (fun s t op hop _ => hpurge s t op hop) (htrivial ops s) h

/-- The state after a run. -/
def after (step : S → Op → S × Out) : S → List Op → S
  | s, [] => s
  | s, op :: ops => after step (step s op).1 ops

/-- An invariant that every step meeting `P` keeps holds after a run whose steps all
    meet `P`. -/
theorem EveryStep.inv_after {step : S → Op → S × Out} {P : S → Op → Prop} (Inv : S → Prop)
    (hstep : ∀ s op, P s op → Inv s → Inv (step s op).1) {s : S} {ops : List Op}
    (hP : EveryStep step P s ops) (h : Inv s) : Inv (after step s ops) := by
  induction ops generalizing s with
  | nil => exact h
  | cons op ops ih => exact ih hP.2 (hstep s op hP.1 h)

/-- Two runs whose states stay related, with equal outputs, have the same trace. -/
theorem trace_eq_of_simulation (step : S → Op → S × Out) (R : S → S → Prop)
    (hstep : ∀ s t op, R s t →
      (step s op).2 = (step t op).2 ∧ R (step s op).1 (step t op).1)
    {s t : S} (h : R s t) (ops : List Op) :
    trace step s ops = trace step t ops ∧ R (after step s ops) (after step t ops) := by
  induction ops generalizing s t with
  | nil => exact ⟨rfl, h⟩
  | cons op ops ih =>
    obtain ⟨hout, hnext⟩ := hstep s t op h
    obtain ⟨htrace, hafter⟩ := ih hnext
    exact ⟨by rw [trace, trace, hout, htrace], hafter⟩

/-! ## Partial steps -/

/-- Run a partial step function; a run with a disabled event has no result. -/
def runOption (step : S → Op → Option S) : S → List Op → Option S
  | s, [] => some s
  | s, op :: ops => (step s op).bind fun s' => runOption step s' ops

/-- Every step of the run from `s` meets `P` in the state before it. -/
def AllSteps (step : S → Op → Option S) (P : S → Op → Prop) : S → List Op → Prop
  | _, [] => True
  | s, op :: ops => P s op ∧ ∀ s', step s op = some s' → AllSteps step P s' ops

instance AllSteps.decidable (step : S → Op → Option S) (P : S → Op → Prop)
    [∀ s op, Decidable (P s op)] : (s : S) → (ops : List Op) → Decidable (AllSteps step P s ops)
  | _, [] => isTrue trivial
  | s, op :: ops =>
    match h : step s op with
    | none => decidable_of_iff (P s op) (by simp [AllSteps, h])
    | some s' =>
      have := AllSteps.decidable step P s' ops
      decidable_of_iff (P s op ∧ AllSteps step P s' ops) (by simp [AllSteps, h])

/-- A condition on the operations alone. -/
theorem AllSteps.of_forall {step : S → Op → Option S} {P : S → Op → Prop} {s : S}
    {ops : List Op} (h : ∀ op ∈ ops, ∀ s, P s op) : AllSteps step P s ops := by
  induction ops generalizing s with
  | nil => trivial
  | cons op ops ih =>
    exact ⟨h op (by simp) s, fun s' _ => ih fun op' hop' => h op' (by simp [hop'])⟩

theorem AllSteps.and_of_forall {step : S → Op → Option S} {P : S → Op → Prop}
    {Q : Op → Prop} {s : S} {ops : List Op} (hP : AllSteps step P s ops)
    (hQ : ∀ op ∈ ops, Q op) : AllSteps step (fun s op => Q op ∧ P s op) s ops := by
  induction ops generalizing s with
  | nil => trivial
  | cons op ops ih =>
    refine ⟨⟨hQ op (by simp), hP.1⟩, fun s' hs' => ih (hP.2 s' hs') fun op' hop' => ?_⟩
    exact hQ op' (by simp [hop'])

/-- An invariant that every step meeting `P` keeps holds after a run whose steps all
    meet `P`. -/
theorem runOption_inv_of_allSteps (step : S → Op → Option S) (P : S → Op → Prop)
    (Inv : S → Prop)
    (hstep : ∀ s op s', P s op → step s op = some s' → Inv s → Inv s')
    {s s' : S} {ops : List Op} (hP : AllSteps step P s ops)
    (hrun : runOption step s ops = some s') (h : Inv s) : Inv s' := by
  induction ops generalizing s with
  | nil =>
    simp only [runOption, Option.some.injEq] at hrun
    exact hrun ▸ h
  | cons op ops ih =>
    obtain ⟨s₁, hs₁, hrest⟩ := Option.bind_eq_some_iff.mp hrun
    obtain ⟨hop, hops⟩ := hP
    exact ih (hops s₁ hs₁) hrest (hstep s op s₁ hop hs₁ h)

/-- An invariant of every step holds after a run. -/
theorem runOption_inv (step : S → Op → Option S) (Inv : S → Prop)
    (hstep : ∀ s op s', step s op = some s' → Inv s → Inv s')
    {s s' : S} {ops : List Op} (hrun : runOption step s ops = some s') (h : Inv s) :
    Inv s' := by
  exact runOption_inv_of_allSteps step (fun _ _ => True) Inv (fun s op s' _ => hstep s op s')
    (.of_forall fun _ _ _ => trivial) hrun h
