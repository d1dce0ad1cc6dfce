import MockAgents.ForStd.Trace
import MockAgents.Server.Watcher

/-!
# Reloads that run at once

Each debounce timer runs its `reloadFile` on a goroutine of its own, and the call takes
the registry's lock and the watcher's lock several times. `ReloadSystem` runs any number
of calls with their critical sections interleaved in any order, while other processes
change the directory.
-/

namespace MockAgents

open Function (update update_eq_self_iff update_idem update_self)

/-- Where a callback stands: what it does next. -/
inductive ReloadPc where
  /-- The timer has not fired. -/
  | idle
  | load (path : String)
  | register (path : String) (p : DefPtr)
  | remember (path : String) (p : DefPtr)
  | forget (path : String)
  /-- Look for a path that claims the name. -/
  | check (name : String)
  /-- No path did: remove the name from the registry. -/
  | remove (name : String)
  | done
  deriving DecidableEq

/-- The directory, what the reloads write, and the callbacks. -/
structure ReloadSystem (ι : Type) where
  dir : Directory
  watch : Watch
  pc : ι → ReloadPc

/-- A step of the system. -/
inductive ReloadEvent (ι : Type) where
  | start (i : ι) (path : String)
  /-- A callback runs up to the end of its next critical section. -/
  | advance (i : ι) (ord : MapOrder)
  /-- Another process writes, removes or renames a file. -/
  | write (path : String) (data : Bytes)
  | unlink (path : String)
  | rename (old new : String)

namespace ReloadSystem

variable {ι : Type} [DecidableEq ι] (lib : DocLib)

/-- What a callback does after its bookkeeping: drop the name, if there is one. -/
def afterwards : Option String → ReloadPc
  | none => .done
  | some name => .check name

/-- The next critical section of a callback. -/
def critical (ord : MapOrder) (s : ReloadSystem ι) : ReloadPc → Option (Watch × ReloadPc)
  | .idle => none
  | .load path =>
    match lib.reload s.dir path with
    | .missing => some (s.watch, .forget path)
    | .ignored => some (s.watch, .done)
    | .agent p => some (s.watch, .register path p)
  | .register path p => some (s.watch.register lib ord path p, .remember path p)
  | .remember path p =>
    let (w, prev) := s.watch.record path (lib.defs.name p)
    some (w, afterwards prev)
  | .forget path =>
    let (w, name) := s.watch.forget path
    some (w, afterwards name)
  | .check name =>
    some (s.watch, if s.watch.claimed name then .done else .remove name)
  | .remove name => some (s.watch.remove lib ord name, .done)
  | .done => none

/-- One step; `none` when the event is not possible. -/
def step (s : ReloadSystem ι) : ReloadEvent ι → Option (ReloadSystem ι)
  | .start i path =>
    if s.pc i = .idle then some { s with pc := update s.pc i (.load path) } else none
  | .advance i ord =>
    (critical lib ord s (s.pc i)).map fun (w, pc) =>
      { s with watch := w, pc := update s.pc i pc }
  | .write path data => some { s with dir := s.dir.write path data }
  | .unlink path => some { s with dir := s.dir.remove path }
  | .rename old new => some { s with dir := s.dir.rename old new }

def run (s : ReloadSystem ι) (events : List (ReloadEvent ι)) : Option (ReloadSystem ι) :=
  runOption (step lib) s events

/-! ## A call that is not interrupted -/

/-- The callback `i` runs by itself from `s` to `s'`. -/
def Alone (i : ι) (ord : MapOrder) (s s' : ReloadSystem ι) : Prop :=
  ∃ k, run lib s (List.replicate k (.advance i ord)) = some s'

variable {i : ι} {ord : MapOrder}

theorem Alone.refl (s : ReloadSystem ι) : Alone lib i ord s s := ⟨0, rfl⟩

theorem Alone.cons {s s' : ReloadSystem ι} (s₁ : ReloadSystem ι)
    (hstep : step lib s (.advance i ord) = some s₁) (h : Alone lib i ord s₁ s') :
    Alone lib i ord s s' := by
  obtain ⟨k, hrun⟩ := h
  refine ⟨k + 1, ?_⟩
  show (step lib s (.advance i ord)).bind _ = _
  rw [hstep]
  exact hrun

variable {pc : ι → ReloadPc}

theorem alone_dropName (dir : Directory) (w : Watch) (name : Option String)
    (hpc : pc i = afterwards name) :
    Alone lib i ord ⟨dir, w, pc⟩ ⟨dir, w.dropName lib ord name, update pc i .done⟩ := by
  cases name with
  | none =>
    have hsame : update pc i .done = pc := update_eq_self_iff.mpr hpc.symm
    rw [hsame]
    exact .refl lib _
  | some name =>
    simp only [afterwards] at hpc
    by_cases hclaimed : w.claimed name = true
    · apply Alone.cons lib _ _ (.refl lib _)
      simp [step, hpc, critical, hclaimed, Watch.dropName, Watch.removeIfUnclaimed]
    · -- the name is removed in a step of its own
      apply Alone.cons lib ⟨dir, w, update pc i (.remove name)⟩
      · simp [step, hpc, critical, hclaimed]
      · apply Alone.cons lib _ _ (.refl lib _)
        simp [step, critical, hclaimed, Watch.dropName, Watch.removeIfUnclaimed]

/-- A callback that no other step interrupts does what `reloadFile` does. -/
theorem run_alone (dir : Directory) (w : Watch) {path : String} (hpc : pc i = .load path) :
    Alone lib i ord ⟨dir, w, pc⟩
      ⟨dir, w.reloadFile lib ord dir path, update pc i .done⟩ := by
  -- the bookkeeping, whether the path is recorded or forgotten
  have hrest : ∀ marked : Watch × Option String,
      Alone lib i ord ⟨dir, marked.1, update pc i (afterwards marked.2)⟩
        ⟨dir, marked.1.dropName lib ord marked.2, update pc i .done⟩ := by
    intro marked
    have h : Alone lib i ord ⟨dir, marked.1, update pc i (afterwards marked.2)⟩ _ :=
      alone_dropName lib dir marked.1 marked.2 (update_self i _ pc)
    rwa [update_idem] at h
  rw [Watch.reloadFile]
  cases hload : lib.reload dir path with
  | missing =>
    apply Alone.cons lib ⟨dir, w, update pc i (.forget path)⟩
    · simp [step, hpc, critical, hload]
    · apply Alone.cons lib _ _ (hrest (w.forget path))
      simp [step, critical]
  | ignored =>
    apply Alone.cons lib _ _ (.refl lib _)
    simp [step, hpc, critical, hload]
  | agent p =>
    apply Alone.cons lib ⟨dir, w, update pc i (.register path p)⟩
    · simp [step, hpc, critical, hload]
    · apply Alone.cons lib ⟨dir, w.register lib ord path p,
        update pc i (.remember path p)⟩
      · simp [step, critical]
      · apply Alone.cons lib _ _ (hrest ((w.register lib ord path p).record path _))
        simp [step, critical]

end ReloadSystem

end MockAgents
