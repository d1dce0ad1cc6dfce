import Mathlib.Data.Fintype.Basic
import MockAgents.Server.ConcurrentReload
import MockAgents.Spec.WatchOps

/-!
# Renamed files

When an agent file is renamed, one callback reloads the new path and one finds the old
path gone. The watcher drops a name only if no path claims it, so that the agent should
survive in either order. The claim is looked up in a critical section before the removal,
and a registration becomes a claim only in a critical section after it; between the two
the removal takes the renamed agent away.
-/

namespace MockAgents

/-- The name of the agent that a callback has registered and has not recorded yet. -/
def ReloadPc.recording (lib : DocLib) : ReloadPc → Option String
  | .remember _ p => some (lib.defs.name p)
  | _ => none

def ReloadEvent.changes {ι : Type} (path : String) : ReloadEvent ι → Bool
  | .write path' _ => path' = path
  | .unlink path' => path' = path
  | .rename old new => old = path ∨ new = path
  | _ => false

namespace ReloadSystem

variable {ι : Type} (lib : DocLib)

/-! ## Steps that keep agents -/

/-- A section at which a callback may run: it records or forgets its path while the file
    is as it was loaded, and it removes a name that no path claims and that no callback is
    about to record. -/
def SafeAt (s : ReloadSystem ι) : ReloadPc → Prop
  | .remember path p => lib.reload s.dir path = .agent p
  | .forget path => lib.reload s.dir path = .missing
  | .remove name =>
    s.watch.claimed name = false ∧ ∀ i, (s.pc i).recording lib ≠ some name
  | _ => True

/-- A step of a callback is taken at such a section. -/
def Safe (s : ReloadSystem ι) : ReloadEvent ι → Prop
  | .advance i _ => SafeAt lib s (s.pc i)
  | _ => True

instance [Fintype ι] (s : ReloadSystem ι) : (pc : ReloadPc) → Decidable (SafeAt lib s pc)
  | .idle | .load _ | .register _ _ | .check _ | .done => isTrue trivial
  | .remember _ _ | .forget _ => inferInstanceAs (Decidable (_ = _))
  | .remove _ => inferInstanceAs (Decidable (_ ∧ _))

instance [Fintype ι] (s : ReloadSystem ι) : (e : ReloadEvent ι) → Decidable (Safe lib s e)
  | .advance i _ => inferInstanceAs (Decidable (SafeAt lib s (s.pc i)))
  | .start _ _ | .write _ _ | .unlink _ | .rename _ _ => isTrue trivial

/-! ## What one section leaves -/

/-- The critical sections: from where, what they leave, and where to. -/
inductive Section (ord : MapOrder) (dir : Directory) (w : Watch) :
    ReloadPc → Watch → ReloadPc → Prop where
  | missing (path) (h : lib.reload dir path = .missing) :
      Section ord dir w (.load path) w (.forget path)
  | ignored (path) (h : lib.reload dir path = .ignored) :
      Section ord dir w (.load path) w .done
  | loaded (path p) (h : lib.reload dir path = .agent p) :
      Section ord dir w (.load path) w (.register path p)
  | register (path p) :
      Section ord dir w (.register path p) (w.register lib ord path p) (.remember path p)
  | remember (path p) :
      Section ord dir w (.remember path p) (w.record path (lib.defs.name p)).1
        (afterwards (w.record path (lib.defs.name p)).2)
  | forget (path) :
      Section ord dir w (.forget path) (w.forget path).1 (afterwards (w.forget path).2)
  | claimed (name) (h : w.claimed name = true) : Section ord dir w (.check name) w .done
  | unclaimed (name) (h : w.claimed name = false) :
      Section ord dir w (.check name) w (.remove name)
  | remove (name) : Section ord dir w (.remove name) (w.remove lib ord name) .done

variable {lib} {s s' : ReloadSystem ι} {ord : MapOrder} {pc pc' : ReloadPc} {w : Watch}

theorem critical_cases (h : critical lib ord s pc = some (w, pc')) :
    Section lib ord s.dir s.watch pc w pc' := by
  cases pc with
  | idle => cases h
  | done => cases h
  | load path =>
    simp only [critical] at h
    cases hload : lib.reload s.dir path with
    | missing =>
      rw [hload] at h
      cases h
      exact .missing path hload
    | ignored =>
      rw [hload] at h
      cases h
      exact .ignored path hload
    | agent p =>
      rw [hload] at h
      cases h
      exact .loaded path p hload
  | register path p =>
    cases h
    exact .register path p
  | remember path p =>
    cases h
    exact .remember path p
  | forget path =>
    cases h
    exact .forget path
  | check name =>
    cases h
    split
    · rename_i hclaimed
      exact .claimed name hclaimed
    · rename_i hclaimed
      exact .unclaimed name (by simpa using hclaimed)
  | remove name =>
    cases h
    exact .remove name

variable {dir : Directory}

/-- Only a removal of its name takes an agent from the registry. -/
theorem Section.registered {w₀ : Watch} (h : Section lib ord dir w₀ pc w pc') {n t : String}
    (hreg : (w₀.registry.getOwnedForTenant n t).isSome) (hne : pc ≠ .remove n) :
    (w.registry.getOwnedForTenant n t).isSome := by
  cases h with
  | missing | ignored | loaded | remember | claimed | unclaimed => exact hreg
  | register path p =>
    rw [Watch.register_owned]
    split
    · rfl
    · exact hreg
  | forget path =>
    rw [Watch.forget_registry]
    exact hreg
  | remove name =>
    have hname : n ≠ name := fun heq => hne (heq ▸ rfl)
    rw [Watch.remove_owned, if_neg hname]
    exact hreg

/-- Only a callback for the path itself changes what the path claims. -/
theorem Section.claim {w₀ : Watch} (h : Section lib ord dir w₀ pc w pc') {path name : String}
    (hclaim : w₀.fileAgents.lookup path = some name)
    (hrecord : ∀ p, pc = .remember path p → lib.defs.name p = name) (hforget : pc ≠ .forget path) :
    w.fileAgents.lookup path = some name := by
  cases h with
  | missing | ignored | loaded | register | claimed | unclaimed | remove => exact hclaim
  | remember path' p =>
    rw [Watch.record_lookup]
    split
    · rename_i heq
      rw [hrecord p (heq ▸ rfl)]
    · exact hclaim
  | forget path' =>
    have hpath : path ≠ path' := fun heq => hforget (heq ▸ rfl)
    rw [Watch.forget_lookup, if_neg hpath]
    exact hclaim

/-! ## The callback of the new path -/

/-- The agent `p` is registered under its owner and name, by whichever file. -/
def Registered (lib : DocLib) (w : Watch) (p : DefPtr) : Prop :=
  (w.registry.getOwnedForTenant (lib.defs.name p) (lib.defs.owner p)).isSome

/-- The path claims the agent's name, and the agent is registered. -/
def Settled (lib : DocLib) (path : String) (p : DefPtr) (w : Watch) : Prop :=
  w.fileAgents.lookup path = some (lib.defs.name p) ∧ Registered lib w p

/-- How far the callback for `path` has come with the agent `p`, and what it has made sure
    of by then. -/
def Progress (lib : DocLib) (path : String) (p : DefPtr) (w : Watch) : ReloadPc → Prop
  | .idle => False
  | .load path' => path' = path
  | .register path' p' => path' = path ∧ p' = p
  | .remember path' p' => path' = path ∧ p' = p ∧ Registered lib w p
  | .forget _ => False
  | .check _ => Settled lib path p w
  | .remove _ => Settled lib path p w
  | .done => Settled lib path p w

/-- The file under `path` is the agent `p`, and the callback `c` is on its way. -/
structure Reloading (lib : DocLib) (path : String) (p : DefPtr) (c : ι) (s : ReloadSystem ι) :
    Prop where
  file : lib.reload s.dir path = .agent p
  progress : Progress lib path p s.watch (s.pc c)

variable {path : String} {p : DefPtr} {c : ι}

theorem Settled.afterwards (h : Settled lib path p w) (name : Option String) :
    Progress lib path p w (afterwards name) := by
  cases name with
  | none => exact h
  | some name => exact h

/-- A path stays settled under every safe section while its file is there. -/
theorem Settled.keep (h : Settled lib path p s.watch) (hfile : lib.reload s.dir path = .agent p)
    (hsec : Section lib ord s.dir s.watch pc w pc') (hsafe : SafeAt lib s pc) :
    Settled lib path p w := by
  constructor
  · apply hsec.claim h.1
    · rintro p' rfl
      have heq : Reload.agent p' = .agent p := hsafe.symm.trans hfile
      cases heq
      rfl
    · rintro rfl
      have heq : Reload.missing = .agent p := hsafe.symm.trans hfile
      cases heq
  · apply hsec.registered h.2
    rintro rfl
    -- the path claims the name, so that no safe step removes it
    have hclaimed := (s.watch.claimed_iff _).mpr ⟨path, h.1⟩
    have hunclaimed := hsafe.1
    rw [hclaimed] at hunclaimed
    cases hunclaimed

/-- What the callback `c` has made sure of stays so when another one runs a section. -/
theorem Progress.other (h : Progress lib path p s.watch (s.pc c))
    (hfile : lib.reload s.dir path = .agent p)
    (hsec : Section lib ord s.dir s.watch pc w pc') (hsafe : SafeAt lib s pc) :
    Progress lib path p w (s.pc c) := by
  cases hpc : s.pc c with
  | idle | load path' | register path' p' | forget path' =>
    rw [hpc] at h
    exact h
  | remember path' p' =>
    rw [hpc] at h
    obtain ⟨rfl, rfl, hreg⟩ := h
    refine ⟨rfl, rfl, hsec.registered hreg ?_⟩
    rintro rfl
    -- `c` is about to record the name, so that no safe step removes it
    exact hsafe.2 c (by rw [hpc]; rfl)
  | check name | remove name | done =>
    rw [hpc] at h
    exact Settled.keep h hfile hsec hsafe

/-- A section of the callback itself. -/
theorem Progress.own (h : Progress lib path p s.watch pc)
    (hfile : lib.reload s.dir path = .agent p)
    (hsec : Section lib ord s.dir s.watch pc w pc') (hsafe : SafeAt lib s pc) :
    Progress lib path p w pc' := by
  cases hsec with
  | missing path' hload | ignored path' hload =>
    cases h
    rw [hfile] at hload
    cases hload
  | loaded path' p' hload =>
    cases h
    rw [hfile] at hload
    cases hload
    exact ⟨rfl, rfl⟩
  | register path' p' =>
    obtain ⟨rfl, rfl⟩ := h
    refine ⟨rfl, rfl, ?_⟩
    rw [Registered, Watch.register_owned, if_pos ⟨rfl, rfl⟩]
    rfl
  | remember path' p' =>
    obtain ⟨rfl, rfl, hreg⟩ := h
    apply Settled.afterwards
    refine ⟨?_, hreg⟩
    rw [Watch.record_lookup, if_pos rfl]
  | forget path' => cases h
  | claimed name hclaimed => exact h
  | unclaimed name hclaimed => exact h
  | remove name => exact Settled.keep h hfile (.remove name) hsafe

/-- A file that the event does not change is loaded as before. -/
theorem reload_congr {dir' : Directory} (h : dir.read path = dir'.read path) :
    lib.reload dir path = lib.reload dir' path := by
  simp only [DocLib.reload, DocLib.loadFile, DocLib.readAndParse, h]

variable [DecidableEq ι]

/-- Every safe step that leaves the file alone lets the callback go on. -/
theorem Reloading.step (h : Reloading lib path p c s) {e : ReloadEvent ι}
    (hkept : e.changes path = false) (hsafe : Safe lib s e)
    (hstep : ReloadSystem.step lib s e = some s') : Reloading lib path p c s' := by
  cases e with
  | start i path' =>
    obtain ⟨hidle, ⟨⟩⟩ := Option.ite_none_right_eq_some.mp hstep
    refine ⟨h.file, ?_⟩
    -- the callback `c` has started already
    have hne : c ≠ i := by
      rintro rfl
      have hprogress := h.progress
      rw [hidle] at hprogress
      exact hprogress
    show Progress lib path p s.watch (Function.update s.pc i _ c)
    rw [Function.update_of_ne hne]
    exact h.progress
  | advance i ord =>
    obtain ⟨⟨w, pc⟩, hcrit, rfl⟩ := Option.map_eq_some_iff.mp hstep
    have hsec := critical_cases hcrit
    refine ⟨h.file, ?_⟩
    show Progress lib path p w (Function.update s.pc i pc c)
    by_cases hc : c = i
    · subst hc
      rw [Function.update_self]
      exact h.progress.own h.file hsec hsafe
    · rw [Function.update_of_ne hc]
      exact h.progress.other h.file hsec hsafe
  | write path' data =>
    cases hstep
    have hne : path ≠ path' := fun heq => by simp [ReloadEvent.changes, heq] at hkept
    exact ⟨(reload_congr (by rw [Directory.read_write, if_neg hne])).trans h.file, h.progress⟩
  | unlink path' =>
    cases hstep
    have hne : path ≠ path' := fun heq => by simp [ReloadEvent.changes, heq] at hkept
    exact ⟨(reload_congr (by rw [Directory.read_remove, if_neg hne])).trans h.file, h.progress⟩
  | rename old new =>
    cases hstep
    have hne : path ≠ old ∧ path ≠ new := by
      constructor <;> (rintro rfl; simp [ReloadEvent.changes] at hkept)
    have hread : (s.dir.rename old new).read path = s.dir.read path := by
      cases hold : s.dir.read old with
      | none => rw [Directory.rename, hold]
      | some data => rw [Directory.read_rename hold, if_neg hne.2, if_neg hne.1]
    exact ⟨(reload_congr hread).trans h.file, h.progress⟩

/-- A file is renamed and holds a valid agent under its new path, and a callback is about
    to load it. In every run from there whose steps are safe and leave the file under its
    new path, the agent is registered once the callback has finished, whatever the callback
    for the old path and any other callbacks do in between. -/
theorem renamed_agent_registered (lib : DocLib) (s s' : ReloadSystem ι) (old new : String)
    (p : DefPtr) (c : ι) (events : List (ReloadEvent ι))
    (hload : lib.reload (s.dir.rename old new) new = .agent p) (hpc : s.pc c = .load new)
    (hsafe : AllSteps (step lib) (Safe lib) s (.rename old new :: events))
    (hkept : ∀ e ∈ events, e.changes new = false)
    (hrun : run lib s (.rename old new :: events) = some s') (hdone : s'.pc c = .done) :
    (s'.watch.registry.getOwnedForTenant (lib.defs.name p) (lib.defs.owner p)).isSome := by
  have hstart : Reloading lib new p c { s with dir := s.dir.rename old new } :=
    ⟨hload, by rw [hpc]; rfl⟩
  have hsteps := (hsafe.2 _ rfl).and_of_forall hkept
  have hend : Reloading lib new p c s' :=
    runOption_inv_of_allSteps (step lib) _ (Reloading lib new p c)
      (fun _ _ _ hop hstep h => h.step hop.1 hop.2 hstep) hsteps hrun hstart
  have hprogress := hend.progress
  rw [hdone] at hprogress
  exact hprogress.2

/-! ## Two callbacks -/

def echoText : Bytes := Bytes.ofString "name: echo"

/-- A library that knows the agent `echo`. -/
def echoLib : DocLib := .ofTable [(echoText, DocLib.sampleDoc "echo" "")]

/-- The watcher has loaded `echo.yaml`. The callbacks `false` for `echo.yaml` and `true` for
    `bar.yaml` are about to run. -/
def echoWatched : ReloadSystem Bool :=
  let dir := Directory.empty.write "agents/echo.yaml" echoText
  { dir
    watch := Watch.reloadFile echoLib .stored dir ⟨.newAgentRegistry, ∅⟩ "agents/echo.yaml"
    pc := fun c => .load (if c then "agents/bar.yaml" else "agents/echo.yaml") }

/-- `echo.yaml` becomes `bar.yaml`. -/
def renameEcho : ReloadEvent Bool := .rename "agents/echo.yaml" "agents/bar.yaml"

/-- The steps of the two callbacks, by who takes them. -/
def callbacks (turns : List Bool) : List (ReloadEvent Bool) :=
  turns.map fun c => .advance c .stored

/-- The new path is loaded, registered and recorded; then the old path is found gone, is
    forgotten, and its name is found claimed. -/
def keptTurns : List Bool := [true, true, true, false, false, false]

/-- The agent is kept in that order. -/
theorem renamedEcho_registered :
    ∃ s', run echoLib echoWatched (renameEcho :: callbacks keptTurns) = some s' ∧
      (s'.watch.registry.getOwnedForTenant (echoLib.defs.name 0)
        (echoLib.defs.owner 0)).isSome := by
  obtain ⟨s', hrun, hdone⟩ : ∃ s', run echoLib echoWatched
      (renameEcho :: callbacks keptTurns) = some s' ∧ s'.pc true = .done := by decide
  refine ⟨s', hrun, ?_⟩
  exact renamed_agent_registered echoLib echoWatched s' "agents/echo.yaml" "agents/bar.yaml" 0
    true (callbacks keptTurns) (by decide) rfl (by decide) (by decide)
    hrun hdone

/-- The new path is loaded and registered, and before it is recorded the old path is found
    gone, is forgotten, and its name is found unclaimed; the removal comes last. -/
def lostTurns : List Bool := [true, true, false, false, false, true, false]

/-- After these steps both callbacks have finished, `bar.yaml` holds the agent `echo`, and
    no agent `echo` is registered. -/
theorem renamedEcho_dropped :
    echoWatched.watch.fileAgents.lookup "agents/echo.yaml" = some "echo" ∧
      (run echoLib echoWatched (renameEcho :: callbacks lostTurns)).map (fun s =>
        (s.pc false, s.pc true, echoLib.reload s.dir "agents/bar.yaml",
          s.watch.registry.getOwnedForTenant "echo" "")) =
        some (.done, .done, .agent 0, none) ∧ echoLib.defs.name 0 = "echo" := by
  decide

end ReloadSystem

end MockAgents
