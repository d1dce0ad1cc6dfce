import MockAgents.ForStd.Trace
import MockAgents.Spec.WatchOps

/-!
# A watched directory

The server boots from a directory and then follows it: after each change of an agent file
the watcher reloads the paths that changed. The registry should then hold exactly the
agents that the files declare.

The watcher knows one name per path, and only for the paths that it has reloaded itself;
it removes a name for all owners at once. So a change that takes an agent away from a path
is followed only if the watcher has seen the path and no other file declares the name.
-/

namespace MockAgents

open Function (update update_comm update_of_ne update_self)
open Directory (read_remove read_rename)
open Bytes (ofString)

/-- A change of an agent file, with the iteration order of the registry's loops. -/
inductive FileOp where
  | write (path : String) (data : Bytes) (ord : MapOrder)
  | remove (path : String) (ord : MapOrder)
  /-- Rename a file; the calls for the two paths come in either order. -/
  | rename (old new : String) (newFirst : Bool) (ord : MapOrder)

/-- The directory and what the watcher has made of it. -/
structure WatchedDir where
  dir : Directory
  watch : Watch

namespace DocLib

variable (lib : DocLib)

/-- A valid agent file: boot and `reloadFile` both read the agent from it. -/
def validAgent (dir : Directory) (path : String) : Option DefPtr :=
  (lib.declared dir path).filter fun p => lib.reload dir path = .agent p

/-- Two documents of one agent. -/
def SameAgent (p q : DefPtr) : Prop :=
  lib.defs.owner p = lib.defs.owner q ∧ lib.defs.name p = lib.defs.name q

instance (p q : DefPtr) : Decidable (lib.SameAgent p q) := inferInstanceAs (Decidable (_ ∧ _))

end DocLib

namespace WatchedDir

variable (lib : DocLib)

/-- The server has booted, and the watcher has seen no change yet. -/
def boot (ord : MapOrder) (dir : Directory) : WatchedDir :=
  ⟨dir, ⟨lib.buildRegistry ord dir, ∅⟩⟩

/-- The calls of `reloadFile` that follow a change, one after the other. -/
def follow (s : WatchedDir) (ord : MapOrder) (dir : Directory) (calls : List String) :
    WatchedDir :=
  ⟨dir, calls.foldl (fun w path => w.reloadFile lib ord dir path) s.watch⟩

/-- A change and the calls that follow it; `none` when it is not a change of a valid agent
    file. -/
def step (s : WatchedDir) : FileOp → Option WatchedDir
  | .write path data ord =>
    let dir := s.dir.write path data
    if (lib.validAgent dir path).isSome then some (s.follow lib ord dir [path]) else none
  | .remove path ord =>
    if (lib.declared s.dir path).isSome then
      some (s.follow lib ord (s.dir.remove path) [path])
    else none
  | .rename old new newFirst ord =>
    let dir := s.dir.rename old new
    match lib.declared s.dir old, lib.validAgent dir new with
    | some p, some q =>
      if old ≠ new ∧ lib.SameAgent p q then
        some (s.follow lib ord dir (if newFirst then [new, old] else [old, new]))
      else none
    | _, _ => none

def run (s : WatchedDir) (ops : List FileOp) : Option WatchedDir := runOption (step lib) s ops

/-- The registry holds exactly the agents that the files declare, each with the definition
    of a file that declares it. -/
structure Converged (s : WatchedDir) : Prop where
  registered : ∀ n t p, s.watch.registry.getOwnedForTenant n t = some p →
    ∃ path, lib.declared s.dir path = some p ∧ lib.Named n t p
  declared : ∀ path p, lib.declared s.dir path = some p →
    (s.watch.registry.getOwnedForTenant (lib.defs.name p) (lib.defs.owner p)).isSome

/-! ## Changes that the watcher can follow -/

/-- The watcher has seen the path. -/
def Tracked (s : WatchedDir) (path : String) : Prop := (s.watch.fileAgents.lookup path).isSome

/-- No file but those of the change declares the name, for any owner. -/
def Sole (s : WatchedDir) (touched : List String) (name : String) : Prop :=
  ∀ path ∈ s.dir.paths, path ∉ touched → ∀ q ∈ lib.declared s.dir path, lib.defs.name q ≠ name

/-- The path keeps its agent, or it gives up an agent whose name the watcher knows, whose
    name it will not use again, and which no other file uses. -/
def Releases (s : WatchedDir) (touched : List String) (path : String) (now : Option DefPtr) :
    Prop :=
  ∀ q ∈ lib.declared s.dir path, (∃ p ∈ now, lib.SameAgent q p) ∨
    (s.Tracked path ∧ (∀ p ∈ now, lib.defs.name p ≠ lib.defs.name q) ∧
      s.Sole lib touched (lib.defs.name q))

/-- A change that the watcher can follow. The old path of a rename gives up its agent for
    a moment when it is reloaded first. -/
def Keeps (s : WatchedDir) : FileOp → Prop
  | .write path data _ =>
    s.Releases lib [path] path (lib.validAgent (s.dir.write path data) path)
  | .remove path _ => s.Releases lib [path] path none
  | .rename old new newFirst _ =>
    (newFirst = false → s.Tracked old →
      ∀ p ∈ lib.declared s.dir old, s.Sole lib [old, new] (lib.defs.name p)) ∧
    s.Releases lib [old, new] new (lib.validAgent (s.dir.rename old new) new)

instance (s : WatchedDir) (path : String) : Decidable (s.Tracked path) :=
  inferInstanceAs (Decidable (_ = true))

instance (s : WatchedDir) (touched : List String) (name : String) :
    Decidable (s.Sole lib touched name) :=
  inferInstanceAs (Decidable (∀ path ∈ s.dir.paths, path ∉ touched → ∀ q ∈ _, _))

instance (s : WatchedDir) (touched : List String) (path : String) (now : Option DefPtr) :
    Decidable (s.Releases lib touched path now) :=
  inferInstanceAs (Decidable (∀ q ∈ _, (∃ p ∈ now, _) ∨ _))

instance (s : WatchedDir) : (op : FileOp) → Decidable (s.Keeps lib op)
  | .write _ _ _ | .remove _ _ => inferInstanceAs (Decidable (Releases _ _ _ _ _))
  | .rename _ _ _ _ => inferInstanceAs (Decidable (_ ∧ _))

/-! ## One call -/

/-- What the registry holds for one owner and name agrees with what the paths declare. -/
structure Agrees (seen : String → Option DefPtr) (w : Watch) (n t : String) : Prop where
  registered : ∀ p, w.registry.getOwnedForTenant n t = some p →
    ∃ path, seen path = some p ∧ lib.Named n t p
  declared : ∀ path p, seen path = some p → lib.Named n t p →
    (w.registry.getOwnedForTenant n t).isSome

/-- The name that the watcher knows for a path is the one that the path declares. -/
def Tracks (seen : String → Option DefPtr) (w : Watch) : Prop :=
  ∀ path name, w.fileAgents.lookup path = some name →
    ∃ q, seen path = some q ∧ lib.defs.name q = name

variable {lib} {seen : String → Option DefPtr} {w w' : Watch} {path : String}
  {now : Option DefPtr}

theorem Tracks.call (h : Tracks lib seen w) (hr : w.Reloaded lib path now w') :
    Tracks lib (update seen path now) w' := by
  intro path' name hlook
  rw [hr.lookup] at hlook
  split at hlook
  · rename_i heq
    subst heq
    obtain ⟨p, hp, hname⟩ := Option.map_eq_some_iff.mp hlook
    exact ⟨p, by rw [update_self, hp], hname⟩
  · rename_i hne
    rw [update_of_ne hne]
    exact h path' name hlook

variable {p : DefPtr} {n t : String}

/-- The agent that the path declares now. -/
theorem Agrees.named (hr : w.Reloaded lib path now w') (hnow : now = some p)
    (hp : lib.Named n t p) : Agrees lib (update seen path now) w' n t := by
  have howned := hr.named n t p hnow hp
  constructor
  · intro q hq
    rw [howned] at hq
    cases hq
    exact ⟨path, by rw [update_self, hnow], hp⟩
  · intro _ _ _ _
    rw [howned]
    rfl

theorem Agrees.dropped (hr : w.Reloaded lib path now w') (hd : w.Drops lib path now n)
    (hnow : ∀ p, now = some p → ¬ lib.Named n t p)
    (hothers : ∀ other, other ≠ path → ∀ q, seen other = some q → ¬ lib.Named n t q) :
    Agrees lib (update seen path now) w' n t := by
  have howned := hr.dropped n t hd
  constructor
  · intro q hq
    rw [howned] at hq
    cases hq
  · intro other q hq hnamed
    by_cases hother : other = path
    · subst hother
      rw [update_self] at hq
      exact absurd hnamed (hnow q hq)
    · rw [update_of_ne hother] at hq
      exact absurd hnamed (hothers other hother q hq)

/-- An agent that the call does not touch, and that the path did not declare. -/
theorem Agrees.kept (h : Agrees lib seen w n t) (hr : w.Reloaded lib path now w')
    (hd : ¬ w.Drops lib path now n) (hnow : ∀ p, now = some p → ¬ lib.Named n t p)
    (hbefore : ∀ q, seen path = some q → ¬ lib.Named n t q) :
    Agrees lib (update seen path now) w' n t := by
  have howned := hr.kept n t hd hnow
  constructor
  · intro q hq
    rw [howned] at hq
    obtain ⟨other, hseen, hnamed⟩ := h.registered q hq
    have hother : other ≠ path := by
      rintro rfl
      exact hbefore q hseen hnamed
    exact ⟨other, by rw [update_of_ne hother, hseen], hnamed⟩
  · intro other q hq hnamed
    rw [howned]
    by_cases hother : other = path
    · subst hother
      rw [update_self] at hq
      exact absurd hnamed (hnow q hq)
    · rw [update_of_ne hother] at hq
      exact h.declared other q hq hnamed

/-- `Releases` for the paths as they were seen last. -/
def Released (lib : DocLib) (seen : String → Option DefPtr) (w : Watch) (path : String)
    (now : Option DefPtr) : Prop :=
  ∀ q, seen path = some q → (∃ p, now = some p ∧ lib.SameAgent q p) ∨
    ((w.fileAgents.lookup path).isSome ∧
      (∀ p, now = some p → lib.defs.name p ≠ lib.defs.name q) ∧
      ∀ other, other ≠ path → ∀ q', seen other = some q' → lib.defs.name q' ≠ lib.defs.name q)

/-- A call for a path that keeps or gives up its agent. -/
theorem Agrees.call (h : Agrees lib seen w n t) (htracks : Tracks lib seen w)
    (hr : w.Reloaded lib path now w') (hrel : Released lib seen w path now) :
    Agrees lib (update seen path now) w' n t := by
  by_cases hnow : ∃ p, now = some p ∧ lib.Named n t p
  · obtain ⟨p, hp, hnamed⟩ := hnow
    exact Agrees.named hr hp hnamed
  · replace hnow : ∀ p, now = some p → ¬ lib.Named n t p := fun p hp hn => hnow ⟨p, hp, hn⟩
    by_cases hd : w.Drops lib path now n
    · -- the path declared the name, and nobody else does
      refine Agrees.dropped hr hd hnow fun other hother q hq hnamed => ?_
      obtain ⟨q₀, hq₀, hname⟩ := htracks path n hd.1
      rcases hrel q₀ hq₀ with ⟨p, rfl, hsame⟩ | ⟨-, -, hsole⟩
      · exact hd.2.1 (by rw [← hname, hsame.2]; rfl)
      · exact hsole other hother q hq (by rw [hname, hnamed.2])
    · refine h.kept hr hd hnow fun q hq hnamed => ?_
      -- if the path declared this agent, then its name would have been dropped
      rcases hrel q hq with ⟨p, hp, hsame⟩ | ⟨htracked, hnew, hsole⟩
      · exact hnow p hp ⟨hnamed.1.trans hsame.1, hnamed.2.trans hsame.2⟩
      · obtain ⟨name, hname⟩ := Option.isSome_iff_exists.mp htracked
        obtain ⟨q', hq', hname'⟩ := htracks path name hname
        rw [hq] at hq'
        cases hq'
        have hn : name = n := hname'.symm.trans hnamed.2.symm
        subst hn
        refine hd ⟨hname, fun hnow' => ?_, fun other hother hlook => ?_⟩
        · obtain ⟨p, hp, hpn⟩ := Option.map_eq_some_iff.mp hnow'
          exact hnew p hp (hpn.trans hname'.symm)
        · obtain ⟨q', hq', hqn⟩ := htracks other name hlook
          exact hsole other hother q' hq' (hqn.trans hname'.symm)

/-! ## The directory after a change -/

variable {dir : Directory}

theorem reload_of_read_eq_none (h : dir.read path = none) : lib.reload dir path = .missing := by
  simp [DocLib.reload, DocLib.loadFile, DocLib.readAndParse, h]

theorem validAgent_eq_some :
    lib.validAgent dir path = some p ↔
      lib.declared dir path = some p ∧ lib.reload dir path = .agent p := by
  rw [DocLib.validAgent, Option.filter_eq_some_iff, decide_eq_true_eq]

theorem declared_write (dir : Directory) (path : String) (data : Bytes) :
    lib.declared (dir.write path data) =
      update (lib.declared dir) path (lib.declared (dir.write path data) path) := by
  funext path'
  by_cases h : path' = path
  · rw [h, update_self]
  · rw [update_of_ne h]
    apply lib.declared_congr
    rw [Directory.read_write, if_neg h]

theorem declared_remove (dir : Directory) (path : String) :
    lib.declared (dir.remove path) = update (lib.declared dir) path none := by
  funext path'
  by_cases h : path' = path
  · rw [h, update_self, DocLib.declared, read_remove, if_pos rfl]
    rfl
  · rw [update_of_ne h]
    apply lib.declared_congr
    rw [read_remove, if_neg h]

variable {old new : String}

theorem declared_rename {data : Bytes} (hold : dir.read old = some data) (hne : old ≠ new) :
    lib.declared (dir.rename old new) = update (update (lib.declared dir) new
      (lib.declared (dir.rename old new) new)) old none := by
  funext path
  by_cases hpath : path = old
  · rw [hpath, update_self, DocLib.declared, read_rename hold, if_neg hne,
      if_pos rfl]
    rfl
  · rw [update_of_ne hpath]
    by_cases hnew : path = new
    · rw [hnew, update_self]
    · rw [update_of_ne hnew]
      apply lib.declared_congr
      rw [read_rename hold, if_neg hnew, if_neg hpath]

/-! ## One change -/

/-- The registry agrees with the files for every owner and name, and the watcher's names
    are those of the files. -/
structure Inv (lib : DocLib) (s : WatchedDir) : Prop where
  agrees : ∀ n t, Agrees lib (lib.declared s.dir) s.watch n t
  tracks : Tracks lib (lib.declared s.dir) s.watch

variable {s s' : WatchedDir} {q : DefPtr}

theorem Sole.name_ne {touched : List String} {name : String} (h : s.Sole lib touched name)
    (hpath : path ∉ touched) (hq : lib.declared s.dir path = some q) : lib.defs.name q ≠ name :=
  h path (lib.mem_paths_of_declared hq) hpath q hq

theorem Releases.released (h : s.Releases lib [path] path now) :
    Released lib (lib.declared s.dir) s.watch path now := by
  intro q hq
  rcases h q hq with ⟨p, hp, hsame⟩ | ⟨htracked, hnew, hsole⟩
  · exact .inl ⟨p, hp, hsame⟩
  · exact .inr ⟨htracked, hnew, fun other hother q' hq' => hsole.name_ne (by simpa) hq'⟩

variable {ord : MapOrder}

section

variable (h : s.Inv lib)
include h

theorem Inv.write {data : Bytes} (hvalid : lib.validAgent (s.dir.write path data) path = some p)
    (hkeeps : s.Keeps lib (.write path data ord)) :
    (s.follow lib ord (s.dir.write path data) [path]).Inv lib := by
  obtain ⟨hdecl, hreload⟩ := validAgent_eq_some.mp hvalid
  have hrel := Releases.released hkeeps
  rw [hvalid] at hrel
  have hcall := Watch.reloadFile_agent lib ord (w := s.watch) hreload
  have hseen : lib.declared (s.dir.write path data) = _ := declared_write s.dir path data
  rw [hdecl] at hseen
  constructor
  · intro n t
    show Agrees lib (lib.declared (s.dir.write path data)) _ n t
    rw [hseen]
    exact (h.agrees n t).call h.tracks hcall hrel
  · show Tracks lib (lib.declared (s.dir.write path data)) _
    rw [hseen]
    exact h.tracks.call hcall

theorem Inv.remove (hkeeps : s.Keeps lib (.remove path ord)) :
    (s.follow lib ord (s.dir.remove path) [path]).Inv lib := by
  have hrel : Released lib (lib.declared s.dir) s.watch path none := Releases.released hkeeps
  have hgone : (s.dir.remove path).read path = none := by rw [read_remove, if_pos rfl]
  have hcall := Watch.reloadFile_missing lib ord (w := s.watch) (reload_of_read_eq_none hgone)
  constructor
  · intro n t
    show Agrees lib (lib.declared (s.dir.remove path)) _ n t
    rw [declared_remove]
    exact (h.agrees n t).call h.tracks hcall hrel
  · show Tracks lib (lib.declared (s.dir.remove path)) _
    rw [declared_remove]
    exact h.tracks.call hcall

section

variable (hold : lib.declared s.dir old = some p)
include hold

/-- A rename, with the new path reloaded first: the old path's name is claimed by the time
    that it is found gone. -/
theorem Inv.rename_newFirst {w₁ w₂ : Watch} (hne : old ≠ new) (hsame : lib.SameAgent p q)
    (hrel : s.Releases lib [old, new] new (some q)) (hcall₁ : s.watch.Reloaded lib new (some q) w₁)
    (hcall₂ : w₁.Reloaded lib old none w₂) :
    (∀ n t, Agrees lib (update (update (lib.declared s.dir) new (some q))
      old none) w₂ n t) ∧
    Tracks lib (update (update (lib.declared s.dir) new (some q)) old none)
      w₂ := by
  have hrel₁ : Released lib (lib.declared s.dir) s.watch new (some q) := by
    intro q₀ hq₀
    rcases hrel q₀ hq₀ with ⟨p', hp', hsame'⟩ | ⟨htracked, hnew, hsole⟩
    · exact .inl ⟨p', hp', hsame'⟩
    · refine .inr ⟨htracked, hnew, fun other hother q' hq' => ?_⟩
      by_cases hother' : other = old
      · rw [hother', hold] at hq'
        cases hq'
        rw [hsame.2]
        exact hnew q rfl
      · exact hsole.name_ne (by simp [hother, hother']) hq'
  have htracks₁ := h.tracks.call hcall₁
  have hagrees₁ := fun n t => (h.agrees n t).call h.tracks hcall₁ hrel₁
  have hseen_old : update (lib.declared s.dir) new (some q) old = some p := by
    rw [update_of_ne hne, hold]
  -- the new path claims the name
  have hkeep : ∀ n, ¬ w₁.Drops lib old none n := by
    intro n hd
    obtain ⟨p', hp', hname⟩ := htracks₁ old n hd.1
    rw [hseen_old] at hp'
    cases hp'
    apply hd.2.2 new hne.symm
    rw [hcall₁.lookup, if_pos rfl, ← hname, hsame.2]
    rfl
  refine ⟨fun n t => ?_, htracks₁.call hcall₂⟩
  by_cases hnamed : lib.Named n t q
  · have howned : w₂.registry.getOwnedForTenant n t = some q := by
      rw [hcall₂.kept n t (hkeep n) (fun _ hp' => nomatch hp')]
      exact hcall₁.named n t q rfl hnamed
    constructor
    · intro q' hq'
      rw [howned] at hq'
      cases hq'
      exact ⟨new, by rw [update_of_ne hne.symm, update_self], hnamed⟩
    · intro _ _ _ _
      rw [howned]
      rfl
  · refine (hagrees₁ n t).kept hcall₂ (hkeep n) (fun _ hp' => nomatch hp') ?_
    intro p' hp' hnamed'
    rw [hseen_old] at hp'
    cases hp'
    exact hnamed ⟨hnamed'.1.trans hsame.1, hnamed'.2.trans hsame.2⟩

/-- A rename, with the old path reloaded first. Its agent may be gone in between, and comes
    back with the new path. -/
theorem Inv.rename_oldFirst {w₁ w₂ : Watch} (hne : old ≠ new) (hsame : lib.SameAgent p q)
    (hsole : s.Tracked old → s.Sole lib [old, new] (lib.defs.name p))
    (hrel : s.Releases lib [old, new] new (some q)) (hcall₁ : s.watch.Reloaded lib old none w₁)
    (hcall₂ : w₁.Reloaded lib new (some q) w₂) :
    (∀ n t, Agrees lib (update (update (lib.declared s.dir) old none)
      new (some q)) w₂ n t) ∧
    Tracks lib (update (update (lib.declared s.dir) old none) new (some q))
      w₂ := by
  have htracks₁ := h.tracks.call hcall₁
  refine ⟨fun n t => ?_, htracks₁.call hcall₂⟩
  by_cases hnamed : lib.Named n t q
  · exact Agrees.named hcall₂ rfl hnamed
  · have hnamed_old : ∀ p', lib.declared s.dir old = some p' → ¬ lib.Named n t p' := by
      intro p' hp' hnamed'
      rw [hold] at hp'
      cases hp'
      exact hnamed ⟨hnamed'.1.trans hsame.1, hnamed'.2.trans hsame.2⟩
    have hagrees₁ : Agrees lib (update (lib.declared s.dir) old none) w₁ n t := by
      by_cases hd : s.watch.Drops lib old none n
      · -- the old path's name goes for all owners, but no other file has it
        refine Agrees.dropped hcall₁ hd (fun _ hp' => nomatch hp') fun other hother q' hq' hn => ?_
        obtain ⟨p', hp', hname⟩ := h.tracks old n hd.1
        rw [hold] at hp'
        cases hp'
        by_cases hnew : other = new
        · rw [hnew] at hq'
          rcases hrel q' hq' with ⟨_, ⟨⟩, hsame'⟩ | ⟨-, hdiff, -⟩
          · exact hnamed ⟨hn.1.trans hsame'.1, hn.2.trans hsame'.2⟩
          · exact hdiff q rfl (by rw [← hn.2, ← hname, hsame.2])
        · refine (hsole (by rw [Tracked, hd.1]; rfl)).name_ne ?_ hq' (by rw [← hn.2, hname])
          simp [hother, hnew]
      · exact (h.agrees n t).kept hcall₁ hd (fun _ hp' => nomatch hp') hnamed_old
    refine hagrees₁.call htracks₁ hcall₂ fun q₀ hq₀ => ?_
    rw [update_of_ne hne.symm] at hq₀
    rcases hrel q₀ hq₀ with ⟨p', hp', hsame'⟩ | ⟨htracked, hdiff, hsole'⟩
    · exact .inl ⟨p', hp', hsame'⟩
    · refine .inr ⟨?_, hdiff, fun other hother q' hq' => ?_⟩
      · rw [hcall₁.lookup, if_neg hne.symm]
        exact htracked
      · by_cases hother' : other = old
        · rw [hother', update_self] at hq'
          cases hq'
        · rw [update_of_ne hother'] at hq'
          exact hsole'.name_ne (by simp [hother, hother']) hq'

theorem Inv.rename {newFirst : Bool} (hvalid : lib.validAgent (s.dir.rename old new) new = some q)
    (hne : old ≠ new) (hsame : lib.SameAgent p q)
    (hkeeps : s.Keeps lib (.rename old new newFirst ord)) :
    (s.follow lib ord (s.dir.rename old new)
      (if newFirst then [new, old] else [old, new])).Inv lib := by
  obtain ⟨hdecl, hreload⟩ := validAgent_eq_some.mp hvalid
  obtain ⟨hsole, hrel⟩ := hkeeps
  rw [hvalid] at hrel
  obtain ⟨data, hread, -⟩ := Option.bind_eq_some_iff.mp hold
  have hgone : (s.dir.rename old new).read old = none := by
    rw [read_rename hread, if_neg hne, if_pos rfl]
  have hmissing : lib.reload (s.dir.rename old new) old = .missing := reload_of_read_eq_none hgone
  have hseen : lib.declared (s.dir.rename old new) = _ := declared_rename hread hne
  rw [hdecl] at hseen
  cases newFirst with
  | true =>
    obtain ⟨hagrees, htracks⟩ := h.rename_newFirst hold hne hsame hrel
      (Watch.reloadFile_agent lib ord hreload) (Watch.reloadFile_missing lib ord hmissing)
    rw [← hseen] at hagrees htracks
    exact ⟨hagrees, htracks⟩
  | false =>
    obtain ⟨hagrees, htracks⟩ := h.rename_oldFirst hold hne hsame
      (fun ht => hsole rfl ht p hold) hrel
      (Watch.reloadFile_missing lib ord hmissing) (Watch.reloadFile_agent lib ord hreload)
    rw [update_comm hne, ← hseen] at hagrees htracks
    exact ⟨hagrees, htracks⟩

end

theorem Inv.step {op : FileOp} (hkeeps : s.Keeps lib op)
    (hstep : WatchedDir.step lib s op = some s') : s'.Inv lib := by
  cases op with
  | write path data ord =>
    simp only [WatchedDir.step] at hstep
    split at hstep
    · rename_i hvalid
      obtain ⟨p, hp⟩ := Option.isSome_iff_exists.mp hvalid
      cases hstep
      exact h.write hp hkeeps
    · cases hstep
  | remove path ord =>
    simp only [WatchedDir.step] at hstep
    split at hstep
    · cases hstep
      exact h.remove hkeeps
    · cases hstep
  | rename old new newFirst ord =>
    simp only [WatchedDir.step] at hstep
    split at hstep
    · rename_i p q hold hvalid
      obtain ⟨hcond, ⟨⟩⟩ := Option.ite_none_right_eq_some.mp hstep
      exact h.rename hold hvalid hcond.1 hcond.2 hkeeps
    · cases hstep

end

/-! ## Runs -/

/-- After boot the registry agrees with the files, and the watcher knows no names. -/
theorem inv_boot (lib : DocLib) (ord : MapOrder) (dir : Directory) :
    (boot lib ord dir).Inv lib := by
  constructor
  · intro n t
    cases lib.buildRegistry_loaded ord dir n t with
    | present path p wins owned source =>
      constructor
      · intro q hq
        rw [show (boot lib ord dir).watch.registry.getOwnedForTenant n t = some p from owned] at hq
        cases hq
        exact ⟨path, wins.declared, wins.named⟩
      · intro _ _ _ _
        show ((lib.buildRegistry ord dir).getOwnedForTenant n t).isSome
        rw [owned]
        rfl
    | absent none_named owned source =>
      constructor
      · intro q hq
        rw [show (boot lib ord dir).watch.registry.getOwnedForTenant n t = none from owned] at hq
        cases hq
      · intro path q hq hnamed
        exact absurd hnamed (none_named path (lib.mem_paths_of_declared hq) q hq)
  · intro path name hlook
    cases hlook

theorem Inv.converged (h : s.Inv lib) : s.Converged lib := by
  constructor
  · intro n t p hp
    exact (h.agrees n t).registered p hp
  · intro path p hp
    exact (h.agrees _ _).declared path p hp ⟨rfl, rfl⟩

/-- In every run of changes from boot that the watcher can follow, the registry holds
    exactly the agents that the files declare. -/
theorem converged_of_keeps (lib : DocLib) (ord : MapOrder) (dir : Directory)
    (ops : List FileOp) (s : WatchedDir)
    (hkeeps : AllSteps (step lib) (Keeps lib) (boot lib ord dir) ops)
    (hrun : run lib (boot lib ord dir) ops = some s) : s.Converged lib :=
  (runOption_inv_of_allSteps (step lib) (Keeps lib) (Inv lib)
    (fun _ _ _ hkeeps hstep h => h.step hkeeps hstep) hkeeps hrun (inv_boot lib ord dir)).converged

/-! ## Two tenants -/

/-- The tenants `acme` and `globex` both have an agent `echo`, and `globex` an agent
    `ping`. -/
def tenantsLib : DocLib := .ofTable
  [(ofString "acme echo", DocLib.sampleDoc "echo" "acme"),
    (ofString "globex echo", DocLib.sampleDoc "echo" "globex"),
    (ofString "globex ping", DocLib.sampleDoc "ping" "globex")]

def acmeDir : Directory := Directory.empty.write "agents/a.yaml" (ofString "acme echo")

def globexDir : Directory := Directory.empty.write "agents/b.yaml" (ofString "globex echo")

/-- A file is created, one is renamed, and the created one is deleted again. -/
def followedRun : List FileOp :=
  [.write "agents/p.yaml" (ofString "globex ping") .stored,
    .rename "agents/a.yaml" "agents/c.yaml" false .stored, .remove "agents/p.yaml" .stored]

theorem followedRun_converged :
    ∃ s, run tenantsLib (boot tenantsLib .stored acmeDir) followedRun = some s ∧
      s.Converged tenantsLib := by
  have hsome : (run tenantsLib (boot tenantsLib .stored acmeDir) followedRun).isSome := by
    decide
  obtain ⟨s, hrun⟩ := Option.isSome_iff_exists.mp hsome
  exact ⟨s, hrun, converged_of_keeps tenantsLib .stored acmeDir followedRun s
    (by decide) hrun⟩

/-- Deleting the file that `acme` booted with leaves its agent registered. Creating and
    deleting a file of `acme` takes away the agent of the same name that `globex` booted
    with. -/
theorem bootFile_not_converged :
    (∃ s, run tenantsLib (boot tenantsLib .stored acmeDir) [.remove "agents/a.yaml" .stored] =
        some s ∧ s.dir.paths = [] ∧
        s.watch.registry.getOwnedForTenant "echo" "acme" = some 0 ∧ ¬ s.Converged tenantsLib) ∧
      ∃ s, run tenantsLib (boot tenantsLib .stored globexDir)
          [.write "agents/a.yaml" (ofString "acme echo") .stored,
            .remove "agents/a.yaml" .stored] = some s ∧
        s.dir.paths = ["agents/b.yaml"] ∧
        s.watch.registry.getOwnedForTenant "echo" "globex" = none ∧
        ¬ s.Converged tenantsLib := by
  constructor
  · obtain ⟨s, hrun, hpaths, howned⟩ : ∃ s, run tenantsLib (boot tenantsLib .stored acmeDir)
        [.remove "agents/a.yaml" .stored] = some s ∧ s.dir.paths = [] ∧
        s.watch.registry.getOwnedForTenant "echo" "acme" = some 0 := by decide
    refine ⟨s, hrun, hpaths, howned, fun hconv => ?_⟩
    obtain ⟨path, hdecl, -⟩ := hconv.registered "echo" "acme" 0 howned
    have hmem := tenantsLib.mem_paths_of_declared hdecl
    rw [hpaths] at hmem
    cases hmem
  · obtain ⟨s, hrun, hpaths, howned, hdecl⟩ :
      ∃ s, run tenantsLib (boot tenantsLib .stored globexDir)
        [.write "agents/a.yaml" (ofString "acme echo") .stored,
          .remove "agents/a.yaml" .stored] = some s ∧ s.dir.paths = ["agents/b.yaml"] ∧
        s.watch.registry.getOwnedForTenant "echo" "globex" = none ∧
        tenantsLib.declared s.dir "agents/b.yaml" = some 1 := by decide
    refine ⟨s, hrun, hpaths, howned, fun hconv => ?_⟩
    have hreg := hconv.declared "agents/b.yaml" 1 hdecl
    have hnone : s.watch.registry.getOwnedForTenant (tenantsLib.defs.name 1)
        (tenantsLib.defs.owner 1) = none := howned
    rw [hnone] at hreg
    cases hreg

end WatchedDir

end MockAgents
