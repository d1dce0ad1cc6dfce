import MockAgents.Server.Watcher
import MockAgents.Spec.LoadedAgents

/-!
# What the sections of a reload do

One lemma per critical section and table: which agents it changes in the registry, and
which names of `fileAgents`. Later proofs use these and unfold no section.
-/

namespace MockAgents.Watch

variable (lib : DocLib) (ord : MapOrder) (w : Watch)

/-! ## The registry -/

theorem register_owned (path : String) (p : DefPtr) (n t : String) :
    (w.register lib ord path p).registry.getOwnedForTenant n t =
      if lib.Named n t p then some p else w.registry.getOwnedForTenant n t :=
  lib.registerWithSource_owned ord w.registry path p n t

theorem remove_owned (name n t : String) :
    (w.remove lib ord name).registry.getOwnedForTenant n t =
      if n = name then none else w.registry.getOwnedForTenant n t :=
  AgentRegistry.remove_owned lib.defs ord w.registry name n t

@[simp] theorem record_registry (path name : String) :
    (w.record path name).1.registry = w.registry := rfl

@[simp] theorem forget_registry (path : String) : (w.forget path).1.registry = w.registry := by
  rw [forget]
  split <;> rfl

/-! ## The names of the paths -/

theorem record_lookup (path name path' : String) :
    (w.record path name).1.fileAgents.lookup path' =
      if path' = path then some name else w.fileAgents.lookup path' :=
  GoMap.lookup_insert_eq _ _ _ _

theorem forget_lookup (path path' : String) :
    (w.forget path).1.fileAgents.lookup path' =
      if path' = path then none else w.fileAgents.lookup path' := by
  rw [forget]
  cases h : w.fileAgents.lookup path with
  | none =>
    show w.fileAgents.lookup path' = _
    by_cases heq : path' = path
    · rw [if_pos heq, heq, h]
    · rw [if_neg heq]
  | some name => exact GoMap.lookup_erase_eq _ _ _

theorem claimed_iff (name : String) :
    w.claimed name = true ↔ ∃ path, w.fileAgents.lookup path = some name := by
  simp only [claimed, List.any_eq_true, decide_eq_true_eq, GoMap.lookup_eq_some_iff]
  constructor
  · rintro ⟨⟨path, _⟩, hmem, rfl⟩
    exact ⟨path, hmem⟩
  · rintro ⟨path, hmem⟩
    exact ⟨⟨path, name⟩, hmem, rfl⟩

/-! ## One call -/

theorem dropName_owned (prev : Option String) (n t : String) :
    (w.dropName lib ord prev).registry.getOwnedForTenant n t =
      if prev = some n ∧ w.claimed n = false then none
      else w.registry.getOwnedForTenant n t := by
  cases prev with
  | none => simp [dropName]
  | some name =>
    rw [dropName, removeIfUnclaimed]
    by_cases hname : n = name
    · subst hname
      by_cases hclaimed : w.claimed n = true
      · simp [hclaimed]
      · simp [hclaimed, remove_owned]
    · have hother : ¬ (some name = some n ∧ w.claimed n = false) :=
        fun h => hname (Option.some.inj h.1).symm
      split
      · rfl
      · rw [remove_owned, if_neg hname]

@[simp] theorem dropName_fileAgents (prev : Option String) :
    (w.dropName lib ord prev).fileAgents = w.fileAgents := by
  cases prev with
  | none => rfl
  | some name =>
    rw [dropName, removeIfUnclaimed]
    split <;> rfl

/-- A call for `path` that now declares `now` drops the name `n`: it is the name that the
    path declared before, and no other path declares it. -/
def Drops (path : String) (now : Option DefPtr) (n : String) : Prop :=
  w.fileAgents.lookup path = some n ∧ now.map lib.defs.name ≠ some n ∧
    ∀ other, other ≠ path → w.fileAgents.lookup other ≠ some n

/-- What a call for `path` leaves, when the file is gone or declares an agent. -/
structure Reloaded (path : String) (now : Option DefPtr) (w' : Watch) : Prop where
  lookup : ∀ path', w'.fileAgents.lookup path' =
    if path' = path then now.map lib.defs.name else w.fileAgents.lookup path'
  named : ∀ n t p, now = some p → lib.Named n t p →
    w'.registry.getOwnedForTenant n t = some p
  dropped : ∀ n t, w.Drops lib path now n → w'.registry.getOwnedForTenant n t = none
  kept : ∀ n t, ¬ w.Drops lib path now n → (∀ p, now = some p → ¬ lib.Named n t p) →
    w'.registry.getOwnedForTenant n t = w.registry.getOwnedForTenant n t

variable {w} {path : String}

/-- The bookkeeping of a call drops exactly the names of `Drops`. -/
theorem drops_iff {w' : Watch} {now : Option DefPtr} {prev : Option String}
    (hlookup : ∀ path', w'.fileAgents.lookup path' =
      if path' = path then now.map lib.defs.name else w.fileAgents.lookup path')
    (hprev : ∀ n, prev = some n ↔
      w.fileAgents.lookup path = some n ∧ now.map lib.defs.name ≠ some n) (n : String) :
    (prev = some n ∧ w'.claimed n = false) ↔ w.Drops lib path now n := by
  rw [hprev, and_assoc]
  refine and_congr_right fun _ => and_congr_right fun hnow => ?_
  rw [← Bool.not_eq_true, claimed_iff]
  constructor
  · intro h other hother hlook
    exact h ⟨other, by rw [hlookup, if_neg hother, hlook]⟩
  · rintro h ⟨other, hlook⟩
    rw [hlookup] at hlook
    split at hlook
    · exact hnow hlook
    · rename_i hother
      exact h other hother hlook

/-- A call for a file that is gone. -/
theorem reloadFile_missing {dir : Directory} (h : lib.reload dir path = .missing) :
    w.Reloaded lib path none (w.reloadFile lib ord dir path) := by
  have hcall : w.reloadFile lib ord dir path =
      (w.forget path).1.dropName lib ord (w.forget path).2 := by
    rw [reloadFile, h]
    rfl
  have hprev : ∀ n, (w.forget path).2 = some n ↔ w.fileAgents.lookup path = some n ∧
      (none : Option DefPtr).map lib.defs.name ≠ some n := by
    rw [forget]
    split <;> simp [*]
  have hdrops := drops_iff lib (forget_lookup w path) hprev
  rw [hcall]
  refine ⟨?_, ?_, ?_, ?_⟩
  · intro path'
    rw [dropName_fileAgents, forget_lookup]
    rfl
  · intro n t p hnow
    cases hnow
  · intro n t hd
    rw [dropName_owned, if_pos ((hdrops n).mpr hd)]
  · intro n t hd _
    rw [dropName_owned, if_neg (fun hn => hd ((hdrops n).mp hn)), forget_registry]

/-- A call for a file that declares an agent. -/
theorem reloadFile_agent {dir : Directory} {p : DefPtr} (h : lib.reload dir path = .agent p) :
    w.Reloaded lib path (some p) (w.reloadFile lib ord dir path) := by
  have hcall : w.reloadFile lib ord dir path =
      ((w.register lib ord path p).record path (lib.defs.name p)).1.dropName lib ord
        ((w.register lib ord path p).record path (lib.defs.name p)).2 := by
    rw [reloadFile, h]
    rfl
  have hprev : ∀ n, ((w.register lib ord path p).record path (lib.defs.name p)).2 = some n ↔
      w.fileAgents.lookup path = some n ∧ (some p).map lib.defs.name ≠ some n := by
    intro n
    show (w.fileAgents.lookup path).filter _ = some n ↔ _
    rw [Option.filter_eq_some_iff, Option.map_some, decide_eq_true_eq, ne_eq, ne_eq,
      Option.some.injEq]
    exact and_congr_right fun _ => not_congr eq_comm
  have hdrops := drops_iff lib
    (fun path' => record_lookup (w.register lib ord path p) path (lib.defs.name p) path') hprev
  rw [hcall]
  refine ⟨?_, ?_, ?_, ?_⟩
  · intro path'
    rw [dropName_fileAgents, record_lookup]
    rfl
  · rintro n t _ ⟨⟩ hnamed
    -- the new name is not dropped
    have hkeep : ¬ w.Drops lib path (some p) n := fun hd => hd.2.1 (by rw [hnamed.2]; rfl)
    rw [dropName_owned, if_neg (fun hn => hkeep ((hdrops n).mp hn)), record_registry,
      register_owned, if_pos hnamed]
  · intro n t hd
    rw [dropName_owned, if_pos ((hdrops n).mpr hd)]
  · intro n t hd hnamed
    rw [dropName_owned, if_neg (fun hn => hd ((hdrops n).mp hn)), record_registry,
      register_owned, if_neg (hnamed p rfl)]

end MockAgents.Watch

