import MockAgents.Recording.ConcurrentAppend
import MockAgents.Spec.RecordReplay

/-!
# Interactions that reach the disk

When all concurrent appends have returned nil, the file should hold every interaction of
the cassette. But the file is replaced outside the lock: if a call that took its snapshot
earlier is renamed over the file of one that took it later, the later interactions are gone
from the disk. In every run in which no snapshot is renamed over a longer one, the file
ends up complete.
-/

namespace MockAgents.TapeSystem

open Bytes (ofString)

variable {ι : Type}

/-- When all calls have returned nil, the cassette has nothing new or its file holds all of
    its interactions, in their order. -/
def NoneLost (c : Cassette) (s : TapeSystem ι) : Prop :=
  (∀ i, s.pc i = .idle) → s.failed = false →
    s.cassette.interactions = c.interactions ∨
      ∃ content, s.file = some content ∧
        writeCassette true s.cassette.interactions = some content

/-- The condition on a step: a snapshot is not renamed over a longer one. -/
def InOrder (s : TapeSystem ι) : AppendEvent ι → Prop
  | .add .. => True
  | .rename i _ =>
    match s.pc i with
    | .idle => True
    | .writing snapshot => s.onDisk.length ≤ snapshot.length

instance (s : TapeSystem ι) (e : AppendEvent ι) : Decidable (s.InOrder e) :=
  match e with
  | .add .. => inferInstanceAs (Decidable True)
  | .rename i _ =>
    match h : s.pc i with
    | .idle => decidable_of_iff True (by simp [InOrder, h])
    | .writing snapshot =>
      decidable_of_iff (s.onDisk.length ≤ snapshot.length) (by simp [InOrder, h])

/-! ## The invariant -/

/-- A snapshot that a client holds is a part of the cassette from its front. -/
def PcSound (s : TapeSystem ι) : AppendPc → Prop
  | .idle => True
  | .writing snapshot => snapshot <+: s.cassette.interactions

/-- The snapshot of everything is with a client, or on the disk, or its call failed. -/
def Pending (c : Cassette) (s : TapeSystem ι) : Prop :=
  s.cassette.interactions = c.interactions ∨
    (∃ i, s.pc i = .writing s.cassette.interactions) ∨ s.failed = true ∨
    (s.onDisk = s.cassette.interactions ∧
      ∃ content, s.file = some content ∧ writeCassette true s.onDisk = some content)

/-- The invariant of a run in order. -/
structure DiskInv (c : Cassette) (s : TapeSystem ι) : Prop where
  path : s.cassette.path ≠ []
  clients : ∀ i, s.PcSound (s.pc i)
  pending : s.Pending c

variable {c : Cassette} {s : TapeSystem ι}

theorem DiskInv.initial (hpath : c.path ≠ []) (file : Option Bytes) :
    (TapeSystem.initial c file : TapeSystem ι).DiskInv c :=
  ⟨hpath, fun _ => trivial, .inl rfl⟩

theorem DiskInv.noneLost (h : s.DiskInv c) : s.NoneLost c := by
  intro hidle hok
  obtain hsame | ⟨i, hi⟩ | hfailed | ⟨hdisk, content, hfile, hwrite⟩ := h.pending
  · exact .inl hsame
  · rw [hidle i] at hi
    cases hi
  · rw [hok] at hfailed
    cases hfailed
  · exact .inr ⟨content, hfile, hdisk ▸ hwrite⟩

variable [DecidableEq ι]

theorem DiskInv.add (h : s.DiskInv c) (sha256 : Bytes → Bytes) (i : ι) (its : List Interaction)
    (now : Time) : (s.add sha256 i its now).DiskInv c where
  path := by
    show (s.cassette.addAll sha256 now its).path ≠ []
    rw [Cassette.path_addAll]
    exact h.path
  clients := by
    have hgrow : s.cassette.interactions <+: (s.cassette.addAll sha256 now its).interactions := by
      rw [Cassette.interactions_addAll]
      exact List.prefix_append _ _
    have hclients : ∀ j, (s.add sha256 i its now).PcSound (s.pc j) := by
      intro j
      have hj := h.clients j
      cases hpc : s.pc j with
      | idle => trivial
      | writing snapshot =>
        rw [hpc] at hj
        exact List.IsPrefix.trans hj hgrow
    exact (Function.forall_update_iff s.pc fun _ pc => (s.add sha256 i its now).PcSound pc).mpr
      ⟨List.prefix_rfl, fun j _ => hclients j⟩
  pending := .inr (.inl ⟨i, Function.update_self _ _ _⟩)

theorem DiskInv.replace (h : s.DiskInv c) {i : ι} {snapshot : List Interaction} {content : Bytes}
    (hpc : s.pc i = .writing snapshot) (horder : s.onDisk.length ≤ snapshot.length)
    (hwrite : writeCassette true snapshot = some content) :
    (s.replace i snapshot content).DiskInv c where
  path := h.path
  clients := (Function.forall_update_iff s.pc fun _ pc =>
    (s.replace i snapshot content).PcSound pc).mpr ⟨trivial, fun j _ => h.clients j⟩
  pending := by
    have hsnapshot : snapshot <+: s.cassette.interactions := by
      have hi := h.clients i
      rw [hpc] at hi
      exact hi
    obtain hsame | ⟨j, hj⟩ | hfailed | ⟨hdisk, _⟩ := h.pending
    · exact .inl hsame
    · by_cases hij : j = i
      · -- this is the snapshot of everything
        subst hij
        obtain rfl := AppendPc.writing.inj (hpc.symm.trans hj)
        exact .inr (.inr (.inr ⟨rfl, content, rfl, hwrite⟩))
      · exact .inr (.inl ⟨j, (Function.update_of_ne hij _ _).trans hj⟩)
    · exact .inr (.inr (.inl hfailed))
    · -- everything is on the disk already, so this snapshot has everything as well
      have hall : snapshot = s.cassette.interactions := by
        refine hsnapshot.eq_of_length (le_antisymm hsnapshot.length_le ?_)
        rw [← hdisk]
        exact horder
      exact .inr (.inr (.inr ⟨hall, content, rfl, hwrite⟩))

theorem DiskInv.fail (h : s.DiskInv c) (i : ι) : (s.fail i).DiskInv c where
  path := h.path
  clients := (Function.forall_update_iff s.pc fun _ pc => (s.fail i).PcSound pc).mpr
    ⟨trivial, fun j _ => h.clients j⟩
  pending := .inr (.inr (.inl rfl))

theorem writeCassette_true {fsOk : Bool} {its : List Interaction} {content : Bytes}
    (h : writeCassette fsOk its = some content) : writeCassette true its = some content := by
  cases fsOk with
  | true => exact h
  | false => cases h

theorem DiskInv.step {sha256 : Bytes → Bytes} {e : AppendEvent ι} {s' : TapeSystem ι}
    (horder : s.InOrder e) (hstep : s.step sha256 e = some s') (h : s.DiskInv c) :
    s'.DiskInv c := by
  cases e with
  | add i its now =>
    simp only [TapeSystem.step] at hstep
    split at hstep
    · cases hstep
      exact h.add sha256 i its now
    · cases hstep
  | rename i fsOk =>
    simp only [TapeSystem.step] at hstep
    split at hstep
    · cases hstep
    · rename_i snapshot hpc
      have hlen : s.onDisk.length ≤ snapshot.length := by
        simpa only [InOrder, hpc] using horder
      rw [if_neg h.path] at hstep
      split at hstep
      · rename_i content hwrite
        cases hstep
        exact h.replace hpc hlen (writeCassette_true hwrite)
      · cases hstep
        exact h.fail i

/-- In every run of appends in which no snapshot is renamed over a longer one, nothing is
    lost: whenever all calls have returned nil, the file holds every interaction in the
    order of the cassette. -/
theorem noneLost_of_allSteps (sha256 : Bytes → Bytes) {c : Cassette} (hpath : c.path ≠ [])
    (file : Option Bytes) {es : List (AppendEvent ι)} {s : TapeSystem ι}
    (horder : AllSteps (step sha256) InOrder (initial c file) es)
    (hrun : run sha256 (initial c file) es = some s) : s.NoneLost c :=
  (runOption_inv_of_allSteps (step sha256) InOrder (DiskInv c) (fun _ _ _ => DiskInv.step) horder
    hrun (DiskInv.initial hpath file)).noneLost

def chatInteraction (request : String) : Interaction :=
  (exchangeOf (ofString request) (ofString "[]")).recorded zeroHash

/-- Two appends. The second takes its snapshot before the first has renamed its own, and
    renames it afterwards. -/
def orderedAppends : List (AppendEvent (Fin 2)) :=
  [.add 0 [chatInteraction "1"] newYear, .add 1 [chatInteraction "2"] newYear,
    .rename 0 true, .rename 1 true]

theorem orderedAppends_noneLost :
    ∃ s, run zeroHash (initial (Cassette.new tapePath) none) orderedAppends = some s ∧
      (∀ i, s.pc i = .idle) ∧ s.failed = false ∧
      s.cassette.interactions.map (·.requestBody) = [ofString "1", ofString "2"] ∧
      s.NoneLost (Cassette.new tapePath) := by
  obtain ⟨s, hs, hidle, hok, hbodies⟩ :
      ∃ s, run zeroHash (initial (Cassette.new tapePath) none) orderedAppends = some s ∧
        (∀ i, (s.pc i).isIdle = true) ∧ s.failed = false ∧
        s.cassette.interactions.map (·.requestBody) = [ofString "1", ofString "2"] := by decide
  simp only [AppendPc.isIdle_iff] at hidle
  exact ⟨s, hs, hidle, hok, hbodies,
    noneLost_of_allSteps zeroHash (by decide) none (by decide) hs⟩

/-- The same appends, with the renames the other way round. -/
def staleRename : List (AppendEvent (Fin 2)) :=
  [.add 0 [chatInteraction "1"] newYear, .add 1 [chatInteraction "2"] newYear,
    .rename 1 true, .rename 0 true]

/-- Both calls have returned nil, and the file holds the first interaction alone. -/
theorem staleRename_not_noneLost :
    ∃ s, run zeroHash (initial (Cassette.new tapePath) none) staleRename = some s ∧
      s.failed = false ∧
      s.cassette.interactions.map (·.requestBody) = [ofString "1", ofString "2"] ∧
      s.file = writeCassette true [chatInteraction "1"] ∧
      ¬ s.NoneLost (Cassette.new tapePath) := by
  obtain ⟨s, hs, hidle, hok, hbodies, hfile, hother⟩ :
      ∃ s, run zeroHash (initial (Cassette.new tapePath) none) staleRename = some s ∧
        (∀ i, (s.pc i).isIdle = true) ∧ s.failed = false ∧
        s.cassette.interactions.map (·.requestBody) = [ofString "1", ofString "2"] ∧
        s.file = writeCassette true [chatInteraction "1"] ∧
        s.file ≠ writeCassette true s.cassette.interactions := by decide +kernel
  simp only [AppendPc.isIdle_iff] at hidle
  refine ⟨s, hs, hok, hbodies, hfile, fun hkept => ?_⟩
  obtain hsame | ⟨content, hcontent, hwrite⟩ := hkept hidle hok
  · rw [hsame] at hbodies
    cases hbodies
  · exact hother (hcontent.trans hwrite.symm)

end MockAgents.TapeSystem
