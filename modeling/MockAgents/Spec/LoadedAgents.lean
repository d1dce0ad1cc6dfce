import Mathlib.Data.List.Induction
import MockAgents.Config.Loader
import MockAgents.Spec.RegistryOps

/-!
# What a directory declares

An agent file declares the agent that boot registers from it. Boot goes through the
files in the order of their paths, so of several files that declare one agent the last
one is registered, and recorded as its source.
-/

namespace MockAgents.DocLib

variable (lib : DocLib)

/-- The agent that boot registers from a file with this path and these bytes. -/
def bootAgent (path : String) (data : Bytes) : Option DefPtr :=
  if isDocumentPath path then
    match lib.parseDocument path data with
    | .error _ => none
    | .ok doc =>
      if lib.peekKind doc = "Agent" ∨ lib.peekKind doc = "" then
        (lib.decode doc).bind fun definition =>
          if lib.validate (applyDefaults definition) doc = [] then some (lib.place doc) else none
      else none
  else none

def declared (dir : Directory) (path : String) : Option DefPtr :=
  (dir.read path).bind (lib.bootAgent path)

/-- `p` is the agent `n` of the owner `t`. -/
def Named (n t : String) (p : DefPtr) : Prop := t = lib.defs.owner p ∧ n = lib.defs.name p

instance (n t : String) (p : DefPtr) : Decidable (lib.Named n t p) :=
  inferInstanceAs (Decidable (_ ∧ _))

variable (ord : MapOrder)

theorem registerWithSource_owned (r : AgentRegistry) (path : String) (p : DefPtr) (n t : String) :
    (r.registerWithSource lib.defs ord path (some p)).getOwnedForTenant n t =
      if lib.Named n t p then some p else r.getOwnedForTenant n t :=
  AgentRegistry.registerWithSource_owned lib.defs ord r path p n t

variable {path : String}

theorem registerWithSource_source (r : AgentRegistry) (h : path ≠ "") (p : DefPtr) (n t : String) :
    (r.registerWithSource lib.defs ord path (some p)).source n t =
      if lib.Named n t p then path else r.source n t :=
  AgentRegistry.registerWithSource_source lib.defs ord r h p n t

variable {dir : Directory} {p : DefPtr}

theorem ne_empty_of_declared (h : lib.declared dir path = some p) : path ≠ "" := by
  rintro rfl
  obtain ⟨data, -, hboot⟩ := Option.bind_eq_some_iff.mp h
  cases hboot

theorem declared_congr {dir' : Directory} (h : dir.read path = dir'.read path) :
    lib.declared dir path = lib.declared dir' path := by
  rw [declared, declared, h]

theorem mem_paths_of_declared (h : lib.declared dir path = some p) : path ∈ dir.paths := by
  obtain ⟨data, hread, -⟩ := Option.bind_eq_some_iff.mp h
  exact (dir.mem_paths path).mpr ⟨data, hread⟩

/-! ## Boot -/

/-- Register what one file declares. -/
def loadPath (ord : MapOrder) (dir : Directory) (r : AgentRegistry) (path : String) :
    AgentRegistry :=
  match lib.declared dir path with
  | none => r
  | some p => r.registerWithSource lib.defs ord path (some p)

theorem buildRegistry_eq (dir : Directory) :
    lib.buildRegistry ord dir = dir.paths.foldl (lib.loadPath ord dir) .newAgentRegistry := by
  rw [buildRegistry, loadAllDocuments, listDocumentPaths, List.foldl_filterMap, List.foldl_filter]
  refine List.foldl_ext _ _ _ fun r path hpath => ?_
  obtain ⟨data, hread⟩ := (dir.mem_paths path).mp hpath
  simp only [loadPath, declared, hread, Option.bind_some, bootAgent, loadDocument, readAndParse]
  split
  · cases hdoc : lib.parseDocument path data with
    | error e => rfl
    | ok doc =>
      by_cases hkind : lib.peekKind doc = "Agent" ∨ lib.peekKind doc = ""
      · simp only [if_pos hkind]
        cases hdef : lib.decode doc with
        | none => rfl
        | some definition =>
          simp only [Option.map_some, Option.bind_some, registerLoaded]
          split <;> rfl
      · simp only [if_neg hkind]
  · rfl

/-- The file under `path` is the last of the files `paths` to declare the agent `n` of the
    owner `t`. -/
structure Wins (dir : Directory) (paths : List String) (n t path : String) (p : DefPtr) :
    Prop where
  mem : path ∈ paths
  declared : lib.declared dir path = some p
  named : lib.Named n t p
  last : ∀ path' ∈ paths, ∀ p', lib.declared dir path' = some p' → lib.Named n t p' →
    path' ≤ path

/-- What a registry holds for the agent `n` of the owner `t` once `paths` are loaded. -/
inductive Loaded (dir : Directory) (paths : List String) (r : AgentRegistry) (n t : String) :
    Prop where
  | present (path : String) (p : DefPtr) (wins : lib.Wins dir paths n t path p)
      (owned : r.getOwnedForTenant n t = some p) (source : r.source n t = path)
  | absent (none_named : ∀ path ∈ paths, ∀ p, lib.declared dir path = some p →
        ¬ lib.Named n t p)
      (owned : r.getOwnedForTenant n t = none) (source : r.source n t = "")

variable {paths : List String} {r : AgentRegistry} {n t : String}

theorem Loaded.append_other {r' : AgentRegistry} (h : lib.Loaded dir paths r n t)
    (hother : ∀ p, lib.declared dir path = some p → ¬ lib.Named n t p)
    (howned : r'.getOwnedForTenant n t = r.getOwnedForTenant n t)
    (hsource : r'.source n t = r.source n t) : lib.Loaded dir (paths ++ [path]) r' n t := by
  cases h with
  | present path₀ p wins owned source =>
    refine .present path₀ p ⟨by simp [wins.mem], wins.declared, wins.named,
      List.forall_mem_append.mpr ⟨wins.last, List.forall_mem_singleton.mpr ?_⟩⟩
      (howned.trans owned) (hsource.trans source)
    exact fun p' hp' hnamed => absurd hnamed (hother p' hp')
  | absent none_named owned source =>
    exact .absent (List.forall_mem_append.mpr ⟨none_named, List.forall_mem_singleton.mpr hother⟩)
      (howned.trans owned) (hsource.trans source)

/-- Loading one more file, whose path comes after the others. -/
theorem Loaded.snoc (h : lib.Loaded dir paths r n t) (ord : MapOrder)
    (hafter : ∀ path' ∈ paths, path' < path) :
    lib.Loaded dir (paths ++ [path]) (lib.loadPath ord dir r path) n t := by
  unfold loadPath
  cases hdecl : lib.declared dir path with
  | none => exact h.append_other lib (fun p hp => by simp [hdecl] at hp) rfl rfl
  | some q =>
    have hne := lib.ne_empty_of_declared hdecl
    have howned := lib.registerWithSource_owned ord r path q n t
    have hsource := lib.registerWithSource_source ord r hne q n t
    by_cases hq : lib.Named n t q
    · -- the new file is the last one to declare this agent
      rw [if_pos hq] at howned hsource
      have hlast : ∀ path' ∈ paths ++ [path], path' ≤ path := List.forall_mem_append.mpr
        ⟨fun path' hpath' => le_of_lt (hafter path' hpath'), by simp⟩
      exact .present path q ⟨by simp, hdecl, hq, fun path' hpath' _ _ _ => hlast path' hpath'⟩
        howned hsource
    · rw [if_neg hq] at howned hsource
      refine h.append_other lib (fun p hp => ?_) howned hsource
      rw [hdecl] at hp
      cases hp
      exact hq

/-- The registry that boot builds. -/
theorem buildRegistry_loaded (dir : Directory) (n t : String) :
    lib.Loaded dir dir.paths (lib.buildRegistry ord dir) n t := by
  rw [buildRegistry_eq]
  have hsorted : dir.paths.Pairwise (· < ·) := List.Pairwise.map _ (fun _ _ h => h) dir.sorted
  generalize dir.paths = paths at hsorted
  -- induction on the files loaded so far, last file first
  induction paths using List.reverseRecOn with
  | nil => exact .absent (nofun) rfl rfl
  | append_singleton paths path ih =>
    obtain ⟨hpaths, _, hafter⟩ := List.pairwise_append.mp hsorted
    rw [List.foldl_append]
    exact (ih hpaths).snoc lib ord fun path' hpath' => hafter path' hpath' path (by simp)

/-! ## A library for samples -/

/-- A library that reads the texts of a table, as YAML and as JSON. A node is a position in
    the table, and the document of a node is allocated at that address. -/
def ofTable (docs : List (Bytes × AgentDocument)) : DocLib where
  Node := Nat
  unmarshal data := docs.findIdx? fun e => e.1 = data
  marshalJSON := some
  peekKind node := (docs[node]?.map fun e => e.2.kind).getD ""
  decode node := docs[node]?.map Prod.snd
  validate _ _ := []
  validateOther _ := []
  parseError _ := documentError "yaml"
  jsonError _ := "json"
  unmarshalAgent data := docs.lookup data
  marshal doc :=
    (docs.find? fun e => e.2.definition.metadata = doc.definition.metadata).map Prod.fst
  heap p := (docs[p]?.map fun e => applyDefaults e.2).getD
    { definition := { metadata := { name := "" } } }
  place node := node
  heap_place node doc h := by
    obtain ⟨e, he, rfl⟩ := Option.map_eq_some_iff.mp h
    rw [he]
    rfl

/-- An agent document with nothing but its name, its owner and the default model. -/
def sampleDoc (name tenantID : String) : AgentDocument where
  apiVersion := "mockagents/v1"
  kind := "Agent"
  definition := { metadata := { name, tenantID }, spec := { model := defaultModel } }

end MockAgents.DocLib
