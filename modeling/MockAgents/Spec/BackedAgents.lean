import MockAgents.Spec.LoadedAgents

/-!
# Agents with a file behind them

When the server has booted, the source of every agent is the last file that declares it.
This stays so when a canonical document is written under a path that declared the agent
or nothing, and when the only file of an agent is removed with the agent.
-/

namespace MockAgents.DocLib

variable (lib : DocLib)

/-! ## Texts that are written -/

/-- What the YAML library promises for one document: what it writes is read back as the
    same document, and is not JSON. -/
def ReadsBack (doc : AgentDocument) : Prop :=
  ∀ data, lib.marshal doc = some data → Json.valid data = false ∧
    ∃ node, lib.unmarshal data = some node ∧ lib.decode node = some doc

/-- A text that `decodeAgent` accepts as the canonical text of the document at `p`. -/
structure Canonical (p : DefPtr) (data : Bytes) : Prop where
  marshal : lib.marshal (lib.heap p) = some data
  defaults : applyDefaults (lib.heap p) = lib.heap p
  kind : (lib.validateBytes data).kind = "" ∨ (lib.validateBytes data).kind = "Agent"
  errors : (lib.validateBytes data).errors = []

variable {p : DefPtr} {path : String}

/-- Boot reads the agent from a canonical text, in a file that is not JSON. -/
theorem Canonical.bootAgent {data : Bytes} (h : lib.Canonical p data)
    (hyaml : lib.ReadsBack (lib.heap p)) (hpath : isDocumentPath path = true)
    (hjson : isJSON path = false) :
    ∃ q, lib.bootAgent path data = some q ∧ lib.heap q = lib.heap p := by
  obtain ⟨hnot, node, hnode, hdecode⟩ := hyaml data h.marshal
  have hkind := h.kind
  have herrors := h.errors
  -- the report is that of a document that is there, is not JSON, and is an agent
  unfold validateBytes at hkind herrors
  split at herrors
  · cases herrors
  · rename_i hthere
    rw [if_neg hthere] at hkind
    have hplain : (if looksLikeJSON data = true then lib.jsonToYAML data else some data) =
        some data := by
      split
      · rename_i hlooks
        rw [if_pos hlooks, jsonToYAML, hnot] at herrors
        cases herrors
      · rfl
    simp only [hplain, hnode, hdecode] at hkind herrors
    split at herrors
    · rename_i hagent
      refine ⟨lib.place node, ?_, ?_⟩
      · have hparse : lib.parseDocument path data = .ok node := by
          simp [parseDocument, hthere, hjson, hnode]
        simp only [DocLib.bootAgent, hpath, if_true, hparse, hdecode, if_pos hagent.symm,
          Option.bind_some, h.defaults]
        exact if_pos herrors
      · rw [lib.heap_place node _ hdecode, h.defaults]
    · rename_i hother
      rw [if_neg hother] at hkind
      exact absurd hkind hother

/-! ## Agents with a file behind them -/

/-- `path` is the last file of the directory that declares the agent `n` of the owner `t`. -/
structure LastFile (dir : Directory) (n t path : String) (q : DefPtr) : Prop where
  declared : lib.declared dir path = some q
  named : lib.Named n t q
  last : ∀ path' q', lib.declared dir path' = some q' → lib.Named n t q' → path' ≤ path

/-- What stands behind the agent `n` of the owner `t`: the last file that declares it, which
    is recorded as its source, or no file and no agent. -/
inductive Backed (dir : Directory) (r : AgentRegistry) (n t : String) : Prop where
  | present (path : String) (p q : DefPtr) (file : lib.LastFile dir n t path q)
      (owned : r.getOwnedForTenant n t = some p) (same : lib.heap p = lib.heap q)
      (source : r.source n t = path)
  | absent (none_named : ∀ path q, lib.declared dir path = some q → ¬ lib.Named n t q)
      (owned : r.getOwnedForTenant n t = none) (source : r.source n t = "")

variable {lib}

/-- An agent has a file, which is recorded as its source. -/
theorem Backed.file_of_owned {dir : Directory} {r : AgentRegistry} {n t : String}
    (h : lib.Backed dir r n t) (howned : (r.getOwnedForTenant n t).isSome) :
    ∃ q, lib.LastFile dir n t (r.source n t) q := by
  cases h with
  | present path p q file owned same source => exact ⟨q, source ▸ file⟩
  | absent none_named owned source =>
    rw [owned] at howned
    cases howned

/-- After boot every agent has its file. -/
theorem backed_buildRegistry (lib : DocLib) (ord : MapOrder) (dir : Directory) (n t : String) :
    lib.Backed dir (lib.buildRegistry ord dir) n t := by
  cases lib.buildRegistry_loaded ord dir n t with
  | present path p wins owned source =>
    refine .present path p p ⟨wins.declared, wins.named, fun path' q' hq' => ?_⟩ owned rfl source
    exact wins.last path' (lib.mem_paths_of_declared hq') q' hq'
  | absent none_named owned source =>
    exact .absent (fun path q hq => none_named path (lib.mem_paths_of_declared hq) q hq)
      owned source

variable {q : DefPtr}

theorem LastFile.path_unique {dir : Directory} {n t path' : String} {q' : DefPtr}
    (h : lib.LastFile dir n t path q) (h' : lib.LastFile dir n t path' q') : path = path' :=
  le_antisymm (h'.last path q h.declared h.named) (h.last path' q' h'.declared h'.named)

/-- A file declares one agent. -/
theorem LastFile.agent_unique {dir : Directory} {n t n' t' : String} {q' : DefPtr}
    (h : lib.LastFile dir n t path q) (h' : lib.LastFile dir n' t' path q') : n = n' ∧ t = t' := by
  have heq : some q = some q' := h.declared.symm.trans h'.declared
  cases heq
  exact ⟨h.named.2.trans h'.named.2.symm, h.named.1.trans h'.named.1.symm⟩

theorem Named.congr {n t : String} (h : lib.Named n t p) (hpq : lib.heap q = lib.heap p) :
    lib.Named n t q := by
  rw [Named, Definitions.owner, Definitions.name, defs, hpq]
  exact h

variable {dir : Directory} {r : AgentRegistry} {n t : String}

/-- The agent whose file is written. The file was its own, or declared nothing. -/
theorem Backed.write_self (h : lib.Backed dir r n t) {target : String} {data : Bytes}
    (hread : lib.bootAgent target data = some q) (hnamed : lib.Named n t q)
    (hsame : lib.heap p = lib.heap q) (hsource : r.source n t ≠ "" → r.source n t = target)
    {r' : AgentRegistry} (howned' : r'.getOwnedForTenant n t = some p)
    (hsource' : r'.source n t = target) : lib.Backed (dir.write target data) r' n t := by
  have hdecl : lib.declared (dir.write target data) target = some q := by
    rw [DocLib.declared, Directory.read_write, if_pos rfl]
    exact hread
  refine .present target p q ⟨hdecl, hnamed, fun path' q' hq' hnamed' => ?_⟩ howned' hsame hsource'
  by_cases hpath : path' = target
  · exact le_of_eq hpath
  · -- another file declared the agent before, so that the file behind it is the target
    have hold : lib.declared dir path' = some q' := by
      rw [← hq']
      apply lib.declared_congr
      rw [Directory.read_write, if_neg hpath]
    cases h with
    | present path p₀ q₀ file owned same source =>
      have hne := lib.ne_empty_of_declared file.declared
      rw [← hsource (source ▸ hne), source]
      exact file.last path' q' hold hnamed'
    | absent none_named owned source => exact absurd hnamed' (none_named path' q' hold)

/-- An agent stays when a file is changed that neither declared it nor does now. -/
theorem Backed.other {dir' : Directory} {r' : AgentRegistry} (h : lib.Backed dir r n t)
    (target : String) (hread : ∀ path, path ≠ target → dir'.read path = dir.read path)
    (hbefore : ∀ q, lib.declared dir target = some q → ¬ lib.Named n t q)
    (hafter : ∀ q, lib.declared dir' target = some q → ¬ lib.Named n t q)
    (howned : r'.getOwnedForTenant n t = r.getOwnedForTenant n t)
    (hsource : r'.source n t = r.source n t) : lib.Backed dir' r' n t := by
  have hdecl : ∀ path, path ≠ target → lib.declared dir' path = lib.declared dir path :=
    fun path hpath => lib.declared_congr (hread path hpath)
  cases h with
  | present path p q file owned same source =>
    have hpath : path ≠ target := by
      rintro rfl
      exact hbefore q file.declared file.named
    refine .present path p q ⟨(hdecl path hpath).trans file.declared, file.named, ?_⟩
      (howned.trans owned) same (hsource.trans source)
    intro path' q' hq' hnamed
    by_cases hpath' : path' = target
    · subst hpath'
      exact absurd hnamed (hafter q' hq')
    · exact file.last path' q' ((hdecl path' hpath').symm.trans hq') hnamed
  | absent none_named owned source =>
    refine .absent (fun path q hq => ?_) (howned.trans owned) (hsource.trans source)
    by_cases hpath : path = target
    · subst hpath
      exact hafter q hq
    · exact none_named path q ((hdecl path hpath).symm.trans hq)

end MockAgents.DocLib
