import MockAgents.ForStd.Trace
import MockAgents.Server.AgentWriteHandlers
import MockAgents.Spec.BackedAgents

/-!
# Agents and their files

Every agent of a server that booted from a directory has a file behind it, and the write
API replaces and deletes that file with the agent. The file of a new agent is named after
the agent, though, without looking at what stands there; a file with the extension `.json`
is replaced by YAML; and a delete leaves the other files that declare the agent.
-/

namespace MockAgents

open DocLib (defs sampleDoc)
open Directory (read_remove read_write)
open Bytes (ofString)

/-! ## Requests -/

namespace WriteRequest

variable {lib : DocLib}

def agentName (req : WriteRequest lib) : Option String :=
  match req.method with
  | .create b => (lib.unmarshalAgent b.body).map AgentDocument.name
  | .put pathName _ => some pathName
  | .delete name => some name

/-- Where the document of a write is allocated. -/
def addr (req : WriteRequest lib) : Option DefPtr :=
  match req.method with
  | .create b => some b.addr
  | .put _ b => some b.addr
  | .delete _ => none

def isCreate (req : WriteRequest lib) : Bool :=
  match req.method with
  | .create _ => true
  | _ => false

end WriteRequest

namespace AgentHandlers

variable (h : AgentHandlers)

/-- No agent has its file where a new agent would be written. -/
def FreePath (st : AgentStore) (name tenantID : String) : Prop :=
  st.registry.source name tenantID = "" →
    ∀ path ∈ h.agentFilePath name tenantID, h.lib.declared st.dir path = none

/-- A request that keeps agents and files apart: a new agent's file is not the file of an
    agent, an updated agent's file is not JSON, and a deleted agent has no second file. -/
def SeparateBy (st : AgentStore) (tenantID : String) : WriteMethod h.lib tenantID → Prop
  | .create b => ∀ doc ∈ h.lib.unmarshalAgent b.body, h.FreePath st doc.name tenantID
  | .put name _ => h.FreePath st name tenantID ∧
      isJSON (st.registry.source name tenantID) = false
  | .delete name => ∀ path ∈ st.dir.paths, path ≠ st.registry.source name tenantID →
      ∀ q ∈ h.lib.declared st.dir path, ¬ h.lib.Named name tenantID q

/-- `SeparateBy` for a request. -/
def Separate (st : AgentStore) (req : WriteRequest h.lib) : Prop :=
  h.SeparateBy st req.tenantID req.method

instance (st : AgentStore) (name tenantID : String) : Decidable (h.FreePath st name tenantID) :=
  inferInstanceAs (Decidable (_ = "" → ∀ path ∈ h.agentFilePath name tenantID, _ = none))

instance (st : AgentStore) (tenantID : String) :
    (m : WriteMethod h.lib tenantID) → Decidable (h.SeparateBy st tenantID m)
  | .create _ => inferInstanceAs (Decidable (∀ doc ∈ _, FreePath _ _ _ _))
  | .put _ _ => inferInstanceAs (Decidable (_ ∧ _))
  | .delete _ => inferInstanceAs (Decidable (∀ path ∈ st.dir.paths, _ → ∀ q ∈ _, _))

instance (st : AgentStore) (req : WriteRequest h.lib) : Decidable (h.Separate st req) :=
  inferInstanceAs (Decidable (SeparateBy _ _ _ _))

/-- The request leaves the file of every agent that it is not about. -/
def Spares (st : AgentStore) (req : WriteRequest h.lib) : Prop :=
  ∀ n t, (st.registry.getOwnedForTenant n t).isSome →
    ¬ (req.agentName = some n ∧ req.tenantID = t) →
    (h.handle st req).1.dir.read (st.registry.source n t) =
      st.dir.read (st.registry.source n t)

/-- No two agents have one file, and the directory loads as the registry. -/
structure Consistent (st : AgentStore) : Prop where
  source_inj : ∀ n t n' t', (st.registry.getOwnedForTenant n t).isSome →
    (st.registry.getOwnedForTenant n' t').isSome →
    st.registry.source n t = st.registry.source n' t' → n = n' ∧ t = t'
  reload : ∀ ord n t,
    ((h.lib.buildRegistry ord st.dir).getOwnedForTenant n t).map h.lib.heap =
      (st.registry.getOwnedForTenant n t).map h.lib.heap

/-! ## The file of a new agent -/

theorem ext_yaml (s : String) : ext (s ++ ".yaml") = ".yaml".toList := by
  simp [ext]

theorem joinFile_append (dir file ending : String) :
    ∃ front, joinFile dir (file ++ ending) = front ++ ending := by
  unfold joinFile
  split
  · exact ⟨file, rfl⟩
  · split
    · exact ⟨"/" ++ file, by rw [String.append_assoc]⟩
    · exact ⟨dir ++ "/" ++ file, by simp [String.append_assoc]⟩

variable {h} {name tenantID path : String}

/-- A new agent's file is a YAML file. -/
theorem agentFilePath_yaml (hdir : h.agentsDir ≠ "")
    (hpath : h.agentFilePath name tenantID = some path) : ∃ front, path = front ++ ".yaml" := by
  rw [agentFilePath, if_neg hdir] at hpath
  simp only at hpath
  split at hpath
  · cases hpath
  · cases hpath
    exact joinFile_append _ _ _

theorem yaml_path (hpath : ∃ front, path = front ++ ".yaml") :
    path ≠ "" ∧ isDocumentPath path = true ∧ isJSON path = false := by
  obtain ⟨front, rfl⟩ := hpath
  refine ⟨fun hempty => ?_, ?_, ?_⟩
  · have hlist := congrArg String.toList hempty
    rw [String.toList_append] at hlist
    exact nomatch (List.append_eq_nil_iff.mp hlist).2
  · rw [isDocumentPath, ext_yaml]
    decide
  · rw [isJSON, ext_yaml]
    decide

/-! ## What a request does -/

variable {data : Bytes}

theorem decodeAgent_ok {wantName : String} {b : WriteBody h.lib tenantID} {doc : AgentDocument}
    (hok : h.decodeAgent b wantName = .ok (doc, data)) :
    h.lib.Canonical b.addr data ∧ h.lib.Named doc.name tenantID b.addr ∧
      (h.lib.unmarshalAgent b.body).map AgentDocument.name = some doc.name ∧
      (wantName ≠ "" → doc.name = wantName) := by
  revert hok
  fun_cases decodeAgent h b wantName <;> intro hok <;> try cases hok
  rename_i raw hraw _ hwant _ _ _ hmarshal _ hkind herrors
  obtain ⟨rfl, rfl⟩ := Prod.mk.inj (Except.ok.inj hok)
  have hplaced := b.placed raw hraw
  refine ⟨⟨by rw [hplaced, hmarshal], by rw [hplaced, applyDefaults_applyDefaults],
    Decidable.or_iff_not_not_and_not.mpr hkind, Decidable.not_not.mp herrors⟩, ?_, ?_, ?_⟩
  · constructor
    · rw [Definitions.owner, defs, hplaced]
      rfl
    · rw [Definitions.name, defs, hplaced]
      rfl
  · rw [hraw]
    rfl
  · intro hne
    exact Decidable.not_not.mp fun hdiff => hwant ⟨hne, hdiff⟩

inductive Effect (h : AgentHandlers) (st : AgentStore) (req : WriteRequest h.lib) :
    AgentStore → Prop where
  | unchanged : Effect h st req st
  | written (name target : String) (data : Bytes) (p : DefPtr)
      (asked : req.agentName = some name) (addr : req.addr = some p)
      (canonical : h.lib.Canonical p data) (named : h.lib.Named name req.tenantID p)
      (fresh : req.isCreate = true → st.registry.getOwnedForTenant name req.tenantID = none)
      (resolved : h.resolveAgentTarget st name req.tenantID = some target) :
      Effect h st req ⟨st.dir.write target data,
        st.registry.registerWithSource h.lib.defs req.ord target (some p)⟩
  | deleted (name target : String) (asked : req.agentName = some name) (no_addr : req.addr = none)
      (owned : (st.registry.getOwnedForTenant name req.tenantID).isSome)
      (resolved : target = h.deleteTarget st name req.tenantID) :
      Effect h st req ⟨if target ≠ "" ∧ (st.dir.read target).isSome then st.dir.remove target
        else st.dir, (st.registry.removeForTenant h.lib.defs req.ord name req.tenantID).1⟩

theorem resolveAgentTarget_eq {st : AgentStore} {target : String} (hdir : h.agentsDir ≠ "")
    (hres : h.resolveAgentTarget st name tenantID = some target) :
    (st.registry.source name tenantID ≠ "" ∧ target = st.registry.source name tenantID) ∨
      (st.registry.source name tenantID = "" ∧ h.agentFilePath name tenantID = some target) := by
  revert hres
  fun_cases resolveAgentTarget h st name tenantID <;> intro hres
  · exact absurd ‹_› hdir
  · cases hres
    exact .inl ⟨‹_›, rfl⟩
  · rename_i hsource
    exact .inr ⟨Decidable.not_not.mp hsource, hres⟩

variable {ord : MapOrder} {p : DefPtr}

theorem persistAndRegister_eq {st st' : AgentStore} {fsFails persisted : Bool} {file : String}
    (hdir : h.agentsDir ≠ "")
    (hp : h.persistAndRegister st ord fsFails p name tenantID data = some (st', file, persisted)) :
    ∃ target, h.resolveAgentTarget st name tenantID = some target ∧
      st' = ⟨st.dir.write target data,
        st.registry.registerWithSource h.lib.defs ord target (some p)⟩ := by
  revert hp
  fun_cases persistAndRegister h st ord fsFails p name tenantID data <;> intro hp <;> cases hp
  · rename_i htarget
    rcases resolveAgentTarget_eq hdir htarget with ⟨hsource, hempty⟩ | ⟨-, hpath⟩
    · exact absurd hempty.symm hsource
    · exact absurd rfl (yaml_path (agentFilePath_yaml hdir hpath)).1
  · exact ⟨_, ‹_›, rfl⟩

/-- Every request has one of these effects. -/
theorem handle_effect (hdir : h.agentsDir ≠ "") (st : AgentStore) (req : WriteRequest h.lib) :
    Effect h st req (h.handle st req).1 := by
  obtain ⟨tenantID, method, ord, fsFails⟩ := req
  cases method with
  | create b =>
    show Effect h st _ (h.createAgent st ord fsFails b).1
    fun_cases createAgent h st ord fsFails b <;> try exact .unchanged
    rename_i doc data hdec hfresh st' file persisted hp
    obtain ⟨hcanon, hnamed, hasked, -⟩ := decodeAgent_ok hdec
    obtain ⟨target, htarget, rfl⟩ := persistAndRegister_eq hdir hp
    exact .written doc.name target data b.addr hasked rfl hcanon hnamed
      (fun _ => by simpa using hfresh) htarget
  | put pathName b =>
    show Effect h st _ (h.putAgent st ord fsFails pathName b).1
    fun_cases putAgent h st ord fsFails pathName b <;> try exact .unchanged
    rename_i hsafe doc data hdec _ st' file persisted hp
    obtain ⟨hcanon, hnamed, -, hname⟩ := decodeAgent_ok hdec
    have hne : pathName ≠ "" := by
      rintro rfl
      exact absurd (by decide) hsafe
    obtain ⟨target, htarget, rfl⟩ := persistAndRegister_eq hdir hp
    exact .written doc.name target data b.addr (by rw [hname hne]; rfl) rfl hcanon hnamed
      (fun hcreate => nomatch hcreate) htarget
  | delete name =>
    show Effect h st _ (h.deleteAgent st ord fsFails tenantID name).1
    fun_cases deleteAgent h st ord fsFails tenantID name <;> try exact .unchanged
    rename_i howned _ _ _
    exact .deleted name _ rfl rfl (Option.isSome_iff_ne_none.mpr (by simpa using howned)) rfl

/-! ## One request -/

/-- Every agent has its file. -/
def Inv (h : AgentHandlers) (st : AgentStore) : Prop :=
  ∀ n t, h.lib.Backed st.dir st.registry n t

variable {st : AgentStore} {req : WriteRequest h.lib}

/-- What is known of the target of a write that keeps agents and files apart. -/
structure Target (h : AgentHandlers) (st : AgentStore) (name tenantID target : String) :
    Prop where
  ne_empty : target ≠ ""
  isDocumentPath : isDocumentPath target = true
  isJSON : isJSON target = false
  source : st.registry.source name tenantID ≠ "" → st.registry.source name tenantID = target
  declared : ∀ q, h.lib.declared st.dir target = some q → h.lib.Named name tenantID q

variable {q : DefPtr}

theorem isDocumentPath_of_declared {lib : DocLib} {dir : Directory}
    (hq : lib.declared dir path = some q) : isDocumentPath path = true := by
  obtain ⟨data, -, hboot⟩ := Option.bind_eq_some_iff.mp hq
  unfold DocLib.bootAgent at hboot
  split at hboot
  · rename_i hpath
    exact hpath
  · cases hboot

theorem Inv.target (hinv : Inv h st) (hdir : h.agentsDir ≠ "") {name tenantID target : String}
    (hres : h.resolveAgentTarget st name tenantID = some target)
    (hfree : h.FreePath st name tenantID)
    (hjson : isJSON (st.registry.source name tenantID) = false) :
    Target h st name tenantID target := by
  rcases resolveAgentTarget_eq hdir hres with ⟨hsource, rfl⟩ | ⟨hsource, hpath⟩
  · cases hinv name tenantID with
    | present path p q file owned same source =>
      rw [source]
      rw [source] at hsource hjson
      refine ⟨hsource, isDocumentPath_of_declared file.declared, hjson, fun _ => source, ?_⟩
      intro q' hq'
      rw [file.declared] at hq'
      cases hq'
      exact file.named
    | absent none_named owned source => exact absurd source hsource
  · obtain ⟨hne, hdoc, hyaml⟩ := yaml_path (agentFilePath_yaml hdir hpath)
    refine ⟨hne, hdoc, hyaml, fun hs => absurd hsource hs, fun q hq => ?_⟩
    rw [hfree hsource target hpath] at hq
    cases hq

theorem Inv.target_of_separate (hinv : Inv h st) (hdir : h.agentsDir ≠ "")
    (hsep : h.Separate st req) {target : String} (hasked : req.agentName = some name)
    (haddr : req.addr = some p)
    (hfresh : req.isCreate = true → st.registry.getOwnedForTenant name req.tenantID = none)
    (hres : h.resolveAgentTarget st name req.tenantID = some target) :
    Target h st name req.tenantID target := by
  obtain ⟨tenantID, method, ord, fsFails⟩ := req
  cases method with
  | create b =>
    obtain ⟨doc, hdoc, rfl⟩ := Option.map_eq_some_iff.mp hasked
    refine hinv.target hdir hres (hsep doc hdoc) ?_
    -- a new agent has no source
    cases hinv doc.name tenantID with
    | present path p q file owned same source =>
      have hnone := hfresh rfl
      rw [owned] at hnone
      cases hnone
    | absent none_named owned source =>
      show isJSON (st.registry.source doc.name tenantID) = false
      rw [source]
      rfl
  | put pathName b =>
    cases hasked
    exact hinv.target hdir hres hsep.1 hsep.2
  | delete name' => cases haddr

theorem Inv.written (hinv : Inv h st) {name tenantID target : String} {data : Bytes}
    {p : DefPtr} {ord : MapOrder} (htarget : Target h st name tenantID target)
    (hcanon : h.lib.Canonical p data) (hyaml : h.lib.ReadsBack (h.lib.heap p))
    (hnamed : h.lib.Named name tenantID p) :
    Inv h ⟨st.dir.write target data,
      st.registry.registerWithSource h.lib.defs ord target (some p)⟩ := by
  obtain ⟨q, hread, hheap⟩ :=
    hcanon.bootAgent h.lib hyaml htarget.isDocumentPath htarget.isJSON
  have hnamed' := hnamed.congr hheap
  intro n t
  have howned := h.lib.registerWithSource_owned ord st.registry target p n t
  have hsource := h.lib.registerWithSource_source ord st.registry htarget.ne_empty p n t
  by_cases hkey : h.lib.Named n t p
  · rw [if_pos hkey] at howned hsource
    have hn : n = name := hkey.2.trans hnamed.2.symm
    have ht : t = tenantID := hkey.1.trans hnamed.1.symm
    subst hn ht
    exact (hinv n t).write_self hread hnamed' hheap.symm htarget.source howned hsource
  · rw [if_neg hkey] at howned hsource
    -- the target declared at most the agent that is written, and declares it now
    have hother : ∀ q', h.lib.Named name tenantID q' → ¬ h.lib.Named n t q' := by
      intro q' hq' hn
      refine hkey ⟨?_, ?_⟩
      · rw [hn.1, ← hq'.1, hnamed.1]
      · rw [hn.2, ← hq'.2, hnamed.2]
    refine (hinv n t).other target (fun path hpath => ?_)
      (fun q' hq' => hother q' (htarget.declared q' hq')) (fun q' hq' => ?_) howned hsource
    · rw [read_write, if_neg hpath]
    · rw [DocLib.declared, read_write, if_pos rfl] at hq'
      have heq : some q = some q' := hread.symm.trans hq'
      cases heq
      exact hother q hnamed'

theorem Inv.deleteTarget (hinv : Inv h st)
    (howned : (st.registry.getOwnedForTenant name tenantID).isSome) :
    ∃ q, h.lib.LastFile st.dir name tenantID (h.deleteTarget st name tenantID) q ∧
      st.registry.source name tenantID = h.deleteTarget st name tenantID := by
  obtain ⟨q, file⟩ := (hinv name tenantID).file_of_owned howned
  have hne := h.lib.ne_empty_of_declared file.declared
  have htarget : h.deleteTarget st name tenantID = st.registry.source name tenantID := by
    rw [AgentHandlers.deleteTarget, if_pos hne]
  exact ⟨q, htarget ▸ file, htarget.symm⟩

theorem Inv.deleted (hinv : Inv h st) {target : String}
    (howned : (st.registry.getOwnedForTenant name tenantID).isSome)
    (hfile : h.lib.LastFile st.dir name tenantID target q)
    (hsole : ∀ path, path ≠ target → ∀ q', h.lib.declared st.dir path = some q' →
      ¬ h.lib.Named name tenantID q') :
    Inv h ⟨st.dir.remove target,
      (st.registry.removeForTenant h.lib.defs ord name tenantID).1⟩ := by
  obtain ⟨p, hp⟩ := Option.isSome_iff_exists.mp howned
  have hgone : ∀ q', ¬ h.lib.declared (st.dir.remove target) target = some q' := by
    intro q' hq'
    rw [DocLib.declared, read_remove, if_pos rfl] at hq'
    cases hq'
  have hread : ∀ path, path ≠ target →
      (st.dir.remove target).read path = st.dir.read path := by
    intro path hpath
    rw [read_remove, if_neg hpath]
  intro n t
  have howned' := AgentRegistry.removeForTenant_owned h.lib.defs ord st.registry name tenantID n t
  have hsource' :=
    AgentRegistry.removeForTenant_source h.lib.defs ord st.registry name tenantID hp n t
  by_cases hkey : t = tenantID ∧ n = name
  · rw [if_pos hkey] at howned' hsource'
    obtain ⟨rfl, rfl⟩ := hkey
    -- the file is gone, and no other file declares the agent
    refine .absent (fun path q' hq' => ?_) howned' hsource'
    by_cases hpath : path = target
    · subst hpath
      exact absurd hq' (hgone q')
    · rw [h.lib.declared_congr (hread path hpath)] at hq'
      exact hsole path hpath q' hq'
  · rw [if_neg hkey] at howned' hsource'
    refine (hinv n t).other target hread (fun q' hq' hn => ?_)
      (fun q' hq' => absurd hq' (hgone q')) howned' hsource'
    rw [hfile.declared] at hq'
    cases hq'
    exact hkey ⟨hn.1.trans hfile.named.1.symm, hn.2.trans hfile.named.2.symm⟩

/-- An agent that is deleted by a request that keeps agents and files apart has one file. -/
theorem sole_of_separate (hsep : h.Separate st req) (hasked : req.agentName = some name)
    (haddr : req.addr = none) (hpath : path ≠ st.registry.source name req.tenantID)
    (hq : h.lib.declared st.dir path = some q) : ¬ h.lib.Named name req.tenantID q := by
  obtain ⟨tenantID, method, ord, fsFails⟩ := req
  cases method with
  | create b => cases haddr
  | put pathName b => cases haddr
  | delete name' =>
    cases hasked
    exact hsep path (h.lib.mem_paths_of_declared hq) hpath q hq

variable {n t : String}

theorem Inv.read_source (hinv : Inv h st) {target : String} {dir' : Directory}
    (hread : ∀ path, path ≠ target → dir'.read path = st.dir.read path)
    (htarget : ∀ q, h.lib.declared st.dir target = some q → h.lib.Named name tenantID q)
    (howned : (st.registry.getOwnedForTenant n t).isSome) (hkey : ¬ (n = name ∧ t = tenantID)) :
    dir'.read (st.registry.source n t) = st.dir.read (st.registry.source n t) := by
  apply hread
  rintro heq
  obtain ⟨q, file⟩ := (hinv n t).file_of_owned howned
  have hnamed := htarget q (heq ▸ file.declared)
  exact hkey ⟨file.named.2.trans hnamed.2.symm, file.named.1.trans hnamed.1.symm⟩

/-- A request that keeps agents and files apart spares the other agents' files, and leaves
    every agent with its file. -/
theorem Inv.handle (hinv : Inv h st) (hdir : h.agentsDir ≠ "") (hsep : h.Separate st req)
    (hyaml : ∀ p ∈ req.addr, h.lib.ReadsBack (h.lib.heap p)) :
    h.Spares st req ∧ Inv h (h.handle st req).1 := by
  have heffect := handle_effect hdir st req
  unfold Spares
  cases hst : (h.handle st req).1 with | mk dir' r'
  rw [hst] at heffect
  cases heffect with
  | unchanged => exact ⟨fun _ _ _ _ => rfl, hinv⟩
  | written name target data p asked addr canonical named fresh resolved =>
    have htarget := hinv.target_of_separate hdir hsep asked addr fresh resolved
    refine ⟨fun n t howned hkey => ?_, hinv.written htarget canonical (hyaml p addr) named⟩
    refine hinv.read_source (fun path hpath => ?_) htarget.declared howned
      (fun hk => hkey ⟨by rw [asked, hk.1], hk.2.symm⟩)
    show (st.dir.write target data).read path = _
    rw [read_write, if_neg hpath]
  | deleted name target asked no_addr owned resolved =>
    subst resolved
    obtain ⟨q, file, hsource⟩ := hinv.deleteTarget owned
    obtain ⟨data, hdata, -⟩ := Option.bind_eq_some_iff.mp file.declared
    have hthere : h.deleteTarget st name req.tenantID ≠ "" ∧
        (st.dir.read (h.deleteTarget st name req.tenantID)).isSome :=
      ⟨h.lib.ne_empty_of_declared file.declared, by rw [hdata]; rfl⟩
    rw [if_pos hthere]
    have htarget : ∀ q', h.lib.declared st.dir (h.deleteTarget st name req.tenantID) = some q' →
        h.lib.Named name req.tenantID q' := by
      intro q' hq'
      rw [file.declared] at hq'
      cases hq'
      exact file.named
    refine ⟨fun n t howned hkey => ?_, hinv.deleted owned file fun path hpath q' hq' =>
      sole_of_separate hsep asked no_addr (hsource ▸ hpath) hq'⟩
    refine hinv.read_source (fun path hpath => ?_) htarget howned
      (fun hk => hkey ⟨by rw [asked, hk.1], hk.2.symm⟩)
    show (st.dir.remove _).read path = _
    rw [read_remove, if_neg hpath]

/-! ## Runs -/

theorem Inv.consistent (hinv : Inv h st) : h.Consistent st := by
  constructor
  · intro n t n' t' howned howned' hsource
    obtain ⟨q, file⟩ := (hinv n t).file_of_owned howned
    obtain ⟨q', file'⟩ := (hinv n' t').file_of_owned howned'
    exact file.agent_unique (hsource ▸ file')
  · intro ord n t
    -- what is loaded is the last file, which is also the one behind the agent
    cases h.lib.backed_buildRegistry ord st.dir n t with
    | present path p q file owned same source =>
      cases hinv n t with
      | present path' p' q' file' owned' same' source' =>
        have hpath := file.path_unique file'
        subst hpath
        have heq : some q = some q' := file.declared.symm.trans file'.declared
        cases heq
        rw [owned, owned', Option.map_some, Option.map_some, same, same']
      | absent none_named owned' source' =>
        exact absurd file.named (none_named path q file.declared)
    | absent none_named owned source =>
      cases hinv n t with
      | present path' p' q' file' owned' same' source' =>
        exact absurd file'.named (none_named path' q' file'.declared)
      | absent _ owned' _ => rw [owned, owned']

/-- In every run of requests from boot that keep agents and files apart, no request touches
    the file of an agent that it is not about, no two agents have one file, and the
    directory loads as the registry. -/
theorem files_separate (h : AgentHandlers) (hdir : h.agentsDir ≠ "") (ord : MapOrder)
    (dir : Directory) (reqs : List (WriteRequest h.lib))
    (hyaml : ∀ req ∈ reqs, ∀ p ∈ req.addr, h.lib.ReadsBack (h.lib.heap p))
    (hsep : EveryStep h.handle h.Separate (h.boot ord dir) reqs) :
    EveryStep h.handle h.Spares (h.boot ord dir) reqs ∧
      h.Consistent (after h.handle (h.boot ord dir) reqs) := by
  have hboot : Inv h (h.boot ord dir) := h.lib.backed_buildRegistry ord dir
  have hsteps := hsep.and_of_forall hyaml
  constructor
  · exact hsteps.imp (Inv h) (fun _ _ hop hinv => hinv.handle hdir hop.2 hop.1) hboot
  · exact Inv.consistent <| hsteps.inv_after (Inv h)
      (fun _ _ hop hinv => (hinv.handle hdir hop.2 hop.1).2) hboot

/-! ## A directory with a file named after another agent -/

def barJSON : Bytes := ofString "\x7b\"name\":\"bar\"\x7d"

/-- Documents of the agents `foo` and `bar`, and of an agent `echo` for the tenants `a.b` and
    `a_b`. -/
def sampleTable : List (Bytes × AgentDocument) :=
  [(ofString "name: foo", sampleDoc "foo" ""),
    (ofString "name: bar", sampleDoc "bar" ""),
    (ofString "name: echo, tenant_id: a.b", sampleDoc "echo" "a.b"),
    (ofString "name: echo, tenant_id: a_b", sampleDoc "echo" "a_b"),
    (barJSON, sampleDoc "bar" "")]

/-- A server with these documents. -/
def sampleHandlers : AgentHandlers where
  lib := .ofTable sampleTable
  agentsDir := "agents"
  absDir := "/srv/agents"
  quote s := s

def sampleBody (text : String) (doc : AgentDocument) (addr : DefPtr) (tenantID : String)
    (hread : sampleHandlers.lib.unmarshalAgent (ofString text) = some doc)
    (hplaced : sampleHandlers.lib.heap addr = applyDefaults (doc.ownedBy tenantID)) :
    WriteBody sampleHandlers.lib tenantID where
  body := ofString text
  addr := addr
  placed doc' h := by
    have heq : some doc = some doc' := hread.symm.trans h
    cases heq
    exact hplaced

def createFoo : WriteRequest sampleHandlers.lib where
  tenantID := ""
  method := .create (sampleBody "name: foo" (sampleDoc "foo" "") 0 "" rfl rfl)

def putBar : WriteRequest sampleHandlers.lib where
  tenantID := ""
  method := .put "bar" (sampleBody "name: bar" (sampleDoc "bar" "") 1 "" rfl rfl)

def deleteFoo : WriteRequest sampleHandlers.lib where
  tenantID := ""
  method := .delete "foo"

def createEchos : List (WriteRequest sampleHandlers.lib) :=
  [{ tenantID := "a.b"
     method := .create (sampleBody "name: echo, tenant_id: a.b" (sampleDoc "echo" "a.b") 2
      "a.b" rfl rfl) },
    { tenantID := "a_b"
      method := .create (sampleBody "name: echo, tenant_id: a_b" (sampleDoc "echo" "a_b") 3
        "a_b" rfl rfl) }]

/-- The server has booted from a directory with one file, which declares `bar`. -/
def bootFrom (path : String) (data : Bytes) : AgentStore :=
  sampleHandlers.boot .stored (Directory.empty.write path data)

/-- `bar` stands in a file of its own name. -/
def overBar : AgentStore := bootFrom "agents/bar.yaml" (ofString "name: bar")

/-- `bar` stands in a file that is named after `foo`. -/
def overFoo : AgentStore := bootFrom "agents/foo.yaml" (ofString "name: bar")

/-- `bar` stands in a JSON file. -/
def overJSON : AgentStore := bootFrom "agents/bar.json" barJSON

theorem sample_readsBack (text : String) (p : DefPtr)
    (hmarshal : sampleHandlers.lib.marshal (sampleHandlers.lib.heap p) = some (ofString text))
    (hjson : Json.valid (ofString text) = false)
    (hnode : sampleHandlers.lib.unmarshal (ofString text) = some p)
    (hdecode : sampleHandlers.lib.decode p = some (sampleHandlers.lib.heap p)) :
    sampleHandlers.lib.ReadsBack (sampleHandlers.lib.heap p) := by
  intro data h
  have heq : some (ofString text) = some data := hmarshal.symm.trans h
  cases heq
  exact ⟨hjson, p, hnode, hdecode⟩

/-- With `bar` in `bar.yaml`, `foo` may be created and deleted, and `bar` replaced. -/
theorem sampleRun_separate :
    EveryStep sampleHandlers.handle sampleHandlers.Spares overBar
        [createFoo, putBar, deleteFoo] ∧
      sampleHandlers.Consistent (after sampleHandlers.handle overBar
        [createFoo, putBar, deleteFoo]) := by
  refine files_separate sampleHandlers (by decide) .stored _ _ ?_ (by decide)
  have hfoo := sample_readsBack "name: foo" 0 rfl (by decide) rfl rfl
  have hbar := sample_readsBack "name: bar" 1 rfl (by decide) rfl rfl
  intro req hreq p hp
  simp only [List.mem_cons, List.not_mem_nil, or_false] at hreq
  rcases hreq with rfl | rfl | rfl
  · cases hp
    exact hfoo
  · cases hp
    exact hbar
  · cases hp

/-- An agent that is registered and is not found when the directory is loaded again. -/
def lost (st : AgentStore) (n t : String) : Bool :=
  (st.registry.getOwnedForTenant n t).isSome &&
    ((sampleHandlers.lib.buildRegistry .stored st.dir).getOwnedForTenant n t).isNone

theorem not_consistent_of_lost {st : AgentStore} (h : lost st n t = true) :
    ¬ sampleHandlers.Consistent st := by
  intro hcons
  obtain ⟨howned, hnone⟩ := Bool.and_eq_true_iff.mp h
  obtain ⟨p, hp⟩ := Option.isSome_iff_exists.mp howned
  have hreload := hcons.reload .stored n t
  rw [Option.isNone_iff_eq_none.mp hnone, hp] at hreload
  cases hreload

/-- Creating `foo` overwrites `foo.yaml`, the file of `bar`. The tenants `a.b` and `a_b` get
    one file for their agents `echo`. An update of `bar` makes `bar.json` unreadable. Every
    request succeeds. -/
theorem createdOverFile_not_separate :
    ((sampleHandlers.handle overFoo createFoo).2.isSuccess = true ∧
      ¬ sampleHandlers.Spares overFoo createFoo ∧
      ¬ sampleHandlers.Consistent (after sampleHandlers.handle overFoo [createFoo])) ∧
    ((trace sampleHandlers.handle overBar createEchos).map (fun e => e.2.isSuccess) =
        [true, true] ∧
      ¬ sampleHandlers.Consistent (after sampleHandlers.handle overBar createEchos)) ∧
    (sampleHandlers.handle overJSON putBar).2.isSuccess = true ∧
      ¬ sampleHandlers.Consistent (after sampleHandlers.handle overJSON [putBar]) := by
  have hspares : ¬ sampleHandlers.Spares overFoo createFoo := by
    intro h
    have hread := h "bar" "" (by decide +kernel) (by decide +kernel)
    exact absurd hread (by decide +kernel)
  have hfoo : lost (after sampleHandlers.handle overFoo [createFoo]) "bar" "" = true := by
    decide +kernel
  have hecho : lost (after sampleHandlers.handle overBar createEchos) "echo" "a.b" = true := by
    decide +kernel
  have hjson : lost (after sampleHandlers.handle overJSON [putBar]) "bar" "" = true := by
    decide +kernel
  exact ⟨⟨by decide +kernel, hspares, not_consistent_of_lost hfoo⟩,
    ⟨by decide +kernel, not_consistent_of_lost hecho⟩, by decide +kernel,
    not_consistent_of_lost hjson⟩

end AgentHandlers

end MockAgents
