import MockAgents.Server.PipelineHandlers

/-!
# Edits of pipelines and their versions

A `GET` takes the definition from the registry and the version, in a later step, from the file.
If the two are not of one content, because a `PUT` came between, or because someone edited the
file and the registry does not know, then a client that sends the version back overwrites a
definition that it has not seen. An edit of the file between the version check of a `PUT` and
its write is overwritten as well.

In every run in which the version of each `GET` is computed from the definition that it returns,
and no file is edited between the check of a `PUT` of its pipeline and the write, a `PUT` that
succeeds with the version of a `GET` has replaced the definition that this `GET` returned.
-/

namespace MockAgents

open Option (bind_eq_some_iff map_eq_some_iff)

/-! ## Versions as headers -/

theorem trimQuotes_quoted {v : Bytes} (h : 34 ∉ v) : trimQuotes (quoted v) = v := by
  have hdrop : ∀ {u : Bytes}, 34 ∉ u → u.dropWhile (· = 34) = u := by
    intro u hu
    cases u with
    | nil => rfl
    | cons b u =>
      have hb : b ≠ 34 := fun hb => hu (hb ▸ List.mem_cons_self ..)
      simp [hb]
  cases v with
  | nil => rfl
  | cons b v =>
    have hb : b ≠ 34 := fun hb => h (hb ▸ List.mem_cons_self ..)
    have hrev : 34 ∉ (b :: v).reverse := fun hmem => h (List.mem_reverse.mp hmem)
    have hfront : (quoted (b :: v)).dropWhile (· = 34) = b :: v ++ [34] := by
      simp [quoted, hb]
    rw [trimQuotes, hfront, List.reverse_append, List.reverse_singleton, List.singleton_append,
      List.dropWhile_cons_of_pos (by simp), hdrop hrev, List.reverse_reverse]

theorem quote_not_mem_hexEncode (b : Bytes) : 34 ∉ Bytes.hexEncode b := by
  have hdigit : ∀ n : Fin 16, Bytes.hexDigit n ≠ 34 := by decide
  intro h
  obtain ⟨x, _, hx⟩ := List.mem_flatMap.mp h
  have hlt := x.toNat_lt
  simp only [List.mem_cons, List.not_mem_nil, or_false] at hx
  rcases hx with hx | hx
  · exact hdigit ⟨x.toNat / 16, by omega⟩ hx.symm
  · exact hdigit ⟨x.toNat % 16, by omega⟩ hx.symm

namespace PipelineLib

variable {δ : Type} {lib : PipelineLib δ}

theorem hashHex_inj (hsha : Function.Injective lib.sha256) {a b : Bytes}
    (h : lib.hashHex a = lib.hashHex b) : a = b :=
  hsha (Bytes.hexEncode_injective h)

theorem trimQuotes_hashHex (data : Bytes) :
    trimQuotes (quoted (lib.hashHex data)) = lib.hashHex data :=
  trimQuotes_quoted (quote_not_mem_hexEncode _)

/-- A definition that is written to a file is read from it. -/
def ReadsBack (lib : PipelineLib δ) : Prop :=
  ∀ d text, lib.marshal d = some text → lib.parse text = some d

end PipelineLib

namespace PutPc

variable {δ : Type}

/-- The request holds the lock. -/
def critical : PutPc δ → Bool
  | .sourcing _ | .reading .. | .hashing _ | .comparing .. | .resolving _ | .writing ..
  | .registering .. => true
  | .validating | .locking _ | .saved _ | .invalid | .refused .. => false

/-- The request has read the file, or found that there is none, and not written it yet. -/
def checked : PutPc δ → Bool
  | .hashing _ | .comparing .. | .resolving _ | .writing .. => true
  | .validating | .locking _ | .sourcing _ | .reading .. | .registering .. | .saved _ | .invalid
  | .refused .. => false

/-- What was stored before the write, if there was one. -/
def before : PutPc δ → Option (Option δ)
  | .registering _ _ before | .saved before => some before
  | _ => none

end PutPc

namespace PipelineSystem

variable {δ : Type} (lib : PipelineLib δ)

/-- A `GET` that computes its version now computes it from the definition that it returns. -/
def HashesOwn (s : PipelineSystem δ) (c : GetCall δ) : Prop :=
  match c.pc with
  | .reading d src => ∀ data ∈ s.files.read src, lib.parse data = some d
  | .hashing d => ∀ d' ∈ s.registry.getPipeline c.name, d' = d
  | _ => True

/-- The condition on a step. The version of a `GET` is computed from the definition that it
    returns; and an edit is not of the source of a pipeline that a `PUT` has checked and not yet
    written. -/
def Seen (s : PipelineSystem δ) : PipelineEvent → Prop
  | .advanceGet i => ∀ c ∈ s.gets[i]?, s.HashesOwn lib c
  | .edit path _ => ∀ c ∈ s.puts, c.pc.checked = true → s.registry.source c.name ≠ path
  | _ => True

instance [DecidableEq δ] (s : PipelineSystem δ) (c : GetCall δ) : Decidable (s.HashesOwn lib c) :=
  match h : c.pc with
  | .reading d src =>
    decidable_of_iff (∀ data ∈ s.files.read src, lib.parse data = some d) (by rw [HashesOwn, h])
  | .hashing d =>
    decidable_of_iff (∀ d' ∈ s.registry.getPipeline c.name, d' = d) (by rw [HashesOwn, h])
  | .looking | .sourcing _ | .answered _ _ | .notFound => isTrue (by simp [HashesOwn, h])

instance [DecidableEq δ] (s : PipelineSystem δ) (ev : PipelineEvent) : Decidable (s.Seen lib ev) :=
  match ev with
  | .advanceGet i => inferInstanceAs (Decidable (∀ c ∈ s.gets[i]?, _))
  | .edit _ _ => inferInstanceAs (Decidable (∀ c ∈ s.puts, _ → _))
  | .get _ | .put .. | .advancePut _ => isTrue trivial

/-! ## Invariants -/

/-- What a `PUT` knows about the file and the registry. -/
def Knows (s : PipelineSystem δ) (c : PutCall δ) : Prop :=
  match c.pc with
  | .reading _ src => s.registry.source c.name = src ∧ src ≠ ""
  | .hashing _ => s.sourceFile c.name = none
  | .comparing _ current =>
    current = [] ∨ ∃ text, current = lib.hashHex text ∧ s.stored lib c.name = lib.parse text
  | .resolving _ | .writing .. =>
    ∃ text, trimQuotes c.ifMatch = lib.hashHex text ∧ s.stored lib c.name = lib.parse text
  | _ => True

/-- The state between steps. -/
structure Sound (s : PipelineSystem δ) : Prop where
  /-- A `GET` returned what its version was computed from. -/
  answered : ∀ c ∈ s.gets, ∀ d etag, c.pc = .answered d (some etag) →
    ∃ text, etag = quoted (lib.hashHex text) ∧ lib.parse text = some d
  locked : ∀ (i : Nat) (c : PutCall δ), s.puts[i]? = some c → c.pc.critical = true →
    s.writeMu = some i
  knows : ∀ (i : Nat) (c : PutCall δ), s.puts[i]? = some c → s.Knows lib c
  /-- A `PUT` replaced what its `If-Match` was computed from. -/
  replaced : ∀ c ∈ s.puts, ∀ before, c.pc.before = some before →
    ∃ text, trimQuotes c.ifMatch = lib.hashHex text ∧ before = lib.parse text

variable {lib} {s : PipelineSystem δ} {c : PutCall δ}

theorem knows_of_not_critical (h : c.pc.critical = false) : s.Knows lib c := by
  cases hpc : c.pc <;> simp_all [Knows, PutPc.critical]

variable {s' : PipelineSystem δ}

/-- What a `PUT` knows depends on the registry and on the source file. -/
theorem Knows.congr (h : s.Knows lib c) (hregistry : s'.registry = s.registry)
    (hfile : c.pc.checked = true → s'.sourceFile c.name = s.sourceFile c.name) :
    s'.Knows lib c := by
  have hstored : c.pc.checked = true → s'.stored lib c.name = s.stored lib c.name := fun hc => by
    rw [stored, stored, hfile hc, hregistry]
  rw [Knows] at h ⊢
  cases hpc : c.pc <;> simp_all [PutPc.checked]

/-! ## Steps of a `PUT` -/

variable {i : Nat}

/-- A `PUT` moves. If the files or the registry change, it holds the lock. -/
theorem Sound.setPut (h : s.Sound lib) {c' : PutCall δ} (hputs : s'.puts = s.puts.set i c')
    (hgets : s'.gets = s.gets)
    (hquiet : s.writeMu = some i ∨ (s'.registry = s.registry ∧ s'.files = s.files))
    (hlock : s.writeMu = some i ∨ s.writeMu = none ∨ s'.writeMu = s.writeMu)
    (hcritical : c'.pc.critical = true → s'.writeMu = some i) (hknows : s'.Knows lib c')
    (hreplaced : ∀ before, c'.pc.before = some before →
      ∃ text, trimQuotes c'.ifMatch = lib.hashHex text ∧ before = lib.parse text) :
    s'.Sound lib := by
  refine ⟨by rw [hgets]; exact h.answered, fun j e he hcrit => ?_, fun j e he => ?_, ?_⟩
  · rw [hputs] at he
    rcases List.getElem?_set_cases he with ⟨rfl, rfl⟩ | ⟨hne, he⟩
    · exact hcritical hcrit
    · have hj := h.locked j e he hcrit
      rcases hlock with hi | hnone | hsame
      · exact absurd (Option.some.inj (hj.symm.trans hi)) hne
      · exact nomatch hj.symm.trans hnone
      · exact hsame.trans hj
  · rw [hputs] at he
    rcases List.getElem?_set_cases he with ⟨rfl, rfl⟩ | ⟨hne, he⟩
    · exact hknows
    · by_cases hcrit : e.pc.critical = true
      · rcases hquiet with hi | ⟨hregistry, hfiles⟩
        · exact absurd (Option.some.inj ((h.locked j e he hcrit).symm.trans hi)) hne
        · refine (h.knows j e he).congr hregistry fun _ => ?_
          rw [sourceFile, sourceFile, hregistry, hfiles]
      · exact knows_of_not_critical (by simpa using hcrit)
  · intro e he before hbefore
    rw [hputs] at he
    rcases List.mem_or_eq_of_mem_set he with he | rfl
    · exact h.replaced e he before hbefore
    · exact hreplaced before hbefore

theorem validate_not_critical (lib : PipelineLib δ) (s : PipelineSystem δ) (c : PutCall δ) :
    (s.validate lib c).critical = false ∧ (s.validate lib c).before = none := by
  fun_cases validate lib s c <;> exact ⟨rfl, rfl⟩

variable {name : String}

theorem stored_of_some {data : Bytes} (h : s.sourceFile name = some data) :
    s.stored lib name = lib.parse data := by
  rw [stored, h]

theorem stored_of_none (h : s.sourceFile name = none) :
    s.stored lib name = s.registry.getPipeline name := by
  rw [stored, h]

theorem sourceFile_eq {src : String} (h : s.registry.source name = src ∧ src ≠ "") :
    s.sourceFile name = s.files.read src := by
  rw [sourceFile, h.1, if_neg h.2]

/-- A `PUT` goes on under the lock. -/
theorem Sound.move (h : s.Sound lib) (hheld : s.writeMu = some i) {pc : PutPc δ}
    (hknows : s.Knows lib { c with pc := pc }) (hbefore : pc.before = none) :
    (s.setPut i c pc).Sound lib := by
  refine h.setPut rfl rfl (.inl hheld) (.inl hheld) (fun _ => hheld) hknows fun before hpc => ?_
  exact nomatch hbefore.symm.trans hpc

/-- A `PUT` is refused under the lock. -/
theorem Sound.refuse (h : s.Sound lib) (hheld : s.writeMu = some i) {status : Nat}
    {message : String} : (s.release i c (.refused status message)).Sound lib :=
  h.setPut rfl rfl (.inl hheld) (.inl hheld) (nomatch ·) trivial fun _ => (nomatch ·)

theorem Sound.advancePut (hyaml : lib.ReadsBack) (h : s.Sound lib) (hc : s.puts[i]? = some c)
    (hstep : s.advancePut lib i c = some s') : s'.Sound lib := by
  have hknows := h.knows i c hc
  have hheld : c.pc.critical = true → s.writeMu = some i := h.locked i c hc
  revert hstep
  fun_cases PipelineSystem.advancePut lib s i c <;> intro hstep <;> cases hstep
  · obtain ⟨hcritical, hbefore⟩ := validate_not_critical lib s c
    refine h.setPut rfl rfl (.inr ⟨rfl, rfl⟩) (.inr (.inr rfl)) ?_ ?_ ?_
    · simp [hcritical]
    · exact knows_of_not_critical hcritical
    · simp [hbefore]
  · exact h.setPut rfl rfl (.inr ⟨rfl, rfl⟩) (.inr (.inl ‹_›)) (fun _ => rfl) trivial
      (fun _ => (nomatch ·))
  -- from here on the call holds the lock
  all_goals replace hheld := hheld (by rw [‹c.pc = _›]; rfl)
  all_goals simp only [Knows, ‹c.pc = _›] at hknows
  any_goals exact h.refuse hheld
  · rename_i hsource
    refine h.move hheld ?_ rfl
    show s.sourceFile c.name = none
    rw [sourceFile, if_pos hsource]
  · exact h.move hheld ⟨rfl, ‹_›⟩ rfl
  · rename_i data hread
    exact h.move hheld (.inr ⟨data, rfl, stored_of_some ((sourceFile_eq hknows).trans hread)⟩) rfl
  · rename_i hread
    exact h.move hheld ((sourceFile_eq hknows).trans hread) rfl
  · exact h.move hheld (.inl rfl) rfl
  · rename_i d hd text htext
    -- what is hashed is the text of the definition that is stored
    refine h.move hheld (.inr ⟨text, rfl, ?_⟩) rfl
    exact (stored_of_none hknows).trans (hd.trans (hyaml d text htext).symm)
  · rename_i current _ hne hsame
    have hcurrent : trimQuotes c.ifMatch = current := by simpa using hsame
    rcases hknows with hempty | ⟨text, htext, hstored⟩
    · exact absurd (hcurrent.trans hempty) hne
    · exact h.move hheld ⟨text, hcurrent.trans htext, hstored⟩ rfl
  · exact h.move hheld hknows rfl
  · exact h.move hheld hknows rfl
  · refine h.setPut rfl rfl (.inl hheld) (.inl hheld) (fun _ => hheld) trivial ?_
    intro before hbefore
    cases hbefore
    exact hknows
  · rename_i hpc
    refine h.setPut rfl rfl (.inl hheld) (.inl hheld) (nomatch ·) trivial ?_
    intro before' hbefore
    exact h.replaced c (List.mem_of_getElem? hc) before' (by rw [hpc]; exact hbefore)

/-! ## The other steps -/

theorem Sound.advanceGet (hyaml : lib.ReadsBack) (h : s.Sound lib) {c : GetCall δ} {pc : GetPc δ}
    (hown : s.HashesOwn lib c) (hnext : s.nextGet lib c = some pc) :
    Sound lib { s with gets := s.gets.set i { c with pc := pc } } := by
  refine ⟨fun e he d etag hpc => ?_, h.locked, h.knows, h.replaced⟩
  rcases List.mem_or_eq_of_mem_set he with he | rfl
  · exact h.answered e he d etag hpc
  · obtain rfl : pc = .answered d (some etag) := hpc
    rw [HashesOwn] at hown
    cases hold : c.pc with
    | looking | sourcing d' =>
      simp only [nextGet, hold] at hnext
      split at hnext <;> cases hnext
    | reading d' src =>
      simp only [nextGet, hold] at hnext
      simp only [hold] at hown
      split at hnext
      · rename_i data hread
        cases hnext
        exact ⟨data, rfl, hown data hread⟩
      · cases hnext
    | hashing d' =>
      simp only [nextGet, hold, Option.some.injEq, GetPc.answered.injEq] at hnext
      simp only [hold] at hown
      obtain ⟨rfl, hetag⟩ := hnext
      obtain ⟨version, hversion, rfl⟩ := map_eq_some_iff.mp hetag
      obtain ⟨d, hd, hmarshal⟩ := bind_eq_some_iff.mp hversion
      obtain ⟨text, htext, rfl⟩ := map_eq_some_iff.mp hmarshal
      obtain rfl := hown d hd
      exact ⟨text, rfl, hyaml d text htext⟩
    | answered | notFound =>
      simp only [nextGet, hold] at hnext
      cases hnext

theorem Sound.edit (h : s.Sound lib) (path : String) {files : Directory}
    (hfiles : ∀ path', path' ≠ path → files.read path' = s.files.read path')
    (hclear : ∀ c ∈ s.puts, c.pc.checked = true → s.registry.source c.name ≠ path) :
    Sound lib { s with files := files } := by
  refine ⟨h.answered, h.locked, fun i c hc => ?_, h.replaced⟩
  refine (h.knows i c hc).congr rfl fun hchecked => ?_
  simp only [sourceFile]
  rw [hfiles _ (hclear c (List.mem_of_getElem? hc) hchecked)]

theorem sound_of_step (hyaml : lib.ReadsBack) {ev : PipelineEvent} (h : s.Sound lib)
    (hseen : s.Seen lib ev) (hstep : s.step lib ev = some s') : s'.Sound lib := by
  cases ev with
  | get name =>
    cases hstep
    refine ⟨List.forall_mem_append.mpr ⟨h.answered, ?_⟩, h.locked, h.knows, h.replaced⟩
    exact List.forall_mem_singleton.mpr fun d etag hpc => by cases hpc
  | put name body readError ifMatch refsKnown writeFails =>
    cases hstep
    refine ⟨h.answered, fun i c hc hcritical => ?_, fun i c hc => ?_,
      List.forall_mem_append.mpr ⟨h.replaced, ?_⟩⟩
    · rcases List.getElem?_snoc_cases hc with ⟨_, rfl⟩ | hc
      · cases hcritical
      · exact h.locked i c hc hcritical
    · rcases List.getElem?_snoc_cases hc with ⟨_, rfl⟩ | hc
      · trivial
      · exact (h.knows i c hc).congr rfl fun _ => rfl
    · exact List.forall_mem_singleton.mpr fun before hpc => by cases hpc
  | advanceGet i =>
    obtain ⟨c, hc, hstep⟩ := bind_eq_some_iff.mp hstep
    obtain ⟨pc, hnext, rfl⟩ := map_eq_some_iff.mp hstep
    exact h.advanceGet hyaml (hseen c hc) hnext
  | advancePut i =>
    obtain ⟨c, hc, hstep⟩ := bind_eq_some_iff.mp hstep
    exact h.advancePut hyaml hc hstep
  | edit path data =>
    cases hstep
    -- an edit from outside changes one file
    refine h.edit path (fun path' hne => ?_) hseen
    cases data with
    | some data =>
      simp only []
      rw [Directory.read_write, if_neg hne]
    | none =>
      simp only []
      rw [Directory.read_remove, if_neg hne]

/-- In every run in which each `GET` hashes what it returns, and no file is edited between the
    check and the write of a `PUT`, a `PUT` that is saved with the version of a `GET` has
    replaced the definition that the `GET` returned. -/
theorem saved_of_allSteps (hsha : Function.Injective lib.sha256) (hyaml : lib.ReadsBack)
    (files : Directory) (registry : PipelineRegistry δ) (events : List PipelineEvent)
    (hseen : AllSteps (step lib) (Seen lib) { files, registry } events) {s : PipelineSystem δ}
    (hrun : run lib { files, registry } events = some s) :
    ∀ g ∈ s.gets, ∀ p ∈ s.puts, ∀ d etag before, g.name = p.name →
      g.pc = .answered d (some etag) → p.pc = .saved before → p.ifMatch = etag →
      before = some d := by
  have hinit : Sound lib ({ files, registry } : PipelineSystem δ) :=
    ⟨by simp, by simp, by simp, by simp⟩
  have hsound : s.Sound lib := runOption_inv_of_allSteps (step lib) (Seen lib) (Sound lib)
    (fun s ev s' hseen hstep h => sound_of_step hyaml h hseen hstep) hseen hrun hinit
  rintro g hg p hp d etag before _ hanswered hsaved rfl
  obtain ⟨text, hetag, hparse⟩ := hsound.answered g hg d _ hanswered
  obtain ⟨text', hmatch, hbefore⟩ := hsound.replaced p hp before (by rw [hsaved]; rfl)
  rw [hetag, PipelineLib.trimQuotes_hashHex] at hmatch
  obtain rfl := PipelineLib.hashHex_inj hsha hmatch
  exact hbefore.trans hparse

/-! ## Two runs -/

/-- Definitions that are their own texts, all of the pipeline `flow`. -/
def flowLib : PipelineLib Bytes where
  name _ := "flow"
  unmarshalJSON body := .ok body
  marshal d := some d
  parse text := some text
  valid _ := true
  sha256 data := data
  quote s := s
  agentsDir := "agents"
  absDir := "/srv/agents"

def flowSystem : PipelineSystem Bytes where
  files := Directory.empty.write "agents/flow.yaml" [1]
  registry := PipelineRegistry.registerWithSource flowLib {} [1] "agents/flow.yaml"

/-- All steps of a `GET` of a pipeline with a file. -/
def getSteps (i : Nat) : List PipelineEvent := List.replicate 3 (.advanceGet i)

/-- All steps of a `PUT` of a pipeline with a file. -/
def putSteps (i : Nat) : List PipelineEvent := List.replicate 8 (.advancePut i)

/-- A `GET` and a `PUT` with its version, while another file is edited. -/
def seenRun : List PipelineEvent :=
  .get "flow" :: getSteps 0 ++
    [.put "flow" [2] none (quoted (flowLib.hashHex [1])) true false,
      .edit "agents/other.yaml" (some [9])] ++ putSteps 0

theorem seenRun_saved : ∃ s, run flowLib flowSystem seenRun = some s ∧
    (∀ g ∈ s.gets, ∀ p ∈ s.puts, ∀ d etag before, g.name = p.name →
      g.pc = .answered d (some etag) → p.pc = .saved before → p.ifMatch = etag →
      before = some d) ∧
    s.puts.map (·.pc.before) = [some (some [1])] ∧
      s.files.read "agents/flow.yaml" = some [2] := by
  obtain ⟨s, hs, hbefore, hfile⟩ : ∃ s, run flowLib flowSystem seenRun = some s ∧
      s.puts.map (·.pc.before) = [some (some [1])] ∧
      s.files.read "agents/flow.yaml" = some [2] := by decide
  have hsaved := saved_of_allSteps (fun _ _ h => h)
    (fun d text h => congrArg some (Option.some.inj h).symm) _ _ seenRun (by decide) hs
  exact ⟨s, hs, hsaved, hbefore, hfile⟩

/-- A `GET` has read the definition `[1]`; then `[2]` is saved with the version of another `GET`,
    and the first one computes its version. Its client saves `[3]`. -/
def tornRun : List PipelineEvent :=
  [.get "flow", .advanceGet 0, .get "flow"] ++ getSteps 1 ++
    [.put "flow" [2] none (quoted (flowLib.hashHex [1])) true false] ++ putSteps 0 ++
    [.advanceGet 0, .advanceGet 0,
      .put "flow" [3] none (quoted (flowLib.hashHex [2])) true false] ++ putSteps 1

/-- The first `GET` returned `[1]` with the version that the second `PUT` sent, and that `PUT` has
    replaced `[2]`. -/
theorem torn_overwritten : ∃ s g p, run flowLib flowSystem tornRun = some s ∧
    s.gets[0]? = some g ∧ s.puts[1]? = some p ∧ g.name = p.name ∧
      g.pc = .answered [1] (some p.ifMatch) ∧ p.pc = .saved (some [2]) := by
  obtain ⟨s, hs, g, hg, p, hp, hfields⟩ : ∃ s, run flowLib flowSystem tornRun = some s ∧
      ∃ g, s.gets[0]? = some g ∧ ∃ p, s.puts[1]? = some p ∧ g.name = p.name ∧
        g.pc = .answered [1] (some p.ifMatch) ∧ p.pc = .saved (some [2]) := by decide
  exact ⟨s, g, p, hs, hg, hp, hfields⟩

end PipelineSystem

end MockAgents
