import MockAgents.ForStd.List
import MockAgents.Mcp.Server

/-!
# The response to a tool call

The rules of a tool come from YAML and the arguments of a call from JSON. By the documented
rule, the first rule whose pattern is contained in the arguments answers the call, and a
default rule answers the others. `matchArgs` compares with `reflect.DeepEqual`, for which the
`int` of a pattern is never equal to the `float64` of an argument, and it takes an empty
pattern as one that matches nothing.
-/

namespace MockAgents

/-! ## The documented choice -/

/-- The pattern is a part of the arguments, compared as JSON values. -/
def IsSubMap (pattern args : Fields) : Prop :=
  ∀ k v, pattern.lookup k = some v → ∃ got, args.lookup k = some got ∧ got.JsonEq v

/-- The rule answers calls with these arguments, and is no default. -/
def MCPToolResponse.Selects (args : Fields) (r : MCPToolResponse) : Prop :=
  r.isDefault = false ∧ IsSubMap r.pattern.fields args

/-- The rule that answers a call, where `P` says which rules do that are no defaults; none if
    the call is echoed. -/
def ChosenBy (P : MCPToolResponse → Prop) (responses : List MCPToolResponse) :
    Option MCPToolResponse → Prop
  | some r =>
    List.IsFirst P responses r ∨ (∀ r' ∈ responses, ¬ P r') ∧ r ∈ responses ∧ r.isDefault = true
  | none => ∀ r ∈ responses, ¬ P r ∧ r.isDefault = false

/-! ## What the code chooses -/

variable {args : Fields}

/-- What `matchArgs` accepts. -/
theorem matchArgs_iff {pattern : Fields} (hargs : (Value.obj args).FromJson)
    (hpattern : (Value.obj pattern).Keyed) :
    matchArgs pattern args = true ↔
      pattern ≠ [] ∧ IsSubMap pattern args ∧ (Value.obj pattern).intFree = true := by
  obtain ⟨hkeyed, hfree⟩ := hargs
  cases hkeyed with
  | obj _ hvalues =>
    cases hpattern with
    | obj hnodup hpattern =>
      have heq {k got v} (hgot : args.lookup k = some got) (hv : (k, v) ∈ pattern) :
          got.deepEqual v = true ↔ got.JsonEq v ∧ v.intFree = true :=
        have hmem := List.mem_of_lookup hgot
        Value.deepEqual_iff (hvalues _ hmem) ((Value.intFreeFields_iff args).mp hfree _ hmem)
          (hpattern _ hv)
      rw [matchArgs, Bool.and_eq_true, List.all_eq_true, Value.intFree, Value.intFreeFields_iff]
      refine and_congr (by simp) ⟨fun hall => ⟨fun k v hv => ?_, fun m hm => ?_⟩, ?_⟩
      · have hmem := List.mem_of_lookup hv
        have hm := hall _ hmem
        split at hm
        · rename_i got hgot
          exact ⟨got, hgot, ((heq hgot hmem).mp hm).1⟩
        · cases hm
      · have hm' := hall _ hm
        split at hm'
        · rename_i got hgot
          exact ((heq hgot hm).mp hm').2
        · cases hm'
      · rintro ⟨hsub, hfree⟩ m hm
        obtain ⟨got, hgot, hjson⟩ := hsub m.1 m.2 (List.lookup_of_mem hnodup hm)
        simp only [hgot]
        exact (heq hgot hm).mpr ⟨hjson, hfree m hm⟩

/-- The rule answers calls with these arguments as the code sees it. -/
def MCPToolResponse.Matches (args : Fields) (r : MCPToolResponse) : Prop :=
  r.isDefault = false ∧ matchArgs r.pattern.fields args = true

theorem matches_iff (hargs : (Value.obj args).FromJson) (r : MCPToolResponse) :
    r.Matches args ↔ r.Selects args ∧
      r.pattern.fields ≠ [] ∧ (Value.obj r.pattern.fields).intFree = true := by
  rw [MCPToolResponse.Matches, MCPToolResponse.Selects, matchArgs_iff hargs r.pattern.keyed]
  tauto

section

variable {P Q : MCPToolResponse → Prop} {responses : List MCPToolResponse}

theorem ChosenBy.cons {r r' : MCPToolResponse} (h : ChosenBy P responses (some r'))
    (hr : ¬ P r) : ChosenBy P (r :: responses) (some r') := by
  obtain ⟨l₁, l₂, rfl, hP, hnot⟩ | ⟨hnone, hmem, hdefault⟩ := h
  · exact .inl ⟨r :: l₁, l₂, rfl, hP, List.forall_mem_cons.mpr ⟨hr, hnot⟩⟩
  · exact .inr ⟨List.forall_mem_cons.mpr ⟨hr, hnone⟩, List.mem_cons_of_mem _ hmem, hdefault⟩

/-- The loop leaves the fallback alone only if no rule matches and none is a default. -/
theorem resolveFrom_chosen (args : Fields) (fallback : Option MCPToolResponse)
    (responses : List MCPToolResponse) :
    (∃ r, resolveFrom args fallback responses = some r ∧
      ChosenBy (MCPToolResponse.Matches args) responses (some r)) ∨
    (resolveFrom args fallback responses = fallback ∧
      ChosenBy (MCPToolResponse.Matches args) responses none) := by
  induction responses generalizing fallback with
  | nil => exact .inr ⟨rfl, by simp [ChosenBy]⟩
  | cons r rs ih =>
    rw [resolveFrom]
    split
    · rename_i hdefault
      have hr : ¬ r.Matches args := fun h => nomatch hdefault.symm.trans h.1
      obtain ⟨r', heq, hchosen⟩ | ⟨heq, hnone⟩ := ih (some r)
      · exact .inl ⟨r', heq, hchosen.cons hr⟩
      · refine .inl ⟨r, heq, .inr ⟨?_, List.mem_cons_self, hdefault⟩⟩
        exact List.forall_mem_cons.mpr ⟨hr, fun r' hr' => (hnone r' hr').1⟩
    · rename_i hdefault
      have hfalse : r.isDefault = false := by simpa using hdefault
      split
      · rename_i hmatch
        exact .inl ⟨r, rfl, .inl ⟨[], rs, rfl, ⟨hfalse, hmatch⟩, by simp⟩⟩
      · rename_i hmatch
        have hr : ¬ r.Matches args := fun h => hmatch h.2
        obtain ⟨r', heq, hchosen⟩ | ⟨heq, hnone⟩ := ih fallback
        · exact .inl ⟨r', heq, hchosen.cons hr⟩
        · exact .inr ⟨heq, List.forall_mem_cons.mpr ⟨⟨hr, hfalse⟩, hnone⟩⟩

theorem resolveToolResponse_chosen (args : Fields) (responses : List MCPToolResponse) :
    ChosenBy (MCPToolResponse.Matches args) responses (resolveToolResponse responses args) := by
  rw [resolveToolResponse]
  obtain ⟨r, heq, hchosen⟩ | ⟨heq, hchosen⟩ := resolveFrom_chosen args none responses
  · rwa [heq]
  · rwa [heq]

/-- A choice by a stronger property is one by the weaker if the first rule with the weaker
    has the stronger. -/
theorem ChosenBy.iff_of_imp (hPQ : ∀ r, P r → Q r) (hdefault : ∀ r, Q r → r.isDefault = false)
    {res : Option MCPToolResponse} (h : ChosenBy P responses res) :
    ChosenBy Q responses res ↔ ∀ r, List.IsFirst Q responses r → P r := by
  constructor
  · intro hQ r hfirst
    cases res with
    | none => exact absurd hfirst.holds (hQ r hfirst.mem).1
    | some r' =>
      obtain hfirst' | ⟨hnone, _⟩ := hQ
      · obtain rfl := hfirst'.unique hfirst
        obtain hP | ⟨_, _, hd⟩ := h
        · exact hP.holds
        · exact nomatch hd.symm.trans (hdefault _ hfirst.holds)
      · exact absurd hfirst.holds (hnone r hfirst.mem)
  · intro hcond
    by_cases hex : ∃ r ∈ responses, Q r
    · obtain ⟨r, hr, hQ⟩ := hex
      obtain ⟨r₀, l₁, l₂, hl, hQ₀, hnot⟩ := List.exists_isFirst hr hQ
      have hP₀ : P r₀ := hcond r₀ ⟨l₁, l₂, hl, hQ₀, hnot⟩
      have hfirst : List.IsFirst P responses r₀ :=
        ⟨l₁, l₂, hl, hP₀, fun b hb hPb => hnot b hb (hPQ b hPb)⟩
      cases res with
      | none => exact absurd hP₀ (h r₀ hfirst.mem).1
      | some r' =>
        obtain hfirst' | ⟨hnone, _⟩ := h
        · obtain rfl := hfirst'.unique hfirst
          exact .inl ⟨l₁, l₂, hl, hQ₀, hnot⟩
        · exact absurd hP₀ (hnone r₀ hfirst.mem)
    · have hnone : ∀ r ∈ responses, ¬ Q r := fun r hr hQ => hex ⟨r, hr, hQ⟩
      cases res with
      | none => exact fun r hr => ⟨hnone r hr, (h r hr).2⟩
      | some r' =>
        obtain hfirst | ⟨_, hmem, hd⟩ := h
        · exact absurd (hPQ _ hfirst.holds) (hnone r' hfirst.mem)
        · exact .inr ⟨hnone, hmem, hd⟩

end

/-- The code makes the documented choice iff the rule that should answer, if there is one, has
    a pattern with entries and without an `int`. -/
theorem resolveToolResponse_chosen_iff (responses : List MCPToolResponse)
    (hargs : (Value.obj args).FromJson) :
    ChosenBy (MCPToolResponse.Selects args) responses (resolveToolResponse responses args) ↔
      ∀ r, List.IsFirst (MCPToolResponse.Selects args) responses r →
        r.pattern.fields ≠ [] ∧ (Value.obj r.pattern.fields).intFree = true := by
  rw [(resolveToolResponse_chosen args responses).iff_of_imp
    (fun r h => ((matches_iff hargs r).mp h).1) fun r h => h.1]
  refine forall₂_congr fun r hfirst => ?_
  rw [matches_iff hargs]
  exact and_iff_right hfirst.holds

/-! ## The handler -/

theorem fromJson_of_decodeAnyMap {old : Fields} {t : Json} (hold : (Value.obj old).FromJson)
    (h : decodeAnyMap old t = some args) : (Value.obj args).FromJson := by
  unfold decodeAnyMap at h
  split at h
  · cases h
    exact .empty
  · exact Value.fromJson_of_ofJsonMembers hold h
  · cases h

theorem ToolCallParams.fromJson_setMember {p p' : ToolCallParams} {m : Bytes × Json}
    (hp : (Value.obj p.arguments).FromJson) (h : p.setMember m = some p') :
    (Value.obj p'.arguments).FromJson := by
  unfold ToolCallParams.setMember at h
  split at h
  · obtain ⟨s, _, rfl⟩ := Option.map_eq_some_iff.mp h
    exact hp
  · split at h
    · obtain ⟨args, hargs, rfl⟩ := Option.map_eq_some_iff.mp h
      exact fromJson_of_decodeAnyMap hp hargs
    · cases h
      exact hp

theorem ToolCallParams.fromJson_arguments {raw : Option Json} {params : ToolCallParams}
    (h : unmarshalParams ToolCallParams.setMember {} raw = some params) :
    (Value.obj params.arguments).FromJson := by
  obtain ⟨t, _, ht⟩ := Option.bind_eq_some_iff.mp h
  exact decodeStruct_inv (P := fun p => (Value.obj p.arguments).FromJson)
    (fun _ _ _ _ hp h => fromJson_setMember hp h) .empty ht

namespace MCPServer

/-- A call of a tool is answered with the response of the rule that the code chooses, or with
    an echo; the choice is the documented one iff the rule that should answer, if there is
    one, has a pattern with entries and without an `int`. -/
theorem handleToolsCall_chosen_iff (lib : MCPLib) (s : MCPServer) (req : RPCRequest)
    {params : ToolCallParams} {tool : MCPTool}
    (hparams : unmarshalParams ToolCallParams.setMember {} req.params = some params)
    (hname : params.name ≠ "") (htool : s.findTool params.name = some tool) :
    s.handleToolsCall lib req = newResult req.id (callResult lib tool params.arguments
        (resolveToolResponse tool.responses params.arguments)) ∧
      (ChosenBy (MCPToolResponse.Selects params.arguments) tool.responses
          (resolveToolResponse tool.responses params.arguments) ↔
        ∀ r, List.IsFirst (MCPToolResponse.Selects params.arguments) tool.responses r →
          r.pattern.fields ≠ [] ∧ (Value.obj r.pattern.fields).intFree = true) := by
  constructor
  · simp [handleToolsCall, hparams, hname, htool]
  · exact resolveToolResponse_chosen_iff tool.responses
      (ToolCallParams.fromJson_arguments hparams)

/-! ## A tool with two rules -/

/-- Rain in three days, as YAML has it, and in Paris. -/
def weatherTool : MCPTool where
  name := "weather"
  responses := [
    { pattern := {
        fields := [("days", .int 3)]
        keyed := .obj (by simp) (by simp [Value.Keyed.int]) }
      content := some [{ type := "text", text := "rain" }] },
    { pattern := {
        fields := [("city", .str "Paris")]
        keyed := .obj (by simp) (by simp [Value.Keyed.str]) }
      content := some [{ type := "text", text := "rain in Paris" }] }]

def weatherServer : MCPServer := { definition := {
  metadata := { name := "weather" }
  spec := { tools := [weatherTool] } } }

/-- A call of the tool with one argument. -/
def weatherCall (key : String) (value : Json) : RPCRequest where
  jsonrpc := "2.0"
  id := some (.num [49])
  method := "tools/call"
  params := some (.obj [(Bytes.ofString "name", .str (Bytes.ofString "weather")),
    (Bytes.ofString "arguments", .obj [(Bytes.ofString key, value)])])

theorem unmarshal_weatherCall_city :
    unmarshalParams ToolCallParams.setMember {}
      (weatherCall "city" (.str (Bytes.ofString "Paris"))).params =
        some ⟨"weather", [("city", .str "Paris")]⟩ := by
  decide +kernel

theorem unmarshal_weatherCall_days :
    unmarshalParams ToolCallParams.setMember {} (weatherCall "days" (.num [51])).params =
      some ⟨"weather", [("days", .float 3)]⟩ := by
  decide +kernel

/-- The call for Paris is answered by the rule for Paris. -/
theorem weatherCall_city_chosen :
    weatherServer.handleToolsCall .plain (weatherCall "city" (.str (Bytes.ofString "Paris"))) =
        newResult (some (.num [49]))
          (.call (some [{ type := "text", text := "rain in Paris" }]) false) ∧
      ChosenBy (MCPToolResponse.Selects [("city", .str "Paris")]) weatherTool.responses
        (resolveToolResponse weatherTool.responses [("city", .str "Paris")]) := by
  obtain ⟨hresult, hchosen⟩ := handleToolsCall_chosen_iff .plain weatherServer
    (weatherCall "city" (.str (Bytes.ofString "Paris"))) unmarshal_weatherCall_city (by decide)
    (show weatherServer.findTool "weather" = some weatherTool from rfl)
  refine ⟨hresult, hchosen.mpr fun r hfirst => ?_⟩
  have hmem := hfirst.mem
  simp only [weatherTool, List.mem_cons, List.not_mem_nil, or_false] at hmem
  rcases hmem with rfl | rfl
  · -- the rule for three days needs an argument that is not there
    obtain ⟨got, hgot, _⟩ := hfirst.holds.2 "days" (.int 3) rfl
    cases hgot
  · exact ⟨by simp, rfl⟩

/-- The call for three days is not answered by the rule for three days. -/
theorem weatherCall_days_not_chosen :
    weatherServer.handleToolsCall .plain (weatherCall "days" (.num [51])) =
        newResult (some (.num [49])) (callResult .plain weatherTool [("days", .float 3)]
          (resolveToolResponse weatherTool.responses [("days", .float 3)])) ∧
      ¬ ChosenBy (MCPToolResponse.Selects [("days", .float 3)]) weatherTool.responses
        (resolveToolResponse weatherTool.responses [("days", .float 3)]) := by
  constructor
  · simp only [handleToolsCall, unmarshal_weatherCall_days]
    rfl
  · intro hchosen
    have hnone : resolveToolResponse weatherTool.responses [("days", .float 3)] = none := rfl
    rw [hnone] at hchosen
    refine (hchosen _ List.mem_cons_self).1 ⟨rfl, fun k v hv => ?_⟩
    obtain ⟨rfl, rfl⟩ : k = "days" ∧ v = .int 3 := by simpa using List.mem_of_lookup hv
    exact ⟨.float 3, rfl, .num rfl rfl⟩

end MCPServer

end MockAgents
