import MockAgents.Adapter.Gemini
import MockAgents.Adapter.Registry
import MockAgents.Server.QuotaMiddleware
import MockAgents.Spec.BatchedRequests

/-!
# Metered generation routes

Every route that leads to a generation should have paths that `isLLMProviderPath` knows, so
that quotas and logging see the request. All of them do except two: Gemini's, whose handler
does not look at the method name unless it is the streaming one, and the one that creates a
batch, whose lines are run in process.
-/

namespace MockAgents

open ServeMux (Segment matchSegments fill urlPath)
open Bytes (ofString)

/-- If a route sends the request to a handler that generates, its path is metered. -/
def Covered (method : Bytes) (segs : List Bytes) : Prop :=
  ∀ r ∈ defaultRoutes, r.pattern.Matches method segs → r.handler.generates = true →
    isLLMProviderPath (urlPath segs) = true

/-- The segment names one of the two methods that generate. -/
def isGenerateSegment (seg : Bytes) : Bool :=
  endsWith seg ":generateContent" || endsWith seg ":streamGenerateContent"

/-! ## Paths -/

/-- An ending without a slash is not longer than the last segment. -/
theorem endsWith_append {ending : String} (h : 47 ∉ ofString ending) (front seg : Bytes) :
    endsWith (front ++ 47 :: seg) ending = endsWith seg ending := by
  rw [endsWith, endsWith, Bool.eq_iff_iff, List.isSuffixOf_iff_suffix, List.isSuffixOf_iff_suffix]
  constructor
  · intro hpath
    have hlast : 47 :: seg <:+ front ++ 47 :: seg := List.suffix_append _ _
    rcases List.suffix_or_suffix_of_suffix hpath hlast with hseg | hslash
    · rcases List.suffix_cons_iff.mp hseg with heq | hseg
      · exact absurd (by rw [heq]; simp) h
      · exact hseg
    · exact absurd (hslash.subset (by simp)) h
  · intro hseg
    exact hseg.trans ((List.suffix_cons 47 seg).trans (List.suffix_append _ _))

theorem isLLMProviderPath_gemini (seg : Bytes) :
    isLLMProviderPath (urlPath [ofString "v1beta", ofString "models", seg]) =
      isGenerateSegment seg := by
  have hpath : urlPath [ofString "v1beta", ofString "models", seg] =
      ofString "/v1beta/models" ++ 47 :: seg := by
    have hfront : urlPath [ofString "v1beta", ofString "models"] =
        ofString "/v1beta/models" := by decide
    rw [← hfront]
    simp [urlPath]
  -- the other paths differ from it within four bytes
  have htake : (ofString "/v1beta/models" ++ 47 :: seg).take 4 = ofString "/v1b" := by
    rw [List.take_append_of_le_length (by decide)]
    decide
  have hstart : startsWith (ofString "/v1beta/models" ++ 47 :: seg) "/v1beta/models/" =
      true := by
    rw [startsWith, List.isPrefixOf_iff_prefix]
    exact ⟨seg, by rw [show ofString "/v1beta/models/" =
      ofString "/v1beta/models" ++ [47] by decide]; simp⟩
  rw [hpath, isLLMProviderPath,
    if_pos hstart, endsWith_append (by decide), endsWith_append (by decide)]
  rfl

theorem isLLMProviderPath_deployment (deployment rest : Bytes)
    (hrest : (endsWith rest "/chat/completions" || endsWith rest "/embeddings") = true) :
    isLLMProviderPath (ofString "/openai/deployments/" ++ (deployment ++ rest)) = true := by
  have hgemini : startsWith (ofString "/openai/deployments/" ++ (deployment ++ rest))
      "/v1beta/models/" = false := by
    rw [Bool.eq_false_iff, startsWith, ne_eq, List.isPrefixOf_iff_prefix]
    rintro ⟨t, ht⟩
    have htake := congrArg (List.take 2) ht
    rw [List.take_append_of_le_length (by decide),
      List.take_append_of_le_length (by decide)] at htake
    exact absurd htake (by decide)
  have hstart : startsWith (ofString "/openai/deployments/" ++ (deployment ++ rest))
      "/openai/deployments/" = true := by
    rw [startsWith, List.isPrefixOf_iff_prefix]
    exact List.prefix_append _ _
  have hend : ∀ ending, endsWith rest ending = true →
      endsWith (ofString "/openai/deployments/" ++ (deployment ++ rest)) ending = true := by
    intro ending h
    rw [endsWith, List.isSuffixOf_iff_suffix] at h ⊢
    exact h.trans ((List.suffix_append _ _).trans (List.suffix_append _ _))
  unfold isLLMProviderPath
  split
  · rfl
  · split
    · rfl
    · simp only [hgemini, Bool.false_eq_true, if_false]
      rw [Bool.or_eq_true] at hrest ⊢
      exact hrest.imp (hend _) (hend _)

/-! ## Routes -/

def geminiPattern : ServeMux.Pattern :=
  ⟨ofString "POST", [.literal (ofString "v1beta"), .literal (ofString "models"),
    .wildcard (ofString "modelmethod")]⟩

def deploymentSegments (rest : List Bytes) : List Segment :=
  [.literal (ofString "openai"), .literal (ofString "deployments"),
    .wildcard (ofString "deployment")] ++ rest.map .literal

def batchesPattern : ServeMux.Pattern :=
  ⟨ofString "POST", [.literal (ofString "v1"), .literal (ofString "batches")]⟩

/-- The routes that generate: fixed paths that are metered, the two routes of a deployment,
    Gemini's, and the one that creates a batch. -/
theorem generating_routes : ∀ r ∈ defaultRoutes, r.handler.generates = true →
    (r.pattern.segments.all Segment.isLiteral = true ∧
        isLLMProviderPath (urlPath (fill r.pattern.segments [])) = true) ∨
      (∃ rest ∈ [[ofString "chat", ofString "completions"],
          [ofString "embeddings"]],
        r.pattern.segments = deploymentSegments rest ∧
          (endsWith (urlPath rest) "/chat/completions" ||
            endsWith (urlPath rest) "/embeddings") = true) ∨
      r.pattern = geminiPattern ∨ r.pattern = batchesPattern := by
  decide +kernel

theorem gemini_route : ⟨geminiPattern, .handleGenerate⟩ ∈ defaultRoutes := by
  have hmount : mount "POST /v1beta/models/\x7bmodelmethod\x7d" .handleGenerate =
      ⟨geminiPattern, .handleGenerate⟩ := by
    rw [mount, show ServeMux.Pattern.parse "POST /v1beta/models/\x7bmodelmethod\x7d" =
      geminiPattern by decide]
  rw [← hmount]
  simp [defaultRoutes, defaultRegistry, geminiAdapter]

theorem batches_route : ⟨batchesPattern, .handleCreateBatch⟩ ∈ defaultRoutes := by
  have hmount : mount "POST /v1/batches" .handleCreateBatch =
      ⟨batchesPattern, .handleCreateBatch⟩ := by
    rw [mount, show ServeMux.Pattern.parse "POST /v1/batches" = batchesPattern by decide]
  rw [← hmount]
  simp [defaultRoutes, defaultRegistry, batchesAdapter]

/-- The path of a deployment's request. -/
private theorem urlPath_deployment (deployment : Bytes) (rest : List Bytes) :
    urlPath (fill (deploymentSegments rest) [deployment]) =
      ofString "/openai/deployments/" ++ (deployment ++ urlPath rest) := by
  have hfront : ofString "/openai/deployments/" =
      47 :: (ofString "openai" ++ 47 :: (ofString "deployments" ++ [47])) := by
    decide
  have hrest : ∀ vs, fill (rest.map .literal) vs = rest := by
    intro vs
    induction rest with
    | nil => rfl
    | cons s rest ih => rw [List.map_cons, fill, ih]
  rw [hfront]
  simp [deploymentSegments, fill, hrest, urlPath]

/-- A request is covered iff it is no Gemini request with another method than the two, and
    creates no batch. -/
theorem covered_iff (method : Bytes) (segs : List Bytes) :
    Covered method segs ↔
      (∀ seg, method = ofString "POST" →
        segs = [ofString "v1beta", ofString "models", seg] → seg ≠ [] →
        isGenerateSegment seg = true) ∧
      ¬ (method = ofString "POST" ∧ segs = [ofString "v1", ofString "batches"]) := by
  constructor
  · intro hcovered
    constructor
    · rintro seg rfl rfl hseg
      rw [← isLLMProviderPath_gemini]
      refine hcovered _ gemini_route ⟨rfl, ?_⟩ rfl
      simp [geminiPattern, matchSegments, hseg]
    · rintro ⟨rfl, rfl⟩
      have hmetered := hcovered _ batches_route (by decide) rfl
      exact absurd hmetered (by decide)
  · rintro ⟨hmethods, hbatches⟩ r hr ⟨hmethod, hmatch⟩ hgenerates
    obtain ⟨vs, hvs⟩ := Option.isSome_iff_exists.mp hmatch
    obtain ⟨hsegs, hlen, hne⟩ := ServeMux.segments_of_matchSegments hvs
    rcases generating_routes r hr hgenerates with ⟨hliteral, hpath⟩ | ⟨rest, _, heq, hrest⟩ |
      heq | heq
    · rw [hsegs, ServeMux.fill_of_isLiteral hliteral vs, hpath]
    · -- the deployment may be anything
      have hone : vs.length = 1 := by
        rw [hlen, heq]
        simp [deploymentSegments, Segment.isLiteral, List.countP_map, Function.comp_def]
      obtain ⟨deployment, rfl⟩ := List.length_eq_one_iff.mp hone
      rw [hsegs, heq, urlPath_deployment]
      exact isLLMProviderPath_deployment deployment (urlPath rest) hrest
    · rw [heq] at hsegs hlen hmethod
      obtain ⟨seg, rfl⟩ := List.length_eq_one_iff.mp hlen
      rw [hsegs]
      show isLLMProviderPath (urlPath [ofString "v1beta", ofString "models", seg]) = _
      rw [isLLMProviderPath_gemini]
      exact hmethods seg hmethod.symm hsegs (hne seg (by simp))
    · rw [heq] at hsegs hmethod
      exact absurd ⟨hmethod.symm, hsegs⟩ hbatches

/-! ## A request for another method -/

def geminiGreeting (method : String) : GeminiCall plainHost where
  modelMethod := "gpt-4o:" ++ method
  body := .ok { contents := [{ role := "user", parts := [{ text := "hi" }] }] }
  env := plainEnv
  newSession := ""

/-- An enforcer whose tenant has used up its requests. -/
def exhausted : Enforcer where
  defaults := { ratePerSec := 1, rateBurst := 1 }
  buckets := (∅ : GoMap String Bucket).insert "acme" ⟨0, 0⟩

def geminiSegments (modelMethod : String) : List Bytes :=
  [ofString "v1beta", ofString "models", ofString modelMethod]

/-- A request for `countTokens` is answered with a generation, past an exhausted quota that
    stops `generateContent`. -/
theorem countTokens_not_covered :
    ¬ Covered (ofString "POST") (geminiSegments (geminiGreeting "countTokens").modelMethod) ∧
      (greeter.handleGenerate plainChatLib (fun s => s) greeterDefs
        (geminiGreeting "countTokens")).2.isOk = true ∧
      (quotaEnforce (some exhausted)
        (urlPath (geminiSegments (geminiGreeting "countTokens").modelMethod)) "acme" 0 true).2 =
          .next ∧
      (quotaEnforce (some exhausted)
        (urlPath (geminiSegments (geminiGreeting "generateContent").modelMethod)) "acme" 0 true).2 =
          .rateLimitExceeded 1 ∧
      isLoggablePath (urlPath (geminiSegments (geminiGreeting "countTokens").modelMethod)) =
        false := by
  refine ⟨fun hcovered => ?_, by decide +kernel, by decide +kernel, by decide +kernel,
    by decide⟩
  have hmetered := hcovered _ gemini_route (by decide) rfl
  cases hmetered

end MockAgents

