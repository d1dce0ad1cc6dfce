import MockAgents.ForStd.Memo
import MockAgents.ForStd.Strings
import MockAgents.Types.Agent

/-!
# Scenario matching

`MatchWithCaptures` tries the scenarios of an agent in order and falls back to its first
scenario without a rule. Lower-cased literals and compiled patterns are memoized across
requests. The functions of Go's `strings` and `regexp` packages are parameters.
-/

namespace MockAgents

/-- The standard-library functions that matching calls. `compile` returns nothing for a
    pattern that does not compile; a match lists the whole match and then the groups. -/
structure TextLib where
  toLower : String → String
  Regexp : Type
  compile : String → Option Regexp
  subexpNames : Regexp → List String
  findStringSubmatch : Regexp → String → Option (List String)

/-- Named capture groups, `map[string]string`. -/
abbrev Captures := GoMap String String

/-- The matched scenario and the capture groups of its rule; the default scenario has
    none (a nil map). -/
structure MatchResult where
  scenario : Scenario
  captures : Option Captures

structure ScenarioMatcher (lib : TextLib) where
  regexCache : Memo lib.compile
  lowerCache : Memo lib.toLower

namespace ScenarioMatcher

variable {lib : TextLib}

def newScenarioMatcher (lib : TextLib) : ScenarioMatcher lib :=
  ⟨.empty lib.compile, .empty lib.toLower⟩

def lowerContains (m : ScenarioMatcher lib) (s : String) : ScenarioMatcher lib × String :=
  let (cache, lowered) := m.lowerCache.load s
  ({ m with lowerCache := cache }, lowered)

/-- `compileRegex`; a bad pattern is cached as a nil pointer. -/
def compileRegex (m : ScenarioMatcher lib) (pattern : String) :
    ScenarioMatcher lib × Option lib.Regexp :=
  let (cache, re) := m.regexCache.load pattern
  ({ m with regexCache := cache }, re)

/-- The loop of `evaluate` over the groups of a match: the named ones, skipping the
    whole match at index 0. The map is made at the first named group. -/
def namedCaptures (names groups : List String) : Option Captures :=
  ((names.zip groups).drop 1).foldl
    (fun captures e =>
      if e.1 ≠ "" then some ((captures.getD ∅).insert e.1 e.2) else captures)
    none

/-- The `content_contains` condition of `evaluate`. -/
def containsHolds (m : ScenarioMatcher lib) (rule : MatchRule) (lowerMessage : String) :
    ScenarioMatcher lib × Bool :=
  if rule.contentContains ≠ "" then
    let literal := m.lowerContains rule.contentContains
    (literal.1, hasSubstr lowerMessage literal.2)
  else (m, true)

/-- The `content_regex` condition of `evaluate`, with the captures of a match. -/
def regexHolds (m : ScenarioMatcher lib) (rule : MatchRule) (userMessage : String) :
    ScenarioMatcher lib × Option (Option Captures) :=
  if rule.contentRegex ≠ "" then
    let re := m.compileRegex rule.contentRegex
    (re.1, re.2.bind fun re =>
      (lib.findStringSubmatch re userMessage).map (namedCaptures (lib.subexpNames re)))
  else (m, some none)

/-- `evaluate`: all conditions of a rule; `none` if one fails, else the captures. -/
def evaluate (m : ScenarioMatcher lib) (rule : MatchRule) (userMessage lowerMessage : String)
    (turnNumber imageCount : Int) : ScenarioMatcher lib × Option Captures :=
  if rule.hasImage.any fun want => decide (imageCount > 0) != want then (m, none)
  else
    let contains := m.containsHolds rule lowerMessage
    if !contains.2 then (contains.1, none)
    else
      let regex := contains.1.regexHolds rule userMessage
      match regex.2 with
      | none => (regex.1, none)
      | some captures =>
        if rule.turnNumber.any fun want => turnNumber != want then (regex.1, none)
        else (regex.1, some (captures.getD ∅))

/-- The loop of `MatchWithCaptures`, with the first default scenario seen so far. -/
def matchLoop (userMessage lowerMessage : String) (turnNumber imageCount : Int)
    (m : ScenarioMatcher lib) (dflt : Option Scenario) :
    List Scenario → ScenarioMatcher lib × Option MatchResult
  | [] => (m, dflt.map fun sc => ⟨sc, none⟩)
  | sc :: rest =>
    match sc.rule with
    | none => matchLoop userMessage lowerMessage turnNumber imageCount m (dflt.or (some sc)) rest
    | some rule =>
      let r := m.evaluate rule userMessage lowerMessage turnNumber imageCount
      match r.2 with
      | some captures => (r.1, some ⟨sc, some captures⟩)
      | none => matchLoop userMessage lowerMessage turnNumber imageCount r.1 dflt rest

def matchWithCaptures (m : ScenarioMatcher lib) (scenarios : List Scenario)
    (userMessage : String) (turnNumber imageCount : Int) :
    ScenarioMatcher lib × Option MatchResult :=
  matchLoop userMessage (lib.toLower userMessage) turnNumber imageCount m none scenarios

/-! ## The caches do not show -/

variable (m : ScenarioMatcher lib)

@[simp] theorem lowerContains_snd (s : String) :
    (m.lowerContains s).2 = lib.toLower s := m.lowerCache.load_snd s

@[simp] theorem compileRegex_snd (pattern : String) :
    (m.compileRegex pattern).2 = lib.compile pattern := m.regexCache.load_snd pattern

end ScenarioMatcher

end MockAgents
