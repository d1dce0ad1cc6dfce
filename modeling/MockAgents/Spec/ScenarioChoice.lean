import MockAgents.Engine.ScenarioMatcher

/-!
# The scenario that answers

`MatchWithCaptures` without its loop and its caches: the first scenario whose rule holds, with
the named groups of the rule's pattern, and if no rule holds, the first scenario without one.
What the matcher was asked before makes no difference.
-/

namespace MockAgents

section

variable (lib : TextLib) (message : String) (turnNumber imageCount : Int)

def MatchRule.holds (rule : MatchRule) : Bool :=
  rule.hasImage.all (decide (imageCount > 0) == ·) &&
    (rule.contentContains == "" ||
      hasSubstr (lib.toLower message) (lib.toLower rule.contentContains)) &&
    (rule.contentRegex == "" ||
      (lib.compile rule.contentRegex).any fun re => (lib.findStringSubmatch re message).isSome) &&
    rule.turnNumber.all (turnNumber == ·)

/-- The scenario has a rule, and it holds. -/
def Scenario.matched (sc : Scenario) : Bool :=
  sc.rule.any (·.holds lib message turnNumber imageCount)

/-- The groups of the rule's pattern and what they match, without the whole match in front. -/
def MatchRule.groups (rule : MatchRule) : List (String × String) :=
  if rule.contentRegex = "" then []
  else
    ((lib.compile rule.contentRegex).bind fun re => (lib.findStringSubmatch re message).map
      fun found => ((lib.subexpNames re).zip found).drop 1).getD []

end

namespace ScenarioMatcher

/-- The captures that the loop of `evaluate` makes of the groups. -/
def capturesOf (groups : List (String × String)) : Option Captures :=
  groups.foldl
    (fun captures e => if e.1 ≠ "" then some ((captures.getD ∅).insert e.1 e.2) else captures) none

theorem lookup_capturesOf (groups : List (String × String)) (name : String) :
    ((capturesOf groups).getD ∅).lookup name =
      if name = "" then none else groups.reverse.lookup name := by
  induction groups using List.reverseRecOn with
  | nil => simp [capturesOf]
  | append_singleton groups e ih =>
    simp only [capturesOf, List.foldl_append, List.foldl_cons, List.foldl_nil] at ih ⊢
    by_cases he : e.1 = ""
    · rw [if_neg (by simpa using he)]
      grind
    · rw [if_pos he, Option.getD_some, GoMap.lookup_insert_eq, ih]
      grind

variable {lib : TextLib} (m m' : ScenarioMatcher lib) (message : String)
  (turnNumber imageCount : Int)

/-- `evaluate` does not depend on the caches. -/
theorem evaluate_snd (rule : MatchRule) :
    (m.evaluate rule message (lib.toLower message) turnNumber imageCount).2 =
      if rule.holds lib message turnNumber imageCount then
        some ((capturesOf (rule.groups lib message)).getD ∅)
      else none := by
  have hcontains : (m.containsHolds rule (lib.toLower message)).2 =
      (rule.contentContains == "" ||
        hasSubstr (lib.toLower message) (lib.toLower rule.contentContains)) := by
    unfold containsHolds
    split <;> simp_all
  have hregex : ∀ m : ScenarioMatcher lib, (m.regexHolds rule message).2 =
      if rule.contentRegex == "" || (lib.compile rule.contentRegex).any fun re =>
          (lib.findStringSubmatch re message).isSome then
        some (capturesOf (rule.groups lib message))
      else none := by
    simp only [regexHolds, compileRegex_snd, MatchRule.groups]
    by_cases hre : rule.contentRegex = ""
    · simp [hre, capturesOf]
    · cases hc : lib.compile rule.contentRegex with
      | none => simp [hre]
      | some re =>
        cases hfind : lib.findStringSubmatch re message with
        | none => simp [hre, hfind]
        | some found => simp [hre, hfind, namedCaptures, capturesOf]
  have hnot : ∀ {α : Type} [BEq α] (o : Option α) (x : α), (o.any (x != ·)) = !o.all (x == ·) := by
    intro α _ o x
    cases o <;> simp [bne]
  simp only [evaluate, MatchRule.holds, hcontains, hregex, hnot]
  -- one condition after the other, in the order of the source
  split
  · simp_all
  · split
    · simp_all
    · split
      · simp_all
      · split <;> simp_all

/-- The loop returns at the first rule that holds, and otherwise with the first default. -/
theorem matchLoop_snd (m : ScenarioMatcher lib) (dflt : Option Scenario)
    (scenarios : List Scenario) :
    (matchLoop message (lib.toLower message) turnNumber imageCount m dflt scenarios).2 =
      ((scenarios.find? (·.matched lib message turnNumber imageCount)).bind fun sc =>
        sc.rule.map fun rule => ⟨sc, some ((capturesOf (rule.groups lib message)).getD ∅)⟩).or
      ((dflt.or (scenarios.find? (·.rule.isNone))).map (⟨·, none⟩)) := by
  induction scenarios generalizing m dflt with
  | nil => simp [matchLoop]
  | cons sc rest ih =>
    unfold matchLoop
    cases hrule : sc.rule with
    | none =>
      simp only [ih]
      simp [Scenario.matched, hrule]
    | some rule =>
      simp only [evaluate_snd]
      cases hholds : rule.holds lib message turnNumber imageCount with
      | true => simp [Scenario.matched, hrule, hholds]
      | false => simp [ih, Scenario.matched, hrule, hholds]

/-- The match does not depend on what the matcher has cached. -/
theorem matchWithCaptures_snd (scenarios : List Scenario) :
    (m.matchWithCaptures scenarios message turnNumber imageCount).2 =
      (m'.matchWithCaptures scenarios message turnNumber imageCount).2 := by
  rw [matchWithCaptures, matchWithCaptures, matchLoop_snd, matchLoop_snd]

/-- Whatever was matched before, the first scenario in definition order whose rule holds is
    selected, or else the first one without a rule. A selected rule's captures are the named
    groups of its pattern; the default has none. -/
theorem matchWithCaptures_selects (scenarios : List Scenario) :
    let result := (m.matchWithCaptures scenarios message turnNumber imageCount).2
    result.map (·.scenario) =
        (scenarios.find? (·.matched lib message turnNumber imageCount)).or
          (scenarios.find? (·.rule.isNone)) ∧
      ∀ r ∈ result, (r.scenario.rule = none → r.captures = none) ∧
        ∀ rule ∈ r.scenario.rule, ∃ c ∈ r.captures, ∀ name, c.lookup name =
          if name = "" then none else (rule.groups lib message).reverse.lookup name := by
  simp only [matchWithCaptures, matchLoop_snd, Option.none_or]
  cases hfirst : scenarios.find? (·.matched lib message turnNumber imageCount) with
  | some sc =>
    have hmatched := List.find?_some hfirst
    cases hrule : sc.rule with
    | none => simp [Scenario.matched, hrule] at hmatched
    | some rule => simp [hrule, lookup_capturesOf]
  | none =>
    cases hdflt : scenarios.find? (·.rule.isNone) with
    | none => simp
    | some sc =>
      have hnone := List.find?_some hdflt
      simp_all

end ScenarioMatcher

end MockAgents
