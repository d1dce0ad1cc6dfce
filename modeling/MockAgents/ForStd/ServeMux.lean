import MockAgents.ForStd.Bytes

/-!
# Route patterns

The patterns of `http.ServeMux` that a method and a path of literal segments and wildcards
make up. A request path is given by its segments after unescaping, which may contain any
byte; `urlPath` is the path that the request then shows. A path that ends in a slash has an
empty last segment, which no wildcard matches. Paths that are not clean are redirected and
reach no handler.
-/

namespace ServeMux

inductive Segment where
  | literal (s : Bytes)
  | wildcard (name : Bytes)
  deriving DecidableEq

/-- A pattern `METHOD /path`. -/
structure Pattern where
  method : Bytes
  segments : List Segment
  deriving DecidableEq

/-- A segment between braces is a wildcard. -/
def Segment.parse (s : Bytes) : Segment :=
  if s.head? = some 123 ∧ s.getLast? = some 125 then .wildcard (s.tail.dropLast) else .literal s

def Pattern.parse (text : String) : Pattern :=
  let fields := Bytes.split 32 (Bytes.ofString text)
  { method := fields.headD []
    segments := ((Bytes.split 47 (fields.getD 1 [])).drop 1).map Segment.parse }

/-- The path with these segments. -/
def urlPath (segs : List Bytes) : Bytes := segs.flatMap fun s => 47 :: s

/-- The values of the wildcards, if the segments match. -/
def matchSegments : List Segment → List Bytes → Option (List Bytes)
  | [], [] => some []
  | .literal s :: ps, seg :: segs => if seg = s then matchSegments ps segs else none
  | .wildcard _ :: ps, seg :: segs =>
    if seg = [] then none else (matchSegments ps segs).map (seg :: ·)
  | [], _ :: _ => none
  | _ :: _, [] => none

/-- The pattern with values for its wildcards. -/
def fill : List Segment → List Bytes → List Bytes
  | [], _ => []
  | .literal s :: ps, vs => s :: fill ps vs
  | .wildcard _ :: ps, v :: vs => v :: fill ps vs
  | .wildcard _ :: _, [] => []

def Segment.isLiteral : Segment → Bool
  | .literal _ => true
  | .wildcard _ => false

variable {ps : List Segment}

/-- A path that matches is the pattern with a value filled in for each wildcard. -/
theorem segments_of_matchSegments {segs vs : List Bytes} (h : matchSegments ps segs = some vs) :
    segs = fill ps vs ∧ vs.length = ps.countP (fun p => !p.isLiteral) ∧ ∀ v ∈ vs, v ≠ [] := by
  induction ps generalizing segs vs with
  | nil =>
    cases segs with
    | nil =>
      cases h
      exact ⟨rfl, rfl, fun v hv => nomatch hv⟩
    | cons => cases h
  | cons p ps ih =>
    cases segs with
    | nil => cases p <;> cases h
    | cons seg segs =>
      cases p with
      | literal s =>
        simp only [matchSegments] at h
        split at h
        · rename_i hseg
          obtain ⟨hrest, hlen, hne⟩ := ih h
          exact ⟨by rw [fill, hseg, ← hrest], by simpa [Segment.isLiteral] using hlen, hne⟩
        · cases h
      | wildcard name =>
        simp only [matchSegments] at h
        split at h
        · cases h
        · rename_i hseg
          obtain ⟨vs', hvs', rfl⟩ := Option.map_eq_some_iff.mp h
          obtain ⟨hrest, hlen, hne⟩ := ih hvs'
          refine ⟨by rw [fill, ← hrest], by simpa [Segment.isLiteral] using hlen, fun v hv => ?_⟩
          cases List.mem_cons.mp hv with
          | inl heq => exact heq ▸ hseg
          | inr hv => exact hne v hv

theorem fill_of_isLiteral (h : ps.all Segment.isLiteral = true) (vs : List Bytes) :
    fill ps vs = fill ps [] := by
  induction ps with
  | nil => rfl
  | cons p ps ih =>
    rw [List.all_cons, Bool.and_eq_true] at h
    cases p with
    | literal s => rw [fill, fill, ih h.2]
    | wildcard name => exact nomatch h.1

def Pattern.Matches (p : Pattern) (method : Bytes) (segs : List Bytes) : Prop :=
  p.method = method ∧ (matchSegments p.segments segs).isSome = true

instance (p : Pattern) (method : Bytes) (segs : List Bytes) :
    Decidable (p.Matches method segs) := inferInstanceAs (Decidable (_ ∧ _))

end ServeMux
