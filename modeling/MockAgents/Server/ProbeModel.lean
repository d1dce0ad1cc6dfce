import MockAgents.ForStd.Float64

/-!
# The model of a response

`probeModel` looks for the top-level field `model` of a response with the tokens of a
`json.Decoder`, and skips arrays and objects by counting delimiters. It finds what a full parse
finds, unless a number before the field is too large for a `float64`: the decoder then returns an
error.
-/

namespace MockAgents

open Bytes (ofString)
open Json (unquoted)

/-- A token of `json.Decoder`; of a delimiter, whether it is a brace. A number that no `float64`
    holds is an error. -/
inductive JsonToken where
  | opening (brace : Bool)
  | closing (brace : Bool)
  | string (s : Bytes)
  | scalar
  | outOfRange
  deriving DecidableEq

mutual

/-- The tokens that a decoder reads from the text of a tree. -/
@[simp] def tokens : Json → List JsonToken
  | .null | .bool _ => [.scalar]
  | .num lit => [if (Float64.parse lit).isSome then .scalar else .outOfRange]
  | .str raw => [.string (unquoted raw)]
  | .arr items => .opening false :: (itemTokens items ++ [.closing false])
  | .obj members => .opening true :: (memberTokens members ++ [.closing true])

@[simp] def itemTokens : List Json → List JsonToken
  | [] => []
  | t :: ts => tokens t ++ itemTokens ts

@[simp] def memberTokens : List (Bytes × Json) → List JsonToken
  | [] => []
  | (key, t) :: ms => .string (unquoted key) :: (tokens t ++ memberTokens ms)

end

/-- `Decoder.Token`, where `none` is an error. -/
@[simp] def nextToken : List JsonToken → Option (JsonToken × List JsonToken)
  | [] | .outOfRange :: _ => none
  | tok :: toks => some (tok, toks)

/-- `Decoder.More`. -/
@[simp] def hasMore : List JsonToken → Bool
  | [] | .closing _ :: _ => false
  | _ => true

/-- The loop of `skipJSONValue`; `none` is an error. -/
@[simp] def skipJSONValue : (depth : Nat) → List JsonToken → Option (List JsonToken)
  | 0, toks => some toks
  | _ + 1, [] | _ + 1, .outOfRange :: _ => none
  | depth + 1, .opening _ :: toks => skipJSONValue (depth + 2) toks
  | depth + 1, .closing _ :: toks => skipJSONValue depth toks
  | depth + 1, _ :: toks => skipJSONValue (depth + 1) toks

/-- The loop of `probeModel`. There are fewer fields than tokens, the fuel it starts with. -/
@[simp] def probeFields : (fuel : Nat) → List JsonToken → Bytes
  | 0, _ => []
  | fuel + 1, toks =>
    if hasMore toks then
      match nextToken toks with
      | none => []
      | some (keyTok, toks) =>
        match nextToken toks with
        | none => []
        | some (.opening _, toks) => ((skipJSONValue 1 toks).map (probeFields fuel)).getD []
        | some (valTok, toks) =>
          if keyTok = .string (ofString "model") then
            match valTok with
            | .string s => s
            | _ => []
          else probeFields fuel toks
    else []

def probeModel (body : List JsonToken) : Bytes :=
  match nextToken body with
  | some (.opening true, toks) => probeFields toks.length toks
  | _ => []

/-! ## Skipping a value -/

/-- Inside an array or object, the tokens are skipped as a whole. -/
def Skipped (toks : List JsonToken) : Prop := ∀ depth rest,
  skipJSONValue (depth + 1) (toks ++ rest) =
    if .outOfRange ∈ toks then none else skipJSONValue (depth + 1) rest

variable {l l' : List JsonToken}

theorem Skipped.append (h : Skipped l) (h' : Skipped l') : Skipped (l ++ l') := by
  intro depth rest
  rw [List.append_assoc, h, h']
  by_cases hl : .outOfRange ∈ l <;> simp [hl]

theorem Skipped.enclosed (h : Skipped l) (brace : Bool) :
    Skipped (.opening brace :: (l ++ [.closing brace])) := by
  intro depth rest
  rw [List.cons_append, List.append_assoc, skipJSONValue, h (depth + 1)]
  simp

/-- `skipJSONValue` stops behind the value. -/
theorem Skipped.closed (h : Skipped l) (brace : Bool) (rest : List JsonToken) :
    skipJSONValue 1 (l ++ .closing brace :: rest) =
      if .outOfRange ∈ l then none else some rest := by
  rw [h 0]
  simp

theorem skipped_string (s : Bytes) : Skipped [.string s] := by
  intro depth rest
  simp

mutual

theorem skipped_tokens : (t : Json) → Skipped (tokens t)
  | .null | .bool _ => fun _ _ => by simp
  | .num lit => fun _ _ => by
    by_cases hfits : (Float64.parse lit).isSome <;> simp [hfits]
  | .str _ => skipped_string _
  | .arr items => (skipped_itemTokens items).enclosed false
  | .obj members => (skipped_memberTokens members).enclosed true

theorem skipped_itemTokens : (ts : List Json) → Skipped (itemTokens ts)
  | [] => fun _ _ => rfl
  | t :: ts => (skipped_tokens t).append (skipped_itemTokens ts)

theorem skipped_memberTokens : (ms : List (Bytes × Json)) → Skipped (memberTokens ms)
  | [] => fun _ _ => rfl
  | (_, t) :: ms =>
    (skipped_string _).append ((skipped_tokens t).append (skipped_memberTokens ms))

end

/-! ## Finding the field -/

/-- The field `model` of an object, if it is a string. -/
@[simp] def modelField : List (Bytes × Json) → Bytes
  | [] => []
  | (key, t) :: ms =>
    if unquoted key = ofString "model" then
      match t with
      | .str raw => unquoted raw
      | _ => []
    else modelField ms

/-- The values before the field have no number that is too large. -/
@[simp] def inRange : List (Bytes × Json) → Bool
  | [] => true
  | (key, t) :: ms =>
    unquoted key = ofString "model" || (.outOfRange ∉ tokens t && inRange ms)

variable {ms : List (Bytes × Json)}

theorem modelField_of_not_mem (h : ofString "model" ∉ ms.map fun m => unquoted m.1) :
    modelField ms = [] := by
  induction ms with
  | nil => rfl
  | cons m ms ih =>
    obtain ⟨hkey, hrest⟩ := not_or.mp (List.mem_cons.not.mp h)
    obtain ⟨key, t⟩ := m
    simp only [modelField, if_neg (Ne.symm hkey), ih hrest]

theorem probeFields_eq (hkeys : (ms.map fun m => unquoted m.1).Nodup) {fuel : Nat}
    (hfuel : ms.length < fuel) (rest : List JsonToken) :
    probeFields fuel (memberTokens ms ++ .closing true :: rest) =
      if inRange ms then modelField ms else [] := by
  induction ms generalizing fuel with
  | nil => cases fuel <;> rfl
  | cons m ms ih =>
    obtain ⟨key, t⟩ := m
    obtain ⟨fuel, rfl⟩ : ∃ n, fuel = n + 1 := ⟨fuel - 1, by omega⟩
    obtain ⟨hnew, hkeys⟩ := List.nodup_cons.mp hkeys
    have hrest := ih hkeys (Nat.lt_of_succ_lt_succ hfuel)
    -- behind an array or object with the key there is no other field with it
    have hnone (h : unquoted key = ofString "model") : modelField ms = [] :=
      modelField_of_not_mem (h ▸ hnew)
    by_cases hkey : unquoted key = ofString "model"
    all_goals
      cases t with
      | null | bool | str => simp [hkey, hrest]
      | num lit => by_cases hfits : (Float64.parse lit).isSome <;> simp [hkey, hrest, hfits]
      | arr items =>
        have hskip := (skipped_itemTokens items).closed
        by_cases hbad : .outOfRange ∈ itemTokens items <;> simp [hkey, hrest, hbad, hnone, hskip]
      | obj members =>
        have hskip := (skipped_memberTokens members).closed
        by_cases hbad : .outOfRange ∈ memberTokens members <;>
          simp [hkey, hrest, hbad, hnone, hskip]

theorem length_le_memberTokens (ms : List (Bytes × Json)) :
    ms.length ≤ (memberTokens ms).length := by
  induction ms with
  | nil => exact Nat.le_refl _
  | cons m ms ih =>
    rw [memberTokens, List.length_cons, List.length_cons, List.length_append]
    omega

/-- `probeModel` finds the field of a full parse unless a number before it is too large. -/
theorem probeModel_eq_iff (ms : List (Bytes × Json))
    (hkeys : (ms.map fun m => unquoted m.1).Nodup) :
    probeModel (tokens (.obj ms)) = modelField ms ↔ modelField ms = [] ∨ inRange ms = true := by
  have hprobe : probeModel (tokens (.obj ms)) = if inRange ms then modelField ms else [] := by
    refine probeFields_eq hkeys ?_ []
    rw [List.length_append, List.length_singleton]
    exact Nat.lt_succ_of_le (length_le_memberTokens ms)
  rw [hprobe]
  cases inRange ms with
  | true => simp
  | false => simp

/-- A model behind an object with a model of its own. -/
def nestedModel : List (Bytes × Json) :=
  [([97], .obj [(ofString "model", .str [120])]), (ofString "model", .str [109])]

theorem nestedModel_found : probeModel (tokens (.obj nestedModel)) = [109] :=
  ((probeModel_eq_iff nestedModel (by decide)).mpr (.inr (by decide))).trans (by decide)

/-- A model behind a number that no `float64` holds. -/
def hugeNumber : List (Bytes × Json) :=
  [([97], .num (ofString "1e400")), (ofString "model", .str [109])]

/-- The model is not found. -/
theorem hugeNumber_not_found : (hugeNumber.map fun m => unquoted m.1).Nodup ∧
    modelField hugeNumber = [109] ∧ probeModel (tokens (.obj hugeNumber)) = [] := by
  decide +kernel

end MockAgents
