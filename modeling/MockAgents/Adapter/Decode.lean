import MockAgents.Adapter.Answer
import MockAgents.ForStd.StructDecode
import MockAgents.Recording.Interaction

/-!
# Request bodies

`decodeJSONBody` reads a body of limited size and decodes it into the request type of a
handler. Keys name fields up to case, as `encoding/json` folds them.

What a value does to a field, and the texts of decoding errors, are those of
`encoding/json`. They are a parameter, except for the `stream` flag.
-/

namespace MockAgents

open Json (unquoted)
open Interaction (foldName)

def maxDecodeBodyBytes : Nat := 10 * 2 ^ 20

/-- How `encoding/json` decodes into the fields of a request. A raw message keeps the text
    with which the encoder writes it, so that none of it depends on whether the characters
    of HTML are escaped. -/
structure FieldCodec {Field : Type} (Val : Field → Type) where
  mismatch : Field → Json → Option String
  store : (f : Field) → Val f → Json → Val f
  streamMismatch : Json → String
  syntaxError : Bytes → String
  valueMismatch : Json → String
  mismatch_escape : ∀ f {d v}, Json.Lit d v →
    mismatch f (v.mapStr Json.escapeRaw) = mismatch f v
  store_escape : ∀ f old {d v}, Json.Lit d v →
    store f old (v.mapStr Json.escapeRaw) = store f old v
  streamMismatch_escape : ∀ {d v}, Json.Lit d v →
    streamMismatch (v.mapStr Json.escapeRaw) = streamMismatch v

/-- The type of a request: its `stream` flag and its other fields, with their tags. -/
structure RequestType where
  Field : Type
  decEq : DecidableEq Field
  all : List Field
  tag : Field → String
  Val : Field → Type
  zero : (f : Field) → Val f
  codec : FieldCodec Val

namespace RequestType

def namesStream (key : Bytes) : Bool := foldName key = Bytes.ofString "STREAM"

variable (T : RequestType)

/-- The request as a struct; `none` is the `stream` flag. -/
@[reducible]
def struct : StructType where
  Field := Option T.Field
  decEq :=
    have := T.decEq
    inferInstance
  Val := fun
    | none => Bool
    | some f => T.Val f
  zero := fun
    | none => false
    | some f => T.zero f
  named key :=
    if namesStream key then some none
    else (T.all.find? fun f => foldName key = foldName (Bytes.ofString (T.tag f))).map some
  mismatch := fun
    | none, .null => none
    | none, .bool _ => none
    | none, v => some (T.codec.streamMismatch v)
    | some f, v => T.codec.mismatch f v
  store := fun
    | none, _, .bool b => b
    | none, old, _ => old
    | some f, old, v => T.codec.store f old v

/-- The members of an object with the strings that their keys stand for. -/
def keyed (ms : List (Bytes × Json)) : List (Bytes × Json) :=
  ms.map fun m => (unquoted m.1, m.2)

def decodeJSONBody (body : Bytes) : Except BodyError T.struct.State :=
  if body.length > maxDecodeBodyBytes then .error .tooLarge
  else
    match Json.parse body with
    | none => .error (.invalid (T.codec.syntaxError body))
    | some (.obj ms) => (T.struct.decode (keyed ms)).mapError .invalid
    | some .null => .ok T.struct.zero
    | some v => .error (.invalid (T.codec.valueMismatch v))

/-! ## Escapes -/

variable {d : Nat} {v : Json}

theorem mismatch_escape (f : T.struct.Field) (hv : Json.Lit d v) :
    T.struct.mismatch f (v.mapStr Json.escapeRaw) = T.struct.mismatch f v := by
  cases f with
  | some f => exact T.codec.mismatch_escape f hv
  | none =>
    cases v with
    | null => rfl
    | bool b => rfl
    | _ => exact congrArg some (T.codec.streamMismatch_escape hv)

theorem store_escape (f : T.struct.Field) (old : T.struct.Val f) (hv : Json.Lit d v) :
    T.struct.store f old (v.mapStr Json.escapeRaw) = T.struct.store f old v := by
  cases f with
  | some f => exact T.codec.store_escape f old hv
  | none => cases v <;> rfl

end RequestType

end MockAgents
