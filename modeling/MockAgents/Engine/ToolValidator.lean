import MockAgents.ForStd.GoMap
import MockAgents.Types.Value

/-!
# Validation of tool parameters

`ValidateParameters` checks the arguments of a tool call against the tool's parameter schema
and reports a text for each violation. Nested objects and array items are checked against
their own schemas, to which the recursion descends.
-/

namespace MockAgents

/-! ## Reading a schema -/

/-- `schema["type"].(string)`, empty if it is not a string. -/
def schemaType (schema : Fields) : String :=
  match schema.lookup "type" with
  | some (.str t) => t
  | _ => ""

/-- `v.(string)`. -/
def Value.str? : Value → Option String
  | .str s => some s
  | _ => none

/-- The strings of `schema["required"]`; anything else is skipped. -/
def schemaRequired (schema : Fields) : List String :=
  match schema.lookup "required" with
  | some (.arr items) => items.filterMap Value.str?
  | _ => []

/-- The entries of `schema["properties"]` if it is a map. -/
def schemaProperties (schema : Fields) : Fields :=
  match schema.lookup "properties" with
  | some (.obj props) => props
  | _ => []

def getPropertyNames (schema : Fields) : List String := (schemaProperties schema).map Prod.fst

/-- `additionalProperties` is exactly `false`. -/
def isClosed (schema : Fields) : Bool :=
  match schema.lookup "additionalProperties" with
  | some (.bool b) => !b
  | _ => false

/-- `propDef["items"].(map[string]any)`. -/
def schemaItems? (schema : Fields) : Option Fields :=
  match schema.lookup "items" with
  | some (.obj items) => some items
  | _ => none

theorem sizeOf_lt_of_mem {fs : Fields} {k : String} {v : Value} (h : (k, v) ∈ fs) :
    sizeOf v < sizeOf fs := by
  have hlt := List.sizeOf_lt_of_mem h
  rw [Prod.mk.sizeOf_spec] at hlt
  omega

theorem sizeOf_items_lt {schema items : Fields} (h : schemaItems? schema = some items) :
    sizeOf items < sizeOf schema := by
  rw [schemaItems?] at h
  split at h
  · rename_i hlookup
    cases h
    have hlt := sizeOf_lt_of_mem (List.mem_of_lookup hlookup)
    rw [Value.obj.sizeOf_spec] at hlt
    omega
  · cases h

theorem sizeOf_property_lt {schema propDef : Fields} {name : String}
    (h : (name, .obj propDef) ∈ schemaProperties schema) : sizeOf propDef < sizeOf schema := by
  rw [schemaProperties] at h
  split at h
  · rename_i hlookup
    have hlt := sizeOf_lt_of_mem h
    have hlt' := sizeOf_lt_of_mem (List.mem_of_lookup hlookup)
    rw [Value.obj.sizeOf_spec] at hlt hlt'
    omega
  · cases h

/-- The types that `checkType` knows. -/
inductive SchemaType where
  | string
  | integer
  | number
  | boolean
  | array
  | object
  deriving DecidableEq

namespace SchemaType

def name : SchemaType → String
  | string => "string"
  | integer => "integer"
  | number => "number"
  | boolean => "boolean"
  | array => "array"
  | object => "object"

/-- The type of a schema; `none` for any other name. -/
def ofName (s : String) : Option SchemaType :=
  [string, integer, number, boolean, array, object].find? fun t => t.name = s

end SchemaType

/-- The text of `%T`. -/
def Value.typeName : Value → String
  | .null => "<nil>"
  | .bool _ => "bool"
  | .int _ => "int"
  | .float _ => "float64"
  | .str _ => "string"
  | .arr _ => "[]interface {}"
  | .obj _ => "map[string]interface {}"

/-! ## Checking a value -/

def toFloat : Value → Option Rat
  | .int i => some (Float64.roundInt i)
  | .float q => some q
  | _ => none

/-- `equalScalar`: numbers by value, and never a number equal to another kind. -/
def equalScalar (a b : Value) : Bool :=
  match toFloat a, toFloat b with
  | some x, some y => x == y
  | none, none => a.deepEqual b
  | _, _ => false

def inEnum (val : Value) (allowed : List Value) : Bool := allowed.any fun a => equalScalar a val

/-- What the validator takes from `fmt` and the runtime. -/
structure ValidatorLib where
  /-- The text of `%q`. -/
  quote : String → String
  /-- The text of `%v`. -/
  sprint : Value → String
  /-- What the conversion to `int64` makes of a number that is out of range. -/
  outOfRange : Rat → Int
  /-- The order in which the properties of the object at a path are visited. -/
  propertyOrder : String → MapOrder
  /-- The order in which the arguments at a path are visited. -/
  argumentOrder : String → MapOrder

namespace ValidatorLib

/-- A library with simple texts, on a machine that makes the smallest integer of what is out
    of range. -/
def plain : ValidatorLib where
  quote s := "\"" ++ s ++ "\""
  sprint := Value.typeName
  outOfRange _ := -2 ^ 63
  propertyOrder _ := .stored
  argumentOrder _ := .stored

variable (lib : ValidatorLib)

/-- `int64(f)` and `int(f)`, which truncate. -/
def truncate (q : Rat) : Int :=
  let i := q.num.tdiv q.den
  if -2 ^ 63 ≤ i ∧ i < 2 ^ 63 then i else lib.outOfRange q

def toInt : Value → Option Int
  | .int i => some i
  | .float q => some (lib.truncate q)
  | _ => none

/-- The text for a value that is not of the expected type. -/
def expected (name : String) (t : SchemaType) (val : Value) : String :=
  "parameter " ++ lib.quote name ++ ": expected " ++ t.name ++ ", got " ++ val.typeName

/-- `checkType`, with `none` for its empty text. -/
def checkType (name : String) (val : Value) (t : SchemaType) : Option String :=
  match t, val with
  | .string, .str _ => none
  | .integer, .int _ => none
  | .integer, .float q =>
    if q = Float64.roundInt (lib.truncate q) then none
    else some ("parameter " ++ lib.quote name ++ ": expected integer, got float")
  | .number, .int _ => none
  | .number, .float _ => none
  | .boolean, .bool _ => none
  | .array, .arr _ => none
  | .object, .obj _ => none
  | t, val => some (lib.expected name t val)

/-- The type check of `validateValue`. -/
def typeErrors (propDef : Fields) (val : Value) (name : String) : List String :=
  match SchemaType.ofName (schemaType propDef) with
  | some t => (lib.checkType name val t).toList
  | none => []

/-- The `enum` check of `validateValue`. -/
def enumErrors (propDef : Fields) (val : Value) (name : String) : List String :=
  match propDef.lookup "enum" with
  | some (.arr allowed) =>
    if inEnum val allowed then []
    else ["parameter " ++ lib.quote name ++ " value " ++ lib.sprint val ++
      " not in allowed values " ++ lib.sprint (.arr allowed)]
  | _ => []

/-- The `minLength` check of `validateValue`. A length counts bytes. -/
def minLengthErrors (propDef : Fields) (str name : String) : List String :=
  match (propDef.lookup "minLength").bind lib.toInt with
  | some min =>
    if (str.utf8ByteSize : Int) < min then
      ["parameter " ++ lib.quote name ++ " length " ++ toString str.utf8ByteSize ++
        " is less than minimum " ++ toString min]
    else []
  | none => []

/-- The `maxLength` check of `validateValue`. -/
def maxLengthErrors (propDef : Fields) (str name : String) : List String :=
  match (propDef.lookup "maxLength").bind lib.toInt with
  | some max =>
    if max < (str.utf8ByteSize : Int) then
      ["parameter " ++ lib.quote name ++ " length " ++ toString str.utf8ByteSize ++
        " exceeds maximum " ++ toString max]
    else []
  | none => []

/-! ## Checking an object -/

/-- The required keys that are missing. -/
def missingErrors (schema args : Fields) (path : String) : List String :=
  ((schemaRequired schema).filter fun name => (args.lookup name).isNone).map fun name =>
    "missing required parameter " ++ lib.quote (path ++ name)

/-- The arguments that a closed schema does not list. -/
def unexpectedErrors (schema args : Fields) (path : String) : List String :=
  if isClosed schema then
    (((lib.argumentOrder path).visit args).filter fun arg =>
      arg.1 ∉ getPropertyNames schema).map fun arg =>
        "unexpected parameter " ++ lib.quote (path ++ arg.1)
  else []

/-- The properties whose schema is a map, as the loop over the properties visits them. -/
def propertyDefs (schema : Fields) (path : String) : List (String × Fields) :=
  ((lib.propertyOrder path).visit (schemaProperties schema)).filterMap fun
    | (name, .obj propDef) => some (name, propDef)
    | _ => none

variable {lib} {schema : Fields} {path : String}

theorem mem_propertyDefs {propDef : Fields} {name : String} :
    (name, propDef) ∈ lib.propertyDefs schema path ↔
      (name, .obj propDef) ∈ schemaProperties schema := by
  rw [propertyDefs, List.mem_filterMap]
  constructor
  · rintro ⟨⟨name', v⟩, hmem, heq⟩
    cases v with
    | obj d =>
      cases heq
      exact ((lib.propertyOrder path).mem_visit _ _).mp hmem
    | _ => cases heq
  · intro hmem
    exact ⟨_, ((lib.propertyOrder path).mem_visit _ _).mpr hmem, rfl⟩

variable (lib)

mutual

/-- `validateObjectAt`; `path` stands before the names in the texts. -/
def validateObjectAt (schema args : Fields) (path : String) : List String :=
  lib.missingErrors schema args path ++
    (lib.propertyDefs schema path).attach.flatMap (fun p =>
      match args.lookup p.1.1 with
      | some val => validateValue p.1.2 val (path ++ p.1.1)
      | none => []) ++
    lib.unexpectedErrors schema args path
termination_by (sizeOf schema, 0)
decreasing_by exact .left _ _ (sizeOf_property_lt (mem_propertyDefs.mp p.2))

def validateValue (propDef : Fields) (val : Value) (name : String) : List String :=
  lib.typeErrors propDef val name ++ lib.enumErrors propDef val name ++
    match SchemaType.ofName (schemaType propDef), val with
    | some .string, .str str =>
      lib.minLengthErrors propDef str name ++ lib.maxLengthErrors propDef str name
    | some .object, .obj nested => validateObjectAt propDef nested (name ++ ".")
    | some .array, .arr items => validateArray propDef items name
    | _, _ => []
termination_by (sizeOf propDef, 1)

/-- `validateArray`, on an array. Without an `items` schema the elements are free. -/
def validateArray (propDef : Fields) (items : List Value) (name : String) : List String :=
  match h : schemaItems? propDef with
  | some itemsSchema =>
    items.zipIdx.flatMap fun item =>
      validateValue itemsSchema item.1 (name ++ "[" ++ toString item.2 ++ "]")
  | none => []
termination_by (sizeOf propDef, 0)
decreasing_by exact .left _ _ (sizeOf_items_lt h)

end

variable {lib} {args : Fields}

end ValidatorLib

end MockAgents
