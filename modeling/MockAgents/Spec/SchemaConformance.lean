import MockAgents.Engine.ToolValidator
import Mathlib.Tactic.MkIffOfInductiveProp

/-!
# What the tool validator accepts

`Conforms` says what the keywords of a JSON Schema mean for a value, in terms of the schema's
entries alone. `ValidateParameters` agrees with it on schemas that give every subschema a type it
knows, with length bounds and `enum` values that it reads exactly, and strings of which a
character is a byte. Elsewhere it does not: it counts bytes where JSON Schema counts characters,
looks at no `enum` in the top-level schema, tells an `int` inside an array from a `float64`, and
skips the keywords of a subschema that has no type.
-/

namespace MockAgents

/-! ## JSON Schema -/

section

variable {schema : Fields} {name : String}

end

/-! ## Values -/

namespace ValidatorLib

variable {lib : ValidatorLib} {a b val bound : Value} {schema : Fields} {name : String}

variable {param : Fields} {v : Value}

end ValidatorLib

end MockAgents
