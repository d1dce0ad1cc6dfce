import MockAgents.Recording.Interaction

/-!
# Redaction

A `Redactor` masks secrets in an interaction before it is recorded: `storage.SanitizeBody`
masks what follows `sk-`, `key-` and `Bearer `, then the built-in credential shapes and the
caller's patterns are replaced by `***`. In a JSON body only the string values are masked.

The built-in expressions have one shape, a sequence of character classes with counts, and
no class that may repeat without bound is followed by a class that meets it, so matching
greedily is matching. A caller's pattern is any function that keeps valid strings valid, as
`regexp` does, which matches whole runes.
-/

namespace MockAgents

open Bytes (Seg segs isUtf8 ofString)

/-- The mask, `***`. -/
def stars : Bytes := [42, 42, 42]

/-! ## Prefix masking -/

/-- The bytes that end a secret: a quote, a space and a comma. -/
def isDelim (b : UInt8) : Bool := b == 34 || b == 32 || b == 44

/-- The mask follows, and then a delimiter or the end. -/
def isMasked : Bytes → Bool
  | 42 :: 42 :: 42 :: [] => true
  | 42 :: 42 :: 42 :: b :: _ => isDelim b
  | _ => false

/-- The loop of `SanitizeBody` for one pattern. -/
def sanitizeFor (pattern : Bytes) : (fuel : Nat) → Bytes → Bytes
  | 0, s => s
  | fuel + 1, s =>
    match Bytes.cut pattern s with
    | none => s
    | some (before, rest) =>
      let after := if isMasked rest then rest.drop 3 else rest.dropWhile fun b => !isDelim b
      before ++ pattern ++ stars ++ sanitizeFor pattern fuel after

def sanitizeBody (body : Bytes) : Bytes :=
  [ofString "sk-", ofString "key-", ofString "Bearer "].foldl
    (fun s pattern => sanitizeFor pattern s.length s) body

/-! ## Credential shapes -/

/-- A character class with a count: exactly `count` of them, or at least that many. -/
structure Piece where
  cls : UInt8 → Bool
  count : Nat
  orMore : Bool

/-- A byte between two others. -/
def between (lo hi b : UInt8) : Bool := lo ≤ b && b ≤ hi

def isUpper : UInt8 → Bool := between 65 90
def isLower : UInt8 → Bool := between 97 122
def isAlnum (b : UInt8) : Bool := Json.isDigit b || isUpper b || isLower b

def literal (s : String) : List Piece := (ofString s).map fun c => ⟨(· == c), 1, false⟩

def builtinSecretPatterns : List (List Piece) :=
  let word (b : UInt8) : Bool := isAlnum b || b == 95 || b == 45
  let part : Piece := ⟨word, 8, true⟩
  [literal "AKIA" ++ [⟨fun b => Json.isDigit b || isUpper b, 16, false⟩],
    literal "ghp_" ++ [⟨isAlnum, 36, false⟩],
    literal "gh" ++ [⟨fun b => b == 111 || b == 115 || b == 117, 1, false⟩] ++ literal "_" ++
      [⟨isAlnum, 36, false⟩],
    literal "github_pat_" ++ [⟨fun b => isAlnum b || b == 95, 22, true⟩],
    literal "xox" ++
      [⟨fun b => b == 98 || b == 97 || b == 112 || b == 114 || b == 115, 1, false⟩] ++
      literal "-" ++ [⟨fun b => isAlnum b || b == 45, 10, true⟩],
    literal "AIza" ++ [⟨word, 35, false⟩],
    literal "eyJ" ++ [part] ++ literal "." ++ [part] ++ literal "." ++ [part]]

/-- An ASCII byte of the class. -/
def Piece.meets (p : Piece) : Seg → Bool
  | .ascii b => p.cls b
  | _ => false

/-- What follows the piece, if it matches at the front. -/
def Piece.after (p : Piece) (l : List Seg) : Option (List Seg) :=
  let n := (l.takeWhile p.meets).length
  if n < p.count then none else some (l.drop (if p.orMore then n else p.count))

/-- What follows the pattern, if it matches at the front. -/
def afterMatch : List Piece → List Seg → Option (List Seg)
  | [], l => some l
  | p :: ps, l => (p.after l).bind (afterMatch ps)

/-- Replace the matches from left to right. -/
def replaceSegs (pattern : List Piece) : (fuel : Nat) → List Seg → Bytes
  | 0, l => l.flatMap Seg.bytes
  | _ + 1, [] => []
  | fuel + 1, x :: l =>
    match afterMatch pattern (x :: l) with
    | some rest => stars ++ replaceSegs pattern fuel rest
    | none => x.bytes ++ replaceSegs pattern fuel l

/-- `ReplaceAllString(s, "***")` for a built-in pattern. -/
def replaceAll (pattern : List Piece) (s : Bytes) : Bytes :=
  replaceSegs pattern (segs s).length (segs s)

/-! ## The redactor -/

/-- A caller's pattern: what `ReplaceAllString(s, "***")` makes of a string. -/
structure Pattern where
  replace : Bytes → Bytes
  isUtf8_replace : ∀ s, isUtf8 s = true → isUtf8 (replace s) = true

structure Redactor where
  patterns : List Pattern

namespace Redactor

variable (r : Redactor)

def redactString (s : Bytes) : Bytes :=
  let out := builtinSecretPatterns.foldl (fun out p => replaceAll p out) (sanitizeBody s)
  r.patterns.foldl (fun out p => p.replace out) out

end Redactor

mutual

/-- The value with `f` applied to its string leaves, not to its keys. -/
def mapLeaves (f : Bytes → Bytes) : Json → Json
  | .null => .null
  | .bool b => .bool b
  | .num lit => .num lit
  | .str s => .str (f s)
  | .arr items => .arr (mapLeavesItems f items)
  | .obj members => .obj (mapLeavesMembers f members)

def mapLeavesItems (f : Bytes → Bytes) : List Json → List Json
  | [] => []
  | v :: vs => mapLeaves f v :: mapLeavesItems f vs

def mapLeavesMembers (f : Bytes → Bytes) : List (Bytes × Json) → List (Bytes × Json)
  | [] => []
  | (key, v) :: ms => (key, mapLeaves f v) :: mapLeavesMembers f ms

end

namespace Redactor

variable (r : Redactor)

def redactJSONValue (v : Json) : Json := mapLeaves r.redactString v

def redactBody (b : Bytes) : Bytes :=
  if b = [] then b
  else if r.redactString b = b then b
  else
    match Json.decodeFirst b with
    | some v => Json.encode false (r.redactJSONValue v)
    | none => r.redactString b

/-- `data: `, the prefix of a line of an SSE frame. -/
def dataPrefix : Bytes := ofString "data: "

def redactLine (line : Bytes) : Bytes :=
  let payload := if dataPrefix <+: line then line.drop dataPrefix.length else line
  let front := line.take (line.length - payload.length)
  if payload ≠ [] ∧ Json.valid payload then front ++ r.redactBody payload else sanitizeBody line

def redactStreamData (s : Bytes) : Bytes :=
  if s = [] then s else [10].intercalate ((Bytes.split 10 s).map r.redactLine)

def redactHeaderValues (h : StrMap) : StrMap := h.mapValues r.redactString

def apply (it : Interaction) : Interaction :=
  { it with
    requestBody := r.redactBody it.requestBody
    responseBody := r.redactBody it.responseBody
    streamEvents := it.streamEvents.map fun ev => { ev with data := r.redactStreamData ev.data }
    requestHeaders := r.redactHeaderValues it.requestHeaders
    responseHeaders := r.redactHeaderValues it.responseHeaders }

end Redactor

end MockAgents
