import MockAgents.ForStd.Runes
import MockAgents.Recording.Cassette

/-!
# Importing vcrpy cassettes

`ImportVCR` turns the interactions of a vcrpy cassette, a YAML file, into interactions of a
MockAgents cassette. An interaction that cannot be imported is skipped with a reason.

The YAML decoder is not part of the repository. What it makes of a file is a parameter, with
the nodes of the bodies as they are passed to `UnmarshalYAML`. The other functions of
`VcrEnv` are those of the standard library that the result depends on.
-/

namespace MockAgents

open Bytes (ofString)

/-! ## The YAML document -/

/-- A node that is decoded into a `vcrBody`; `V` is the type of the values in a decoded
    mapping. -/
inductive BodyNode (V : Type) where
  /-- A scalar, and whether its tag is `!!null`. -/
  | scalar (isNull : Bool) (value : Bytes)
  /-- A mapping, decoded into a `map[string]any`. -/
  | mapping (decoded : Except Bytes (GoMap Bytes V))
  | other

/-- `vcrRequest`, with bodies of type `β`. -/
structure VcrRequest (β : Type) where
  method : Bytes
  uri : Bytes
  body : β
  headers : GoMap Bytes (List Bytes)

/-- `vcrResponse`, without the message of the status. -/
structure VcrResponse (β : Type) where
  statusCode : Int64
  headers : GoMap Bytes (List Bytes)
  body : β

structure VcrInteraction (β : Type) where
  request : VcrRequest β
  response : VcrResponse β

/-- Why the decoder returned no document. -/
inductive YamlError where
  | eof
  | malformed (msg : Bytes)

/-- What a gzip stream inflates to, and the error that it ends with if it is damaged. -/
structure GzipStream where
  out : Bytes
  err : Option Bytes

/-- `io.ReadAll` of an `io.LimitReader`. -/
def GzipStream.readAll (z : GzipStream) (limit : Nat) : Except Bytes Bytes :=
  if limit ≤ z.out.length then .ok (z.out.take limit)
  else
    match z.err with
    | some e => .error e
    | none => .ok z.out

/-- What the importer uses of other packages. -/
structure VcrEnv where
  /-- The values of a decoded mapping. -/
  Value : Type
  /-- `yaml.Decoder.Decode` of a file. A body that is missing has no node. -/
  decode : Bytes → Except YamlError (List (VcrInteraction (Option (BodyNode Value))))
  /-- The type assertion `v.(string)`. -/
  asString : Value → Option Bytes
  /-- `json.Marshal`. -/
  marshal : GoMap Bytes Value → Except Bytes Bytes
  /-- `base64.StdEncoding.DecodeString`. -/
  base64 : Bytes → Except Bytes Bytes
  /-- `gzip.NewReader`. -/
  gzip : Bytes → Except Bytes GzipStream
  /-- `url.Parse`, of which only the path is used. -/
  urlPath : Bytes → Except Bytes Bytes
  /-- The tables of `unicode` and `strconv` above U+007F. -/
  upper : Nat → Nat
  lower : Nat → Nat
  isPrint : Nat → Bool
  /-- The order of a `range` over headers. -/
  order : MapOrder

/-! ## Bodies -/

structure VcrBody where
  raw : Bytes
  present : Bool
  err : Option Bytes
  deriving DecidableEq

namespace VcrBody

def zero : VcrBody := ⟨[], false, none⟩

def ofRaw (raw : Bytes) : VcrBody := ⟨raw, true, none⟩

def ofErr (err : Bytes) : VcrBody := ⟨[], false, some err⟩

end VcrBody

def maxDecompressedBody : Nat := maxCassetteLine

namespace VcrEnv

variable (env : VcrEnv)

def decodeBase64Body (enc : Bytes) : Except Bytes Bytes :=
  match env.base64 (Bytes.trimSpace enc) with
  | .error e => .error (ofString "base64: " ++ e)
  | .ok data =>
    -- the gzip magic
    if [0x1f, 0x8b].isPrefixOf data then
      match env.gzip data with
      | .error e => .error (ofString "gzip: " ++ e)
      | .ok z =>
        match z.readAll (maxDecompressedBody + 1) with
        | .error e => .error (ofString "gunzip: " ++ e)
        | .ok out =>
          if maxDecompressedBody < out.length then
            .error (ofString "decompressed body exceeds " ++
              Decimal.natText maxDecompressedBody ++
              ofString " bytes (possible decompression bomb)")
          else .ok out
    else .ok data

/-- The mapping shapes of a body: `string`, `base64_string`, or an inline JSON object. -/
def unmarshalMapping (m : GoMap Bytes env.Value) : VcrBody :=
  match m.lookup (ofString "string") with
  | some v =>
    match env.asString v with
    | some s => .ofRaw s
    | none => .ofErr (ofString "body.string is not a scalar")
  | none =>
    match m.lookup (ofString "base64_string") with
    | some v =>
      match env.asString v with
      | some s =>
        match env.decodeBase64Body s with
        | .ok raw => .ofRaw raw
        | .error e => .ofErr e
      | none => .ofErr (ofString "body.base64_string is not a scalar")
    | none =>
      match env.marshal m with
      | .ok jb => .ofRaw jb
      | .error e => .ofErr (ofString "re-encoding inline body to JSON: " ++ e)

def unmarshalYAML : Option (BodyNode env.Value) → VcrBody
  | none => .zero
  | some (.scalar isNull value) => if isNull then .zero else .ofRaw value
  | some (.mapping (.error e)) => .ofErr (ofString "decoding body mapping: " ++ e)
  | some (.mapping (.ok m)) => env.unmarshalMapping m
  | some .other => .zero

/-- An interaction of the document with its bodies decoded. -/
def unmarshalInteraction (vi : VcrInteraction (Option (BodyNode env.Value))) :
    VcrInteraction VcrBody where
  request := { vi.request with body := env.unmarshalYAML vi.request.body }
  response := { vi.response with body := env.unmarshalYAML vi.response.body }

/-- `bodyToRawMessage`: JSON as it stands, and any other body as a Go string literal. -/
def bodyToRawMessage (b : VcrBody) : Bytes :=
  if !b.present || b.raw == [] then []
  else if Json.valid b.raw then b.raw
  else Strconv.quote env.isPrint b.raw

/-! ## Paths, headers and statuses -/

def llmPaths : List Bytes :=
  [ofString "/v1/chat/completions", ofString "/v1/messages",
    ofString "/v1/embeddings", ofString "/v1/responses",
    ofString "/v1/moderations"]

def uriToPath (uri : Bytes) : Except Bytes Bytes :=
  match env.urlPath (Bytes.trimSpace uri) with
  | .error e => .error e
  | .ok path =>
    if [47].isPrefixOf path then .ok path
    else .error (ofString "non-absolute path " ++ Strconv.quote env.isPrint path ++
      ofString " (relative or scheme-less uri?)")

def sensitiveHeaderSubstrings : List Bytes :=
  [ofString "auth", ofString "api-key", ofString "api_key",
    ofString "apikey", ofString "token", ofString "secret",
    ofString "cookie", ofString "password"]

def sensitiveHeaderExact : List Bytes :=
  [ofString "openai-organization", ofString "openai-project"]

def isSensitiveHeader (name : Bytes) : Bool :=
  let l := Strings.toLower env.lower name
  sensitiveHeaderExact.contains l || sensitiveHeaderSubstrings.any fun s => (Bytes.cut s l).isSome

/-- `flattenHeaders`: the first value of each header that may be kept. -/
def flattenHeaders (h : GoMap Bytes (List Bytes)) : StrMap :=
  (env.order.visit h.entries).foldl (fun out e =>
    if env.isSensitiveHeader e.1 then out
    else
      match e.2 with
      | [] => out
      | v :: _ => out.set e.1 v) .empty

def statusOr (code default : Int64) : Int64 := if code = 0 then default else code

/-! ## The import -/

/-- The method of a request, as the importer reads it. -/
def methodOf (vi : VcrInteraction VcrBody) : Bytes :=
  Strings.toUpper env.upper (Bytes.trimSpace vi.request.method)

/-- The interaction that is made of one that is kept. -/
def interactionOf (vi : VcrInteraction VcrBody) (path : Bytes) : Interaction :=
  { Interaction.zero with
    method := env.methodOf vi
    path := path
    requestHeaders := env.flattenHeaders vi.request.headers
    requestBody := env.bodyToRawMessage vi.request.body
    responseStatus := statusOr vi.response.statusCode 200
    responseHeaders := env.flattenHeaders vi.response.headers
    responseBody := env.bodyToRawMessage vi.response.body }

/-- One round of the loop, with `all` for `opts.AllInteractions`: the interaction, or the
    reason to skip it. -/
def importOne (all : Bool) (vi : VcrInteraction VcrBody) : Except Bytes Interaction :=
  match env.uriToPath vi.request.uri with
  | .error e => .error (ofString "bad uri " ++ Strconv.quote env.isPrint vi.request.uri ++
      ofString ": " ++ e)
  | .ok path =>
    match vi.request.body.err, vi.response.body.err with
    | some e, _ => .error (ofString "request body: " ++ e)
    | none, some e => .error (ofString "response body: " ++ e)
    | none, none =>
      if !all && (env.methodOf vi != ofString "POST" || !llmPaths.contains path) then
        .error (env.methodOf vi ++ 32 :: path ++
          ofString " — not a POST to a known LLM path (use --all to include)")
      else if vi.request.body.present && !Json.valid vi.request.body.raw then
        .error (ofString "non-JSON request body cannot be replay-matched — skipping")
      else .ok (env.interactionOf vi path)

end VcrEnv

structure ImportResult where
  imported : Nat
  skipped : Nat
  skipReasons : List Bytes

/-- The variables of the loop: what was imported, and the result so far. -/
structure ImportState where
  out : List Interaction
  res : ImportResult

namespace VcrEnv

variable (env : VcrEnv) (all : Bool)

def importStep (st : ImportState) (vi : VcrInteraction VcrBody × Nat) : ImportState :=
  match env.importOne all vi.1 with
  | .ok it => ⟨st.out ++ [it], { st.res with imported := st.res.imported + 1 }⟩
  | .error reason =>
    ⟨st.out, { st.res with
      skipped := st.res.skipped + 1
      skipReasons := st.res.skipReasons ++ [ofString "interaction " ++
        Decimal.natText vi.2 ++ ofString ": " ++ reason] }⟩

/-- The loop over the interactions. -/
def importAll (items : List (VcrInteraction VcrBody)) : ImportState :=
  items.zipIdx.foldl (env.importStep all) ⟨[], ⟨0, 0, []⟩⟩

def items (file : Bytes) : Except Bytes (List (VcrInteraction VcrBody)) :=
  match env.decode file with
  | .ok vis => .ok (vis.map env.unmarshalInteraction)
  | .error .eof => .ok []
  | .error (.malformed msg) => .error (ofString "parsing vcr cassette: " ++ msg)

def importVCR (file : Bytes) : Except Bytes (List Interaction × ImportResult) :=
  match env.items file with
  | .error e => .error e
  | .ok vis => .ok ((env.importAll all vis).out, (env.importAll all vis).res)

end VcrEnv

end MockAgents
