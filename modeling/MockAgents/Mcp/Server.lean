import MockAgents.ForStd.GoMap
import MockAgents.ForStd.Strings
import MockAgents.Mcp.JsonRpc
import MockAgents.Types.Mcp

/-!
# The MCP server

`Handle` dispatches a request to the handler of its method. `HandleBytes` decodes the request
before and encodes the response after it.

A result is kept as the struct that the handler builds, and its JSON has the tags of that
struct; a map is written with its keys in order. The texts of decoding errors, Go's `%q` and
`%v`, the tables of `unicode`, and the JSON of an input schema are parameters.
-/

namespace MockAgents

open Bytes (ofString)
open Json (omitEmpty unquoted)

/-- What the server takes from the standard library. -/
structure MCPLib where
  /-- Go's `%q`. -/
  quote : String → String
  /-- Go's `%v` of the arguments of a call. -/
  sprint : Fields → String
  /-- `strings.ToLower`. -/
  lower : String → String
  /-- The order in which `expandArgs` visits the arguments. -/
  order : MapOrder
  /-- The error of a body that is not decoded into a request. -/
  unmarshalError : Bytes → String
  /-- The error of parameters that are not decoded into those of the method. -/
  paramsError : String → Option Json → String
  /-- `json.Marshal` of an input schema. -/
  marshalSchema : Fields → Option Json
  writable_schema : ∀ {schema v}, marshalSchema schema = some v → v.IsWritable

/-- Without texts, and with schemas written as `null`. -/
def MCPLib.plain : MCPLib where
  quote s := s
  sprint _ := ""
  lower s := s
  order := .stored
  unmarshalError _ := ""
  paramsError _ _ := ""
  marshalSchema _ := some .null
  writable_schema h := Option.some.inj h ▸ Json.isWritable_null

/-! ## Methods -/

/-- The methods that `Handle` knows. -/
inductive Method where
  | init | initialized | ping | toolsList | toolsCall | resourcesList | resourcesRead
  | resourcesSubscribe | resourcesUnsubscribe | promptsList | promptsGet | completionComplete
  | loggingSetLevel | samplingCreateMessage | rootsList
  deriving DecidableEq

namespace Method

def name : Method → String
  | init => "initialize"
  | initialized => "notifications/initialized"
  | ping => "ping"
  | toolsList => "tools/list"
  | toolsCall => "tools/call"
  | resourcesList => "resources/list"
  | resourcesRead => "resources/read"
  | resourcesSubscribe => "resources/subscribe"
  | resourcesUnsubscribe => "resources/unsubscribe"
  | promptsList => "prompts/list"
  | promptsGet => "prompts/get"
  | completionComplete => "completion/complete"
  | loggingSetLevel => "logging/setLevel"
  | samplingCreateMessage => "sampling/createMessage"
  | rootsList => "roots/list"

def all : List Method :=
  [init, initialized, ping, toolsList, toolsCall, resourcesList, resourcesRead,
    resourcesSubscribe, resourcesUnsubscribe, promptsList, promptsGet, completionComplete,
    loggingSetLevel, samplingCreateMessage, rootsList]

def ofName (s : String) : Option Method := all.find? fun m => m.name = s

end Method

/-! ## Results -/

structure ToolListEntry where
  name : String
  description : String
  inputSchema : Fields

structure ResourceListEntry where
  uri : String
  name : String
  description : String
  mimeType : String
  deriving DecidableEq

structure ResourceContents where
  uri : String
  mimeType : String
  text : String
  blob : String
  deriving DecidableEq

structure PromptListEntry where
  name : String
  description : String
  arguments : List MCPPromptArg
  deriving DecidableEq

/-- What a handler returns. -/
inductive MCPResult where
  | empty
  | init (protocolVersion name : String) (capabilities : MCPCapabilities)
  | tools (entries : List ToolListEntry)
  | call (content : Option (List MCPContentBlock)) (isError : Bool)
  | resources (entries : List ResourceListEntry)
  | contents (entries : List ResourceContents)
  | prompts (entries : List PromptListEntry)
  | prompt (description : String) (messages : List MCPPromptMessage)
  | completion (values : Option (List String)) (total : Nat) (hasMore : Bool)

/-- A string member that is left out if it is empty. -/
def omitText (key s : String) : List (String × Json) := omitEmpty key (ofString s)

/-- A flag that is left out if it is not set. -/
def omitFalse (key : String) (b : Bool) : List (String × Json) :=
  if b then [(key, .bool true)] else []

def sliceJson {α : Type} (toJson : α → Json) : Option (List α) → Json
  | none => .null
  | some l => .arr (l.map toJson)

/-- `MCPContentBlock.MarshalJSON`. -/
def MCPContentBlock.toJson (b : MCPContentBlock) : Json :=
  if b.type = "resource" then
    .object [("resource", .object (omitText "blob" b.blob ++ omitText "mimeType" b.mimeType ++
      omitText "text" b.text ++ omitText "uri" b.uri)), ("type", .text "resource")]
  else .object <|
    [("type", .text b.type)] ++ omitText "text" b.text ++ omitText "data" b.data ++
      omitText "mimeType" b.mimeType ++ omitText "uri" b.uri ++ omitText "blob" b.blob

def ToolListEntry.toJson (lib : MCPLib) (e : ToolListEntry) : Option Json :=
  let members := [("name", .text e.name)] ++ omitText "description" e.description
  if e.inputSchema = [] then some (.object members)
  else (lib.marshalSchema e.inputSchema).map fun v => .object (members ++ [("inputSchema", v)])

def ResourceListEntry.toJson (e : ResourceListEntry) : Json := .object <|
  [("uri", .text e.uri)] ++ omitText "name" e.name ++ omitText "description" e.description ++
    omitText "mimeType" e.mimeType

def ResourceContents.toJson (c : ResourceContents) : Json := .object <|
  [("uri", .text c.uri)] ++ omitText "mimeType" c.mimeType ++ omitText "text" c.text ++
    omitText "blob" c.blob

def MCPPromptArg.toJson (a : MCPPromptArg) : Json := .object <|
  [("name", .text a.name)] ++ omitText "description" a.description ++
    omitFalse "required" a.required

def PromptListEntry.toJson (e : PromptListEntry) : Json := .object <|
  [("name", .text e.name)] ++ omitText "description" e.description ++
    (if e.arguments = [] then [] else [("arguments", .arr (e.arguments.map MCPPromptArg.toJson))])

def MCPPromptMessage.toJson (m : MCPPromptMessage) : Json :=
  .object [("role", .text m.role), ("content", m.content.toJson)]

/-- The sections of `initialize`, with an empty object for each but the resources. -/
def MCPCapabilities.toJson (caps : MCPCapabilities) : Json := .object <|
  (if caps.logging then [("logging", .object [])] else []) ++
    (if caps.prompts then [("prompts", .object [])] else []) ++
    (if caps.resources then [("resources", .object [("subscribe", .bool true)])] else []) ++
    (if caps.tools then [("tools", .object [])] else [])

/-- The JSON of a result; `none` if a schema cannot be encoded. -/
def MCPResult.toJson (lib : MCPLib) : MCPResult → Option Json
  | .empty => some (.object [])
  | .init protocolVersion name capabilities =>
    some (.object [("protocolVersion", .text protocolVersion),
      ("serverInfo", .object [("name", .text name), ("version", .text "mock")]),
      ("capabilities", capabilities.toJson)])
  | .tools entries =>
    (entries.mapM (ToolListEntry.toJson lib)).map fun l => .object [("tools", .arr l)]
  | .call content isError =>
    some (.object ([("content", sliceJson MCPContentBlock.toJson content)] ++
      omitFalse "isError" isError))
  | .resources entries =>
    some (.object [("resources", .arr (entries.map ResourceListEntry.toJson))])
  | .contents entries => some (.object [("contents", .arr (entries.map ResourceContents.toJson))])
  | .prompts entries => some (.object [("prompts", .arr (entries.map PromptListEntry.toJson))])
  | .prompt description messages =>
    some (.object [("description", .text description),
      ("messages", .arr (messages.map MCPPromptMessage.toJson))])
  | .completion values total hasMore =>
    some (.object [("completion", .object ([("values", sliceJson .text values)] ++
      (if total = 0 then [] else [("total", .nat total)]) ++ omitFalse "hasMore" hasMore))])

/-! ## Parameters -/

/-- `json.Unmarshal` of the parameters into a struct. -/
def unmarshalParams {ρ : Type} (set : ρ → Bytes × Json → Option ρ) (zero : ρ)
    (params : Option Json) : Option ρ :=
  params.bind (decodeStruct set zero)

/-- Decode into a `map[string]any` that holds `old`. -/
def decodeAnyMap (old : Fields) : Json → Option Fields
  | .null => some []
  | .obj ms => Value.ofJsonMembers old ms
  | _ => none

def decodeTextMap (old : GoMap String String) : Json → Option (GoMap String String)
  | .null => some ∅
  | .obj ms => ms.foldlM (fun m e =>
      (decodeText "" e.2).map fun s => m.insert (Strings.ofBytes (unquoted e.1)) s) old
  | _ => none

structure ToolCallParams where
  name : String := ""
  arguments : Fields := []
  deriving DecidableEq

def ToolCallParams.setMember (p : ToolCallParams) (m : Bytes × Json) : Option ToolCallParams :=
  if keyNames "name" m.1 then (decodeText p.name m.2).map fun s => { p with name := s }
  else if keyNames "arguments" m.1 then
    (decodeAnyMap p.arguments m.2).map fun args => { p with arguments := args }
  else some p

/-- `resourcesReadParams`, and `resourceSubscribeParams`. -/
structure ResourceParams where
  uri : String := ""

def ResourceParams.setMember (p : ResourceParams) (m : Bytes × Json) : Option ResourceParams :=
  if keyNames "uri" m.1 then (decodeText p.uri m.2).map fun s => { uri := s } else some p

structure PromptsGetParams where
  name : String := ""
  arguments : GoMap String String := ∅

def PromptsGetParams.setMember (p : PromptsGetParams) (m : Bytes × Json) :
    Option PromptsGetParams :=
  if keyNames "name" m.1 then (decodeText p.name m.2).map fun s => { p with name := s }
  else if keyNames "arguments" m.1 then
    (decodeTextMap p.arguments m.2).map fun args => { p with arguments := args }
  else some p

structure CompletionRef where
  type : String := ""
  name : String := ""

def CompletionRef.setMember (p : CompletionRef) (m : Bytes × Json) : Option CompletionRef :=
  if keyNames "type" m.1 then (decodeText p.type m.2).map fun s => { p with type := s }
  else if keyNames "name" m.1 then (decodeText p.name m.2).map fun s => { p with name := s }
  else some p

structure CompletionArgument where
  name : String := ""
  value : String := ""

def CompletionArgument.setMember (p : CompletionArgument) (m : Bytes × Json) :
    Option CompletionArgument :=
  if keyNames "name" m.1 then (decodeText p.name m.2).map fun s => { p with name := s }
  else if keyNames "value" m.1 then (decodeText p.value m.2).map fun s => { p with value := s }
  else some p

structure CompletionParams where
  ref : CompletionRef := {}
  argument : CompletionArgument := {}

def CompletionParams.setMember (p : CompletionParams) (m : Bytes × Json) :
    Option CompletionParams :=
  if keyNames "ref" m.1 then
    (decodeStruct CompletionRef.setMember p.ref m.2).map fun ref => { p with ref := ref }
  else if keyNames "argument" m.1 then
    (decodeStruct CompletionArgument.setMember p.argument m.2).map fun arg =>
      { p with argument := arg }
  else some p

structure SetLevelParams where
  level : String := ""

def SetLevelParams.setMember (p : SetLevelParams) (m : Bytes × Json) : Option SetLevelParams :=
  if keyNames "level" m.1 then (decodeText p.level m.2).map fun s => { level := s } else some p

/-! ## Choosing a response -/

def matchArgs (pattern args : Fields) : Bool :=
  !pattern.isEmpty && pattern.all fun m =>
    match args.lookup m.1 with
    | some got => got.deepEqual m.2
    | none => false

/-- The loop of `resolveToolResponse`, with the last default so far. -/
def resolveFrom (args : Fields) (fallback : Option MCPToolResponse) :
    List MCPToolResponse → Option MCPToolResponse
  | [] => fallback
  | r :: rs =>
    if r.isDefault then resolveFrom args (some r) rs
    else if matchArgs r.pattern.fields args then some r
    else resolveFrom args fallback rs

def resolveToolResponse (responses : List MCPToolResponse) (args : Fields) :
    Option MCPToolResponse :=
  resolveFrom args none responses

/-! ## Completion and expansion -/

def expandArgs (order : MapOrder) (s : String) (args : GoMap String String) : String :=
  (order.visit args.entries).foldl
    (fun s e => replaceAllStr s ("\x7b\x7b" ++ e.1 ++ "\x7d\x7d") e.2) s

def filterPrefix (lower : String → String) (values : List String) (pre : String) : List String :=
  if pre = "" then values
  else values.filter fun v => (lower pre).toList.isPrefixOf (lower v).toList

/-- The largest number of values in a completion response. -/
def maxValues : Nat := 100

/-- The levels that `logging/setLevel` accepts. -/
def logLevels : List String :=
  ["debug", "info", "notice", "warning", "error", "critical", "alert", "emergency"]

/-! ## The server -/

/-- `Server`, without what its own messages need. -/
structure MCPServer where
  definition : MCPServerDefinition
  inited : Bool := false
  logLvl : String := ""
  subscribed : GoMap String Bool := ∅

namespace MCPServer

variable (lib : MCPLib) (s : MCPServer) (req : RPCRequest)

/-- The answer to parameters that cannot be decoded. -/
def invalidParams : RPCResponse MCPResult :=
  newError req.id errInvalidParams ("invalid params for " ++ req.method)
    (some (.text (lib.paramsError req.method req.params)))

/-- The answer to parameters without a field. -/
def missingField (message : String) : RPCResponse MCPResult :=
  newError req.id errInvalidParams message none

/-- The names that there are, for an unknown one. -/
def available (names : List String) : Json := .object [("available", .arr (names.map .text))]

/-- The sections that `initialize` advertises. -/
def capabilities : MCPCapabilities :=
  let spec := s.definition.spec
  { tools := spec.capabilities.tools || !spec.tools.isEmpty
    resources := spec.capabilities.resources || !spec.resources.isEmpty
    prompts := spec.capabilities.prompts || !spec.prompts.isEmpty
    logging := spec.capabilities.logging }

def handleInitialize : RPCResponse MCPResult :=
  let pv := s.definition.spec.protocolVersion
  newResult req.id (.init (if pv = "" then defaultMCPProtocolVersion else pv)
    s.definition.metadata.name s.capabilities)

def handleToolsList : RPCResponse MCPResult :=
  newResult req.id (.tools (s.definition.spec.tools.map fun t =>
    ⟨t.name, t.description, t.inputSchema⟩))

def findTool (name : String) : Option MCPTool :=
  s.definition.spec.tools.find? fun t => t.name = name

def toolNames : List String := s.definition.spec.tools.map MCPTool.name

def callResult (tool : MCPTool) (args : Fields) : Option MCPToolResponse → MCPResult
  | none => .call (some [{
      type := "text"
      text := "(mock) tool " ++ tool.name ++ " called with " ++ lib.sprint args }]) false
  | some r => .call r.content r.isError

def handleToolsCall : RPCResponse MCPResult :=
  match unmarshalParams ToolCallParams.setMember {} req.params with
  | none => invalidParams lib req
  | some params =>
    if params.name = "" then missingField req "tool name is required"
    else
      match s.findTool params.name with
      | none => newError req.id errMethodNotFound ("unknown tool " ++ lib.quote params.name)
          (some (available s.toolNames))
      | some tool => newResult req.id
          (callResult lib tool params.arguments
            (resolveToolResponse tool.responses params.arguments))

def handleResourcesList : RPCResponse MCPResult :=
  newResult req.id (.resources (s.definition.spec.resources.map fun r =>
    ⟨r.uri, r.name, r.description, r.mimeType⟩))

def resourceURIs : List String := s.definition.spec.resources.map MCPResource.uri

def handleResourcesRead : RPCResponse MCPResult :=
  match unmarshalParams ResourceParams.setMember {} req.params with
  | none => invalidParams lib req
  | some params =>
    match s.definition.spec.resources.find? fun r => r.uri = params.uri with
    | some r => newResult req.id (.contents [⟨r.uri, r.mimeType, r.text, r.blob⟩])
    | none => newError req.id errInvalidParams ("unknown resource " ++ lib.quote params.uri)
        (some (available s.resourceURIs))

/-- `handleResourcesSubscribe` and `handleResourcesUnsubscribe`, which differ in what they do
    to the set of subscriptions. -/
def handleSubscription (update : GoMap String Bool → String → GoMap String Bool) :
    RPCResponse MCPResult × MCPServer :=
  match unmarshalParams ResourceParams.setMember {} req.params with
  | none => (invalidParams lib req, s)
  | some params =>
    if params.uri = "" then (missingField req "uri is required", s)
    else (newResult req.id .empty, { s with subscribed := update s.subscribed params.uri })

def handleResourcesSubscribe : RPCResponse MCPResult × MCPServer :=
  s.handleSubscription lib req fun m uri => m.insert uri true

def handleResourcesUnsubscribe : RPCResponse MCPResult × MCPServer :=
  s.handleSubscription lib req fun m uri => m.erase uri

def handlePromptsList : RPCResponse MCPResult :=
  newResult req.id (.prompts (s.definition.spec.prompts.map fun p =>
    ⟨p.name, p.description, p.arguments⟩))

def expandMessage (args : GoMap String String) (m : MCPPromptMessage) : MCPPromptMessage :=
  { m with content := { m.content with
      text := expandArgs lib.order m.content.text args
      uri := expandArgs lib.order m.content.uri args } }

def handlePromptsGet : RPCResponse MCPResult :=
  match unmarshalParams PromptsGetParams.setMember {} req.params with
  | none => invalidParams lib req
  | some params =>
    match s.definition.spec.prompts.find? fun p => p.name = params.name with
    | some p =>
      newResult req.id (.prompt p.description (p.messages.map (expandMessage lib params.arguments)))
    | none => newError req.id errInvalidParams ("unknown prompt " ++ lib.quote params.name) none

def lookupCompletion (refType refName argName : String) : Option (List String) :=
  (s.definition.spec.completions.find? fun c =>
    (c.refType = "" || c.refType = refType) && (c.refName = "" || c.refName = refName) &&
      c.argName = argName).map MCPCompletion.values

def handleCompletionComplete : RPCResponse MCPResult :=
  match unmarshalParams CompletionParams.setMember {} req.params with
  | none => invalidParams lib req
  | some params =>
    if params.argument.name = "" then missingField req "argument.name is required"
    else
      let found := s.lookupCompletion params.ref.type params.ref.name params.argument.name
      let values := if params.argument.value = "" then found
        else found.map (filterPrefix lib.lower · params.argument.value)
      let total := (values.getD []).length
      newResult req.id (.completion (values.map (List.take maxValues)) total (maxValues < total))

def handleLoggingSetLevel : RPCResponse MCPResult × MCPServer :=
  match unmarshalParams SetLevelParams.setMember {} req.params with
  | none => (invalidParams lib req, s)
  | some params =>
    if params.level = "" then (missingField req "level is required", s)
    else if params.level ∈ logLevels then
      (newResult req.id .empty, { s with logLvl := params.level })
    else
      (newError req.id errInvalidParams ("unknown level " ++ lib.quote params.level)
        (some (.object [("valid", .arr (logLevels.map .text))])), s)

/-- The answer to a method that only a server calls. -/
def serverInitiated : RPCResponse MCPResult :=
  newError req.id errMethodNotFound
    ("method " ++ lib.quote req.method ++
      " is server-initiated and not supported by the mock without a bidirectional transport")
    (some (.object [("hint",
      .text "use Server.EmitNotification or POST /mcp/notify to drive the client side")]))

/-- `Handle`; `none` is no response. -/
def handle : Option (RPCResponse MCPResult) × MCPServer :=
  if req.jsonrpc ≠ "2.0" then
    (some (newError req.id errInvalidRequest "jsonrpc must be 2.0" none), s)
  else
    match Method.ofName req.method with
    | some .init => (some (s.handleInitialize req), s)
    | some .initialized => (none, { s with inited := true })
    | some .ping => (some (newResult req.id .empty), s)
    | some .toolsList => (some (s.handleToolsList req), s)
    | some .toolsCall => (some (s.handleToolsCall lib req), s)
    | some .resourcesList => (some (s.handleResourcesList req), s)
    | some .resourcesRead => (some (s.handleResourcesRead lib req), s)
    | some .resourcesSubscribe => (s.handleResourcesSubscribe lib req).map some id
    | some .resourcesUnsubscribe => (s.handleResourcesUnsubscribe lib req).map some id
    | some .promptsList => (some (s.handlePromptsList req), s)
    | some .promptsGet => (some (s.handlePromptsGet lib req), s)
    | some .completionComplete => (some (s.handleCompletionComplete lib req), s)
    | some .loggingSetLevel => (s.handleLoggingSetLevel lib req).map some id
    | some .samplingCreateMessage | some .rootsList => (some (serverInitiated lib req), s)
    | none =>
      if req.isNotification then (none, s)
      else (some (newError req.id errMethodNotFound
        ("method " ++ lib.quote req.method ++ " not supported") none), s)

/-- What `HandleBytes` returns. -/
inductive Handled where
  | failed
  | silent
  | reply (out : Bytes)
  deriving DecidableEq

/-- `json.Marshal` of a response. -/
def Handled.ofResponse (r : RPCResponse MCPResult) : Handled :=
  match r.marshal (MCPResult.toJson lib) with
  | none => .failed
  | some out => .reply out

def handleBytes (body : Bytes) : Handled × MCPServer :=
  match RPCRequest.unmarshal body with
  | none =>
    (Handled.ofResponse lib (newError none errParseError "invalid JSON"
      (some (.text (lib.unmarshalError body)))), s)
  | some req =>
    match s.handle lib req with
    | (none, s') => (.silent, s')
    | (some r, s') => (Handled.ofResponse lib r, s')

end MCPServer

end MockAgents
