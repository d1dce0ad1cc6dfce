import MockAgents.Types.Value

/-!
# MCP server definitions

The document types of `internal/types/mcp.go`. A `nil` slice that is written as `null` is
`none`. The API version and the kind, which the server does not read, are left out.
-/

namespace MockAgents

/-- A `map[string]any` of a document. -/
structure AnyMap where
  fields : Fields := []
  keyed : Value.Keyed (.obj fields)

/-- The sections that the server advertises. -/
structure MCPCapabilities where
  tools : Bool := false
  resources : Bool := false
  prompts : Bool := false
  logging : Bool := false
  deriving DecidableEq

/-- An entry of a tool or prompt response. -/
structure MCPContentBlock where
  type : String
  text : String := ""
  data : String := ""
  mimeType : String := ""
  uri : String := ""
  blob : String := ""
  deriving DecidableEq

/-- A stub for the calls whose arguments contain `pattern`. -/
structure MCPToolResponse where
  pattern : AnyMap
  isDefault : Bool := false
  content : Option (List MCPContentBlock) := none
  isError : Bool := false

/-- A tool exposed by the server. -/
structure MCPTool where
  name : String
  description : String := ""
  inputSchema : Fields := []
  responses : List MCPToolResponse := []

/-- A static resource. -/
structure MCPResource where
  uri : String
  name : String := ""
  description : String := ""
  mimeType : String := ""
  text : String := ""
  blob : String := ""
  deriving DecidableEq

structure MCPPromptArg where
  name : String
  description : String := ""
  required : Bool := false
  deriving DecidableEq

structure MCPPromptMessage where
  role : String
  content : MCPContentBlock
  deriving DecidableEq

/-- A prompt template. -/
structure MCPPrompt where
  name : String
  description : String := ""
  arguments : List MCPPromptArg := []
  messages : List MCPPromptMessage := []
  deriving DecidableEq

/-- The suggestions for an argument; an empty `refType` or `refName` fits any. -/
structure MCPCompletion where
  refType : String := ""
  refName : String := ""
  argName : String
  values : List String := []
  deriving DecidableEq

structure MCPServerSpec where
  protocolVersion : String := ""
  capabilities : MCPCapabilities := {}
  tools : List MCPTool := []
  resources : List MCPResource := []
  prompts : List MCPPrompt := []
  completions : List MCPCompletion := []

/-- A mock MCP server document. -/
structure MCPServerDefinition where
  metadata : Metadata
  spec : MCPServerSpec := {}

def defaultMCPProtocolVersion : String := "2025-11-25"

end MockAgents
