import MockAgents.ForStd.ServeMux

/-!
# The routes of the protocol adapters

`DefaultRegistry` and the `Routes` of its adapters, with the handlers by name.
-/

namespace MockAgents

open ServeMux (Pattern)

/-- The handlers that the adapters mount. -/
inductive HandlerFunc where
  | handleChatCompletions | handleModels
  | handleResponses
  | handleEmbeddings
  | handleModerations
  | handleMessages | handleCountTokens
  | handleGenerate
  | handleDeploymentChat | handleDeploymentEmbeddings
  | handleUpload | handleListFiles | handleRetrieveFile | handleContent | handleDeleteFile
  | handleCreateBatch | handleListBatches | handleRetrieveBatch | handleCancelBatch
  deriving DecidableEq

/-- The handler produces a chat completion, a response, embeddings, a message or a Gemini
    generation. `HandleCreateBatch` does so for the lines of its file, with the handlers of the
    three OpenAI endpoints. -/
def HandlerFunc.generates : HandlerFunc → Bool
  | handleChatCompletions | handleResponses | handleEmbeddings | handleMessages
  | handleGenerate | handleDeploymentChat | handleDeploymentEmbeddings
  | handleCreateBatch => true
  | _ => false

structure Route where
  pattern : Pattern
  handler : HandlerFunc

def mount (pattern : String) (handler : HandlerFunc) : Route := ⟨.parse pattern, handler⟩

/-- `Adapter`: its name and its routes. -/
structure Adapter where
  name : String
  routes : List Route

def openAIAdapter : Adapter where
  name := "openai"
  routes := [
    mount "POST /v1/chat/completions" .handleChatCompletions,
    mount "GET /v1/models" .handleModels]

def responsesAdapter : Adapter where
  name := "openai-responses"
  routes := [mount "POST /v1/responses" .handleResponses]

def embeddingsAdapter : Adapter where
  name := "openai-embeddings"
  routes := [mount "POST /v1/embeddings" .handleEmbeddings]

def moderationsAdapter : Adapter where
  name := "openai-moderations"
  routes := [mount "POST /v1/moderations" .handleModerations]

def anthropicAdapter : Adapter where
  name := "anthropic"
  routes := [
    mount "POST /v1/messages" .handleMessages,
    mount "POST /v1/messages/count_tokens" .handleCountTokens]

def geminiAdapter : Adapter where
  name := "gemini"
  routes := [mount "POST /v1beta/models/\x7bmodelmethod\x7d" .handleGenerate]

def azureAdapter : Adapter where
  name := "azure-openai"
  routes := [
    mount "POST /openai/deployments/\x7bdeployment\x7d/chat/completions" .handleDeploymentChat,
    mount "POST /openai/deployments/\x7bdeployment\x7d/embeddings" .handleDeploymentEmbeddings,
    mount "POST /openai/v1/chat/completions" .handleChatCompletions,
    mount "POST /openai/v1/embeddings" .handleEmbeddings]

def filesAdapter : Adapter where
  name := "openai-files"
  routes := [
    mount "POST /v1/files" .handleUpload,
    mount "GET /v1/files" .handleListFiles,
    mount "GET /v1/files/\x7bid\x7d" .handleRetrieveFile,
    mount "GET /v1/files/\x7bid\x7d/content" .handleContent,
    mount "DELETE /v1/files/\x7bid\x7d" .handleDeleteFile]

def batchesAdapter : Adapter where
  name := "openai-batches"
  routes := [
    mount "POST /v1/batches" .handleCreateBatch,
    mount "GET /v1/batches" .handleListBatches,
    mount "GET /v1/batches/\x7bid\x7d" .handleRetrieveBatch,
    mount "POST /v1/batches/\x7bid\x7d/cancel" .handleCancelBatch]

/-- `DefaultRegistry`, in mount order. -/
def defaultRegistry : List Adapter :=
  [openAIAdapter, responsesAdapter, embeddingsAdapter, moderationsAdapter, anthropicAdapter,
    geminiAdapter, azureAdapter, filesAdapter, batchesAdapter]

/-- The routes that the server mounts from the registry. -/
def defaultRoutes : List Route := defaultRegistry.flatMap (·.routes)

end MockAgents
