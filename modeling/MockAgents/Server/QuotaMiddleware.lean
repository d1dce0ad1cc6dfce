import MockAgents.ForStd.Bytes
import MockAgents.Quota.Enforcer

/-!
# Which requests are metered

`isLLMProviderPath` says which request paths are generations. `QuotaEnforce` limits the
requests to these paths, and `InteractionCapture` logs them.
-/

namespace MockAgents

open Bytes (ofString)

/-- `strings.HasSuffix`. -/
def endsWith (s : Bytes) (ending : String) : Bool := (ofString ending).isSuffixOf s

/-- `strings.HasPrefix`. -/
def startsWith (s : Bytes) (start : String) : Bool := (ofString start).isPrefixOf s

def isLLMProviderPath (path : Bytes) : Bool :=
  if path = ofString "/v1/chat/completions" ∨ path = ofString "/v1/responses" ∨
      path = ofString "/v1/embeddings" ∨ path = ofString "/v1/messages" then true
  else if path = ofString "/openai/v1/chat/completions" ∨
      path = ofString "/openai/v1/embeddings" then true
  else if startsWith path "/v1beta/models/" then
    endsWith path ":generateContent" || endsWith path ":streamGenerateContent"
  else if startsWith path "/openai/deployments/" then
    endsWith path "/chat/completions" || endsWith path "/embeddings"
  else false

def isQuotaPath (path : Bytes) : Bool := isLLMProviderPath path

def isLoggablePath (path : Bytes) : Bool :=
  decide (path = ofString "/v1/engines/process") ||
    decide (path = ofString "/v1/moderations") || isLLMProviderPath path

/-- What `QuotaEnforce` does with a request: pass it on, or answer 429 with the seconds to
    wait, or 402. -/
inductive Admission where
  | next
  | rateLimitExceeded (retryAfter : Int)
  | spendQuotaExceeded
  deriving DecidableEq

/-- `QuotaEnforce`, with the answer of `CheckSpend`. -/
def quotaEnforce (enf : Option Enforcer) (path : Bytes) (tenantID : String) (now : Int)
    (checkSpend : Bool) : Option Enforcer × Admission :=
  match enf with
  | none => (none, .next)
  | some e =>
    if isQuotaPath path = false ∨ tenantID = "" then (some e, .next)
    else
      let (e, ok, retry) := e.allowRequest tenantID now
      if !ok then (some e, .rateLimitExceeded (max 1 (retry.tdiv 1000000000)))
      else if !checkSpend then (some e, .spendQuotaExceeded)
      else (some e, .next)

end MockAgents
